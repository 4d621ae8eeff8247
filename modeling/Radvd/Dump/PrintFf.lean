import Radvd.Interface
import Radvd.Process

/-!
# `print_ff` of `radvdump`

`radvdump` prints a received router advertisement as a configuration file. Its
function `print_ff` makes the walk over the options twice: once for the settings
of the interface and once for the blocks of prefixes, routes, DNS servers and
search lists.

The output is a list of statements, one for each `printf` that prints a line of
the configuration, and one for each message that goes to the log. An address
stands for the text `addrtostr` makes of it. With `edefs`, settings that have
their default value are left out.
-/

namespace Radvd.Dump

open Wire Tlv

/-! ## The output -/

/-- The four cases of `print_preferences`; it prints nothing for the third. -/
inductive Preference where
  | medium
  | high
  | reserved
  | low
  deriving DecidableEq, Repr

inductive Value where
  | flag (on : Bool)
  | number (value : Nat)
  | infinity
  | preference (preference : Preference)
  | text (octets : Bytes)
  | timestamp (secs fracs : Nat)
  deriving DecidableEq, Repr

inductive Keyword where
  | advManagedFlag
  | advOtherConfigFlag
  | advReachableTime
  | advRetransTimer
  | advCurHopLimit
  | advDefaultLifetime
  | advHomeAgentFlag
  | advSNACRouterFlag
  | advDefaultPreference
  | advLinkMTU
  | advSourceLLAddress
  | advIntervalOpt
  | advHomeAgentInfo
  | advMobRtrSupportFlag
  | homeAgentPreference
  | homeAgentLifetime
  | advCaptivePortalAPI
  | advTimestamp
  | advValidLifetime
  | advPreferredLifetime
  | advOnLink
  | advAutonomous
  | advRouterAddr
  | advDHCPv6PDPreferred
  | advRoutePreference
  | advRouteLifetime
  | advRDNSSLifetime
  | advDNSSLLifetime
  deriving DecidableEq, Repr

inductive Definition where
  | interface
  | prefixInfo (addr : In6Addr) (len : Nat)
  | route (addr : In6Addr) (len : Nat)
  | rdnss (addrs : List In6Addr)
  | dnssl (suffixes : List Bytes)
  | nat64Prefix (addr : In6Addr) (size : Int)
  deriving DecidableEq, Repr

inductive Log where
  | trailingGarbage
  | zeroLength
  | overlong
  | invalidOption (type : UInt8)
  | unknownOption (type : UInt8)
  | invalidRouteLength (len : UInt8)
  | invalidRdnssLength (len : UInt8)
  | oversizedSuffix
  | incorrectPref64Length
  | reservedLengthCode (code : Nat)
  deriving DecidableEq, Repr

inductive Statement where
  | opens (definition : Definition)
  | setting (keyword : Keyword) (value : Value)
  | closes
  /-- The comments printed in place of an option of a wrong length. -/
  | invalidRouteLength (len : UInt8)
  | invalidRdnssLength (len : UInt8)
  | log (message : Log)
  deriving DecidableEq, Repr

/-! ## Printing values -/

def backslash : UInt8 := 92

def doubleQuote : UInt8 := 34

/-- `isprint`, in the locale of a program that sets none. -/
def isprint (octet : UInt8) : Bool :=
  0x20 ≤ octet && octet ≤ 0x7e

def hexDigit (value : Nat) : UInt8 :=
  UInt8.ofNat (if value < 10 then 48 + value else 87 + value)

def sanitizedOctet (octet : UInt8) : Bytes :=
  if octet = backslash || octet = doubleQuote then [backslash, octet]
  else if isprint octet then [octet]
  else [backslash, 120, hexDigit (octet.toNat / 16), hexDigit (octet.toNat % 16)]

def sanitized (octets : Bytes) : Bytes :=
  octets.flatMap sanitizedOctet

def cString (octets : Bytes) : Bytes :=
  octets.takeWhile (· ≠ 0)

def preferenceOf (octet : UInt8) : Preference :=
  match ((octet &&& 0x18) >>> 3).toNat with
  | 0 => .medium
  | 1 => .high
  | 2 => .reserved
  | _ => .low

def lifetime (value : UInt32) : Value :=
  if value = 0xffffffff then .infinity else .number value.toNat

def addrAt (mem : Memory) (offset count : Nat) : In6Addr :=
  Vector.ofFn fun index => if index.val < count then mem (offset + index.val) else 0

def printNumber (edefs : Bool) (dflt : Nat) (keyword : Keyword) (value : Nat) : List Statement :=
  if !edefs || dflt ≠ value then [.setting keyword (.number value)] else []

def printFlag (edefs dflt : Bool) (keyword : Keyword) (octet mask : UInt8) : List Statement :=
  if !edefs || dflt ≠ (mask = (octet &&& mask)) then
    [.setting keyword (.flag (octet &&& mask ≠ 0))]
  else []

def printLifetime (edefs : Bool) (dflt : UInt32) (keyword : Keyword) (value : UInt32) :
    List Statement :=
  if !edefs || dflt ≠ value then [.setting keyword (lifetime value)] else []

/-! ## The header -/

def printHeader (mem : Memory) (edefs : Bool) : List Statement :=
  printFlag edefs false .advManagedFlag (mem 5) ndRaFlagManaged ++
    printFlag edefs false .advOtherConfigFlag (mem 5) ndRaFlagOther ++
    printNumber edefs 0 .advReachableTime (mem.u32 8).toNat ++
    printNumber edefs 0 .advRetransTimer (mem.u32 12).toNat ++
    printNumber edefs 64 .advCurHopLimit (mem 4).toNat ++
    printNumber edefs 1800 .advDefaultLifetime (mem.u16 6).toNat ++
    printFlag edefs false .advHomeAgentFlag (mem 5) ndRaFlagHomeAgent ++
    printFlag edefs false .advSNACRouterFlag (mem 5) ndRaFlagSnacRouter ++
    if !edefs || preferenceOf (mem 5) ≠ .medium then
      [.setting .advDefaultPreference (.preference (preferenceOf (mem 5)))]
    else []

/-! ## Settings of the interface -/

def printHomeAgentInfo (order : ByteOrder) (mem : Memory) (edefs : Bool) (optStr : Nat) :
    List Statement :=
  let flags := order.load16 mem (optStr + 2) &&& ndOptHaiFlagSupportMr order
  [.setting .advHomeAgentInfo (.flag true)] ++
    (if !edefs || 0 ≠ flags then [.setting .advMobRtrSupportFlag (.flag (flags ≠ 0))] else []) ++
    printNumber edefs 0 .homeAgentPreference (mem.u16 (optStr + 4)).toNat ++
    printNumber edefs 1800 .homeAgentLifetime (mem.u16 (optStr + 6)).toNat

def printCaptivePortal (mem : Memory) (visit : Visit) : List Statement :=
  [.setting .advCaptivePortalAPI
    (.text (sanitized (cString (mem.slice (visit.offset + 2) (visit.optlen - 2)))))]

def printTimestamp (mem : Memory) (optStr : Nat) : List Statement :=
  [.setting .advTimestamp (.timestamp
    ((mem.u16 (optStr + 8)).toNat * 2 ^ 32 + (mem.u32 (optStr + 10)).toNat)
    (mem.u16 (optStr + 14)).toNat)]

/-- The `switch` of the first walk. -/
def printOption (order : ByteOrder) (mem : Memory) (edefs : Bool) (visit : Visit) :
    List Statement :=
  let type := mem visit.offset
  if type = ndOptMtu then printNumber edefs 0 .advLinkMTU (mem.u32 (visit.offset + 4)).toNat
  else if type = ndOptSourceLinkaddr then
    if !edefs || !true then [.setting .advSourceLLAddress (.flag true)] else []
  else if type = ndOptRtrAdvInterval then
    if !edefs || !false then [.setting .advIntervalOpt (.flag true)] else []
  else if type = ndOptHomeAgentInfo then printHomeAgentInfo order mem edefs visit.offset
  else if type = ndOptCaptivePortal then printCaptivePortal mem visit
  else if type = ndOptTimestamp then printTimestamp mem visit.offset
  else if type = ndOptTargetLinkaddr || type = ndOptRedirectedHeader then
    [.log (.invalidOption type)]
  else if type = ndOptPrefixInformation || type = ndOptRouteInformation ||
      type = ndOptRdnssInformation || type = ndOptDnsslInformation || type = ndOptPref64 then []
  else [.log (.unknownOption type)]

/-! ## Blocks -/

def printPrefix (mem : Memory) (edefs : Bool) (optStr : Nat) : List Statement :=
  let flags := mem (optStr + 3)
  [.opens (.prefixInfo (addrAt mem (optStr + 16) 16) (mem (optStr + 2)).toNat)] ++
    printLifetime edefs 86400 .advValidLifetime (mem.u32 (optStr + 4)) ++
    printLifetime edefs 14400 .advPreferredLifetime (mem.u32 (optStr + 8)) ++
    printFlag edefs true .advOnLink flags ndOptPiFlagOnlink ++
    printFlag edefs true .advAutonomous flags ndOptPiFlagAuto ++
    printFlag edefs false .advRouterAddr flags ndOptPiFlagRaddr ++
    printFlag edefs false .advDHCPv6PDPreferred flags ndOptPiFlagDhcpv6PdPref ++ [.closes]

/-- The settings of a route. With `edefs` the preference is left out if that of
the header has its default. -/
def printRouteSettings (mem : Memory) (edefs : Bool) (optStr : Nat) : List Statement :=
  (if !edefs || preferenceOf (mem 5) ≠ .medium then
      [.setting .advRoutePreference (.preference (preferenceOf (mem (optStr + 3))))]
    else []) ++
    [.setting .advRouteLifetime (lifetime (mem.u32 (optStr + 4))), .closes]

/-- A route of eight octets is printed as the default route whatever its prefix
length says. -/
def printRoute (mem : Memory) (edefs : Bool) (visit : Visit) : List Statement :=
  let riLen := mem (visit.offset + 1)
  let riPrefixLen := mem (visit.offset + 2)
  if visit.optlen = 8 then
    .opens (.route In6Addr.unspecified 0) :: printRouteSettings mem edefs visit.offset
  else if riLen > 3 || riLen = 0 || (riPrefixLen > 64 && riLen < 3) ||
      (riPrefixLen > 0 && riLen < 1) then
    [.log (.invalidRouteLength riLen), .invalidRouteLength riLen]
  else
    .opens (.route (addrAt mem (visit.offset + 8)
        (if riLen > 1 then (riLen.toNat - 1) * 8 else 0)) riPrefixLen.toNat) ::
      printRouteSettings mem edefs visit.offset

def printRdnss (mem : Memory) (optStr : Nat) : List Statement :=
  let rdnssiLen := mem (optStr + 1)
  if rdnssiLen ≥ 3 && rdnssiLen % 2 = 1 then
    [.opens (.rdnss ((List.range ((rdnssiLen.toNat - 1) / 2)).map fun i =>
        addrAt mem (optStr + 8 + 16 * i) 16)),
      .setting .advRDNSSLifetime (lifetime (mem.u32 (optStr + 4))), .closes]
  else [.log (.invalidRdnssLength rdnssiLen), .invalidRdnssLength rdnssiLen]

/-- The loop over the suffixes: the suffixes that are printed, and whether the
loop ends at one that does not fit in the 256 octets of `suffix`. -/
def dnsslLoop (mem : Memory) (suffixes limit offset : Nat) (suffix : Bytes) : List Bytes × Bool :=
  if offset < limit then
    let labelLen := (mem (suffixes + offset)).toNat
    if labelLen = 0 then
      if suffix = [] then dnsslLoop mem suffixes limit (offset + 1) []
      else
        let rest := dnsslLoop mem suffixes limit (offset + 1) []
        (sanitized suffix :: rest.1, rest.2)
    else if 256 - suffix.length < labelLen + 2 then ([], true)
    else
      let label := cString (mem.slice (suffixes + (offset + 1)) labelLen)
      dnsslLoop mem suffixes limit (offset + 1 + labelLen)
        (if suffix ≠ [] then suffix ++ 46 :: label else label)
  else ([], false)
termination_by limit - offset

def dnsslSuffixes (mem : Memory) (optStr : Nat) : List Bytes × Bool :=
  dnsslLoop mem (optStr + 8) (((mem (optStr + 1)).toNat - 1) * 8) 0 []

def printDnssl (mem : Memory) (optStr : Nat) : List Statement :=
  let (suffixes, oversized) := dnsslSuffixes mem optStr
  (if oversized then [.log .oversizedSuffix] else []) ++
    [.opens (.dnssl suffixes), .setting .advDNSSLLifetime (lifetime (mem.u32 (optStr + 4))),
      .closes]

def prefixSize (prefixLengthCode : Nat) : Int :=
  match prefixLengthCode with
  | 0 => 96
  | 1 => 64
  | 2 => 56
  | 3 => 48
  | 4 => 40
  | 5 => 32
  | _ => -1

def printPref64 (mem : Memory) (visit : Visit) : List Statement :=
  if visit.optlen ≠ 16 then [.log .incorrectPref64Length]
  else
    let lifetimePreflen := mem.u16 (visit.offset + 2)
    let prefixLengthCode := (lifetimePreflen &&& 7).toNat
    let prefixLifetime := (lifetimePreflen &&& 0xFFF8).toNat
    (if prefixLengthCode > 5 then [.log (.reservedLengthCode prefixLengthCode)] else []) ++
      [.opens (.nat64Prefix (addrAt mem (visit.offset + 4) 12) (prefixSize prefixLengthCode)),
        .setting .advValidLifetime (.number prefixLifetime), .closes]

/-- The `switch` of the second walk. -/
def printBlock (mem : Memory) (edefs : Bool) (visit : Visit) : List Statement :=
  let type := mem visit.offset
  if type = ndOptPrefixInformation then printPrefix mem edefs visit.offset
  else if type = ndOptRouteInformation then printRoute mem edefs visit
  else if type = ndOptRdnssInformation then printRdnss mem visit.offset
  else if type = ndOptDnsslInformation then printDnssl mem visit.offset
  else if type = ndOptPref64 then printPref64 mem visit
  else []

/-! ## The function -/

def logEnd : End → List Statement
  | .trailingGarbage => [.log .trailingGarbage]
  | .zeroLength => [.log .zeroLength]
  | .overlong => [.log .overlong]
  | .finished | .returned => []

/-- `print_ff`. A message without options is not closed; an option that is too
long for the message ends the first walk and leaves out the second. -/
def printFf (order : ByteOrder) (mem : Memory) (len : Nat) (edefs : Bool) : List Statement :=
  [.opens .interface] ++ printHeader mem edefs ++
    if len = 16 then []
    else
      let walked := printFfWalk mem len
      walked.1.flatMap (printOption order mem edefs) ++ logEnd walked.2 ++
        (if walked.2 = .overlong then []
          else walked.1.flatMap (printBlock mem edefs) ++ logEnd walked.2) ++
        [.closes]

end Radvd.Dump
