import Mathlib.Algebra.Order.Ring.Unbundled.Rat
import Radvd.Library.Wire

/-!
# Data model

The configuration and run-time data of the daemon, as `radvd.h` declares them,
and the constants of `defaults.h` that the modelled functions read.

Linked lists are lists and counted arrays are lists whose length is the count.
Switches are Booleans: the scanner only ever produces zero and one for them. A
character string is the list of its octets before the terminating NUL. The
intervals kept as `double` are exact rationals.
-/

namespace Radvd

open Wire

def dot : UInt8 := 46

/-- The places where the program gives up with `exit(1)` or `abort()`. -/
inductive Exit where
  | safeBufferResize
  | getInterfaceLinkmtu
  | checkIp6IfaceForwarding
  | checkIp6Forwarding
  | setupIfaceFoo
  | processNetlinkMsg
  deriving DecidableEq, Repr

abbrev In6Addr := Vector UInt8 16

def In6Addr.unspecified : In6Addr := Vector.replicate 16 0

/-- `IN6_IS_ADDR_LINKLOCAL`: the address lies in `fe80::/10`. -/
def In6Addr.isLinklocal (addr : In6Addr) : Bool :=
  addr[0] == 0xfe && addr[1] &&& 0xc0 == 0x80

/-- `IN6_IS_ADDR_MULTICAST` -/
def In6Addr.isMulticast (addr : In6Addr) : Bool :=
  addr[0] == 0xff

/-- `fe80::1` -/
def linkLocalAddr : In6Addr :=
  ⟨#[0xfe, 0x80, 0, 0, 0, 0, 0, 0, 0, 0, 0, 0, 0, 0, 0, 1], rfl⟩

/-- `2001:db8::1` -/
def globalAddr : In6Addr :=
  ⟨#[0x20, 0x01, 0x0d, 0xb8, 0, 0, 0, 0, 0, 0, 0, 0, 0, 0, 0, 1], rfl⟩

structure Timespec where
  tvSec : Int
  tvNsec : Int
  deriving DecidableEq, Repr

structure Clients where
  address : In6Addr
  ignored : Bool
  deriving DecidableEq, Repr

/-- `struct AdvPrefix`, its member `Prefix` being `prefixAddr`; an empty `if6to4`
or `if6` stands for an unset name. -/
structure AdvPrefix where
  prefixAddr : In6Addr
  prefixLen : UInt8
  advOnLinkFlag : Bool
  advAutonomousFlag : Bool
  advDHCPv6PDPreferredFlag : Bool
  advValidLifetime : UInt32
  advPreferredLifetime : UInt32
  deprecatePrefixFlag : Bool
  decrementLifetimesFlag : Bool
  currValidlft : UInt32
  currPreferredlft : UInt32
  advRouterAddr : Bool
  if6to4 : Bytes
  if6 : Bytes
  deriving DecidableEq, Repr

structure NAT64Prefix where
  prefixAddr : In6Addr
  prefixLen : UInt8
  advValidLifetime : UInt32
  currValidlft : UInt32
  deriving DecidableEq, Repr

structure AutogenIgnorePrefix where
  prefixAddr : In6Addr
  mask : In6Addr
  deriving DecidableEq, Repr

structure AdvRoute where
  prefixAddr : In6Addr
  prefixLen : UInt8
  advRoutePreference : Int
  advRouteLifetime : UInt32
  removeRouteFlag : Bool
  deriving DecidableEq, Repr

/-- `struct AdvRDNSS`; `AdvRDNSSNumber` is the length of the address list. -/
structure AdvRDNSS where
  advRDNSSLifetime : UInt32
  flushRDNSSFlag : Bool
  advRDNSSAddr : List In6Addr
  deriving DecidableEq, Repr

structure AdvDNSSL where
  advDNSSLLifetime : UInt32
  flushDNSSLFlag : Bool
  advDNSSLSuffixes : List Bytes
  deriving DecidableEq, Repr

structure AdvLowpanCo where
  contextLength : UInt8
  contextCompressionFlag : Bool
  advContextID : UInt8
  advLifeTime : UInt16
  advContextPrefix : In6Addr
  deriving DecidableEq, Repr

/-- `struct AdvAbro`; `Version[0]` is the high and `Version[1]` the low part. -/
structure AdvAbro where
  versionHigh : UInt16
  versionLow : UInt16
  validLifeTime : UInt16
  lbrAddress : In6Addr
  deriving DecidableEq, Repr

structure StateInfo where
  ready : Bool
  changed : Bool
  ceaseAdv : Bool
  racount : Nat
  deriving DecidableEq, Repr

/-- Where the pointer `if_addr_rasrc` leads: to `if_addr` or into `if_addrs`. -/
inductive RaSrc where
  | ifAddr
  | ifAddrs (index : Nat)
  deriving DecidableEq, Repr

/-- `struct properties`; the count of addresses is kept apart from the array
because the source updates them at different moments. -/
structure Properties where
  name : Bytes
  ifIndex : Nat
  ifAddr : In6Addr
  ifAddrs : List In6Addr
  addrsCount : Nat
  ifAddrRasrc : Option RaSrc
  maxRaOptionSize : UInt32
  deriving DecidableEq, Repr

structure RaHeaderInfo where
  advManagedFlag : Bool
  advOtherConfigFlag : Bool
  advCurHopLimit : UInt8
  advHomeAgentFlag : Bool
  advSNACRouterFlag : Bool
  advDefaultLifetime : Int
  advDefaultPreference : Int
  advReachableTime : UInt32
  advRetransTimer : UInt32
  deriving DecidableEq, Repr

structure Times where
  lastMulticast : Timespec
  nextMulticast : Timespec
  lastRaTime : Timespec
  deriving DecidableEq, Repr

/-- `struct sllao`; `ifHwaddrLen` is in bits. -/
structure Sllao where
  ifHwaddr : Vector UInt8 16
  ifHwaddrLen : Int
  ifPrefixLen : Int
  ifMaxmtu : Int
  deriving DecidableEq, Repr

structure Mipv6 where
  advIntervalOpt : Bool
  advHomeAgentInfo : Bool
  homeAgentPreference : UInt16
  homeAgentLifetime : Int
  advMobRtrSupportFlag : Bool
  deriving DecidableEq, Repr

structure Interface where
  ignoreIfMissing : Bool
  advSendAdvert : Bool
  maxRtrAdvInterval : ℚ
  minRtrAdvInterval : ℚ
  minDelayBetweenRAs : ℚ
  advSourceLLAddress : Bool
  removeAdvOnExit : Bool
  unicastOnly : Bool
  unrestrictedUnicast : Bool
  advRASolicitedUnicast : Bool
  advCaptivePortalAPI : Option Bytes
  clientList : List Clients
  stateInfo : StateInfo
  props : Properties
  raHeaderInfo : RaHeaderInfo
  times : Times
  advPrefixList : List AdvPrefix
  advRouteList : List AdvRoute
  advRDNSSList : List AdvRDNSS
  advDNSSLList : List AdvDNSSL
  nat64PrefixList : List NAT64Prefix
  ignorePrefixList : List AutogenIgnorePrefix
  advLinkMTU : UInt32
  advRAMTU : UInt32
  sllao : Sllao
  mipv6 : Mipv6
  advLowpanCoList : List AdvLowpanCo
  advAbroList : List AdvAbro
  advRASrcAddressList : List In6Addr
  deriving DecidableEq, Repr

/-- The byte order of the machine. -/
inductive ByteOrder where
  | bigEndian
  | littleEndian
  deriving DecidableEq, Repr

def ByteOrder.store16 (order : ByteOrder) (value : UInt16) : Bytes :=
  match order with
  | .bigEndian => be16 value
  | .littleEndian => (be16 value).reverse

def ByteOrder.load16 (order : ByteOrder) (mem : Memory) (offset : Nat) : UInt16 :=
  match order with
  | .bigEndian => UInt16.ofNat ((mem offset).toNat * 2 ^ 8 + (mem (offset + 1)).toNat)
  | .littleEndian => UInt16.ofNat ((mem (offset + 1)).toNat * 2 ^ 8 + (mem offset).toNat)

/-! ## Codes of Neighbor Discovery -/

def ndRouterAdvert : UInt8 := 134

def ndOptSourceLinkaddr : UInt8 := 1

def ndOptTargetLinkaddr : UInt8 := 2

def ndOptPrefixInformation : UInt8 := 3

def ndOptRedirectedHeader : UInt8 := 4

def ndOptMtu : UInt8 := 5

def ndOptRtrAdvInterval : UInt8 := 7

def ndOptHomeAgentInfo : UInt8 := 8

def ndOptTimestamp : UInt8 := 13

def ndOptRouteInformation : UInt8 := 24

def ndOptRdnssInformation : UInt8 := 25

def ndOptDnsslInformation : UInt8 := 31

def ndOpt6co : UInt8 := 34

def ndOptAbro : UInt8 := 35

def ndOptCaptivePortal : UInt8 := 37

def ndOptPref64 : UInt8 := 38

def ndRaFlagManaged : UInt8 := 0x80

def ndRaFlagOther : UInt8 := 0x40

def ndRaFlagHomeAgent : UInt8 := 0x20

def ndRaFlagSnacRouter : UInt8 := 0x02

/-- `ND_OPT_RI_PRF_MASK`: the two middle bits, at shift `ND_OPT_RI_PRF_SHIFT`. -/
def ndOptRiPrfMask : UInt8 := 0x18

def ndOptPiFlagOnlink : UInt8 := 0x80

def ndOptPiFlagAuto : UInt8 := 0x40

def ndOptPiFlagRaddr : UInt8 := 0x20

def ndOptPiFlagDhcpv6PdPref : UInt8 := 0x10

/-- `ND_OPT_HAI_FLAG_SUPPORT_MR`, defined in the machine's own byte order. -/
def ndOptHaiFlagSupportMr : ByteOrder → UInt16
  | .bigEndian => 0x8000
  | .littleEndian => 0x0080

/-! ## Constants of `defaults.h` -/

def minAdvValidLifetime : UInt32 := 7200

def maxInitialRtrAdvertInterval : ℚ := 16

def maxInitialRtrAdvertisements : Nat := 3

def cautiousMaxRtrAdvInterval : ℚ := 2 / 10

def cautiousMaxRtrAdvIntervalLeeway : ℚ := 2 / 100

end Radvd
