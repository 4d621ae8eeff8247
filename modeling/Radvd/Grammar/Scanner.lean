import Radvd.Library.Flex
import Radvd.Grammar.Tokens

/-!
# The rules of `scanner.l`

The definitions and rules of the scanner, in their order and without regard to case
(`%option caseless`). A comment is only one where a newline ends it, as `$` is a
newline that follows.

The texts of `inet_pton` are those without dots; no other ones match a rule for
addresses. The mark of a wide string is taken as an upper-case `L`.
-/

namespace Radvd.Grammar

open Wire Dump

/-! ## Tokens -/

/-- The tokens of the keywords. -/
inductive Word where
  | tInterface
  | tPrefix
  | tRoute
  | tRdnss
  | tDnssl
  | tClients
  | tLowpanco
  | tAbro
  | tNat64Prefix
  | tAutoignorePrefix
  | tRasrcaddress
  | tIgnoreIfMissing
  | tAdvSendAdvert
  | tMaxRtrAdvInterval
  | tMinRtrAdvInterval
  | tAdvManagedFlag
  | tAdvOtherConfigFlag
  | tAdvLinkMTU
  | tAdvRAMTU
  | tAdvReachableTime
  | tAdvRetransTimer
  | tAdvCurHopLimit
  | tAdvDefaultLifetime
  | tAdvDefaultPreference
  | tAdvSourceLLAddress
  | tRemoveAdvOnExit
  | tAdvOnLink
  | tAdvAutonomous
  | tAdvDHCPv6PDPreferred
  | tAdvValidLifetime
  | tAdvPreferredLifetime
  | tDeprecatePrefix
  | tDecrementLifetimes
  | tAdvRouterAddr
  | tAdvHomeAgentFlag
  | tAdvIntervalOpt
  | tAdvHomeAgentInfo
  | tUnicastOnly
  | tUnrestrictedUnicast
  | tAdvRASolicitedUnicast
  | tAdvCaptivePortalAPI
  | tAdvSNACRouterFlag
  | tBase6Interface
  | tBase6to4Interface
  | tHomeAgentPreference
  | tHomeAgentLifetime
  | tAdvRoutePreference
  | tAdvRouteLifetime
  | tRemoveRoute
  | tAdvRDNSSPreference
  | tAdvRDNSSOpenFlag
  | tAdvRDNSSLifetime
  | tFlushRDNSS
  | tAdvDNSSLLifetime
  | tFlushDNSSL
  | tMinDelayBetweenRAs
  | tAdvMobRtrSupportFlag
  | tAdvContextLength
  | tAdvContextCompressionFlag
  | tAdvContextID
  | tAdvLifeTime
  | tAdvContextPrefix
  | tAdvVersionLow
  | tAdvVersionHigh
  | tAdv6LBRaddress
  deriving DecidableEq, Repr

namespace Word

/-- The keywords in the order of their rules. -/
def all : List Word :=
  [.tInterface, .tPrefix, .tRoute, .tRdnss, .tDnssl, .tClients, .tLowpanco, .tAbro,
    .tNat64Prefix, .tAutoignorePrefix, .tRasrcaddress, .tIgnoreIfMissing, .tAdvSendAdvert,
    .tMaxRtrAdvInterval, .tMinRtrAdvInterval, .tAdvManagedFlag, .tAdvOtherConfigFlag,
    .tAdvLinkMTU, .tAdvRAMTU, .tAdvReachableTime, .tAdvRetransTimer, .tAdvCurHopLimit,
    .tAdvDefaultLifetime, .tAdvDefaultPreference, .tAdvSourceLLAddress, .tRemoveAdvOnExit,
    .tAdvOnLink, .tAdvAutonomous, .tAdvDHCPv6PDPreferred, .tAdvValidLifetime,
    .tAdvPreferredLifetime, .tDeprecatePrefix, .tDecrementLifetimes, .tAdvRouterAddr,
    .tAdvHomeAgentFlag, .tAdvIntervalOpt, .tAdvHomeAgentInfo, .tUnicastOnly,
    .tUnrestrictedUnicast, .tAdvRASolicitedUnicast, .tAdvCaptivePortalAPI, .tAdvSNACRouterFlag,
    .tBase6Interface, .tBase6to4Interface, .tHomeAgentPreference, .tHomeAgentLifetime,
    .tAdvRoutePreference, .tAdvRouteLifetime, .tRemoveRoute, .tAdvRDNSSPreference,
    .tAdvRDNSSOpenFlag, .tAdvRDNSSLifetime, .tFlushRDNSS, .tAdvDNSSLLifetime, .tFlushDNSSL,
    .tMinDelayBetweenRAs, .tAdvMobRtrSupportFlag, .tAdvContextLength, .tAdvContextCompressionFlag,
    .tAdvContextID, .tAdvLifeTime, .tAdvContextPrefix, .tAdvVersionLow, .tAdvVersionHigh,
    .tAdv6LBRaddress]

def text : Word → String
  | .tInterface => "interface"
  | .tPrefix => "prefix"
  | .tRoute => "route"
  | .tRdnss => "RDNSS"
  | .tDnssl => "DNSSL"
  | .tClients => "clients"
  | .tLowpanco => "lowpanco"
  | .tAbro => "abro"
  | .tNat64Prefix => "nat64prefix"
  | .tAutoignorePrefix => "autoignoreprefixes"
  | .tRasrcaddress => "AdvRASrcAddress"
  | .tIgnoreIfMissing => "IgnoreIfMissing"
  | .tAdvSendAdvert => "AdvSendAdvert"
  | .tMaxRtrAdvInterval => "MaxRtrAdvInterval"
  | .tMinRtrAdvInterval => "MinRtrAdvInterval"
  | .tAdvManagedFlag => "AdvManagedFlag"
  | .tAdvOtherConfigFlag => "AdvOtherConfigFlag"
  | .tAdvLinkMTU => "AdvLinkMTU"
  | .tAdvRAMTU => "AdvRAMTU"
  | .tAdvReachableTime => "AdvReachableTime"
  | .tAdvRetransTimer => "AdvRetransTimer"
  | .tAdvCurHopLimit => "AdvCurHopLimit"
  | .tAdvDefaultLifetime => "AdvDefaultLifetime"
  | .tAdvDefaultPreference => "AdvDefaultPreference"
  | .tAdvSourceLLAddress => "AdvSourceLLAddress"
  | .tRemoveAdvOnExit => "RemoveAdvOnExit"
  | .tAdvOnLink => "AdvOnLink"
  | .tAdvAutonomous => "AdvAutonomous"
  | .tAdvDHCPv6PDPreferred => "AdvDHCPv6PDPreferred"
  | .tAdvValidLifetime => "AdvValidLifetime"
  | .tAdvPreferredLifetime => "AdvPreferredLifetime"
  | .tDeprecatePrefix => "DeprecatePrefix"
  | .tDecrementLifetimes => "DecrementLifetimes"
  | .tAdvRouterAddr => "AdvRouterAddr"
  | .tAdvHomeAgentFlag => "AdvHomeAgentFlag"
  | .tAdvIntervalOpt => "AdvIntervalOpt"
  | .tAdvHomeAgentInfo => "AdvHomeAgentInfo"
  | .tUnicastOnly => "UnicastOnly"
  | .tUnrestrictedUnicast => "UnrestrictedUnicast"
  | .tAdvRASolicitedUnicast => "AdvRASolicitedUnicast"
  | .tAdvCaptivePortalAPI => "AdvCaptivePortalAPI"
  | .tAdvSNACRouterFlag => "AdvSNACRouterFlag"
  | .tBase6Interface => "Base6Interface"
  | .tBase6to4Interface => "Base6to4Interface"
  | .tHomeAgentPreference => "HomeAgentPreference"
  | .tHomeAgentLifetime => "HomeAgentLifetime"
  | .tAdvRoutePreference => "AdvRoutePreference"
  | .tAdvRouteLifetime => "AdvRouteLifetime"
  | .tRemoveRoute => "RemoveRoute"
  | .tAdvRDNSSPreference => "AdvRDNSSPreference"
  | .tAdvRDNSSOpenFlag => "AdvRDNSSOpen"
  | .tAdvRDNSSLifetime => "AdvRDNSSLifetime"
  | .tFlushRDNSS => "FlushRDNSS"
  | .tAdvDNSSLLifetime => "AdvDNSSLLifetime"
  | .tFlushDNSSL => "FlushDNSSL"
  | .tMinDelayBetweenRAs => "MinDelayBetweenRAs"
  | .tAdvMobRtrSupportFlag => "AdvMobRtrSupportFlag"
  | .tAdvContextLength => "AdvContextLength"
  | .tAdvContextCompressionFlag => "AdvContextCompressionFlag"
  | .tAdvContextID => "AdvContextID"
  | .tAdvLifeTime => "AdvLifeTime"
  | .tAdvContextPrefix => "AdvContextPrefix"
  | .tAdvVersionLow => "AdvVersionLow"
  | .tAdvVersionHigh => "AdvVersionHigh"
  | .tAdv6LBRaddress => "Adv6LBRaddress"

theorem mem_all (keyword : Word) : keyword ∈ all := by
  cases keyword <;> decide

end Word

/-- A token with its value. -/
inductive Token where
  | word (keyword : Word)
  | str (text : StringText)
  | num (text : NumberText)
  | snum (text : SignedText)
  | dec (whole fraction : NumberText)
  | switch (value : Bool)
  | addr (addr : In6Addr)
  | notAddr (addr : In6Addr)
  | infinity
  | opening
  | closing
  | semicolon
  | slash
  | bad
  deriving DecidableEq, Repr

/-! ## Definitions -/

def colon : UInt8 := 58

def minusSign : UInt8 := 45

def exclamation : UInt8 := 33

section

open RegularExpression hiding plus
open Flex

def toLower (octet : UInt8) : UInt8 :=
  if 65 ≤ octet && octet ≤ 90 then octet + 32 else octet

def toUpper (octet : UInt8) : UInt8 :=
  if 97 ≤ octet && octet ≤ 122 then octet - 32 else octet

/-- A text without regard to case. -/
def caseless (text : Bytes) : RegularExpression UInt8 :=
  (text.map fun octet => oneOf [toLower octet, toUpper octet]).foldr (· * ·) 1

def octetsWith (property : UInt8 → Bool) : RegularExpression UInt8 :=
  oneOf (((List.range 256).map UInt8.ofNat).filter property)

def digit : RegularExpression UInt8 :=
  oneOf (ascii "0123456789")

def number : RegularExpression UInt8 :=
  plus digit

def snum : RegularExpression UInt8 :=
  (1 + char minusSign) * plus digit

def decimalNumber : RegularExpression UInt8 :=
  number * char dot * number

def hexdigit : RegularExpression UInt8 :=
  oneOf (ascii "abcdefABCDEF0123456789")

/-- One to four digits. -/
def hexdigits : RegularExpression UInt8 :=
  hexdigit ^ 1 + hexdigit ^ 2 + hexdigit ^ 3 + hexdigit ^ 4

def addr1 : RegularExpression UInt8 :=
  hexdigits * char colon * (hexdigits * char colon).star * plus (char colon * hexdigits)

def addr2 : RegularExpression UInt8 :=
  hexdigits * (char colon * hexdigits).star * (char colon * char colon)

def addr3 : RegularExpression UInt8 :=
  (hexdigits * char colon) ^ 7 * hexdigits

def addr : RegularExpression UInt8 :=
  addr1 + addr2 + addr3 + char colon * char colon

def naddr : RegularExpression UInt8 :=
  char exclamation * addr

def whitespace : RegularExpression UInt8 :=
  plus (oneOf [32, 9])

/-- What a point matches. -/
def anyOctet : RegularExpression UInt8 :=
  octetsWith (· ≠ newline)

def stringWord : RegularExpression UInt8 :=
  plus (octetsWith isWordOctet)

def stringQuoted : RegularExpression UInt8 :=
  (1 + oneOf [76, 108]) * (char doubleQuote *
    ((char backslash * anyOctet + octetsWith fun octet => octet ≠ backslash && octet ≠ doubleQuote).star *
      char doubleQuote))

def string : RegularExpression UInt8 :=
  stringWord + stringQuoted

/-! ## Values -/

def digitOf (octet : UInt8) : Option (Fin 10) :=
  if small : 48 ≤ octet ∧ octet ≤ 57 then some ⟨octet.toNat - 48, by
    have := UInt8.le_iff_toNat_le.mp small.2
    simp at this
    omega⟩
  else none

def numberOf (yytext : Bytes) : Option NumberText :=
  match yytext.mapM digitOf with
  | some (first :: rest) => some ⟨first, rest⟩
  | _ => none

def hexValue (octet : UInt8) : Option Nat :=
  if 48 ≤ octet ∧ octet ≤ 57 then some (octet.toNat - 48)
  else if 97 ≤ octet ∧ octet ≤ 102 then some (octet.toNat - 87)
  else if 65 ≤ octet ∧ octet ≤ 70 then some (octet.toNat - 55)
  else none

/-- Up to four digits between the colons of an address. -/
def hexGroup (field : Bytes) : Option Nat :=
  if field = [] ∨ 4 < field.length then none
  else (field.mapM hexValue).map (·.foldl (fun value digit => 16 * value + digit) 0)

/-- The address of eight numbers of 16 bits. -/
def addrOfGroups (groups : List Nat) : In6Addr :=
  Vector.ofFn fun index =>
    let group := groups.getD (index.val / 2) 0
    UInt8.ofNat (if index.val % 2 = 0 then group / 256 else group)

/-- `inet_pton` for `AF_INET6`. The place of the two colons stands for as many zeros
as are missing, at least one. -/
def inetPton (text : Bytes) : Option In6Addr := do
  let fields := text.splitOn colon
  let before := fields.takeWhile (· ≠ [])
  match fields.dropWhile (· ≠ []) with
  | [] =>
      let groups ← before.mapM hexGroup
      if groups.length = 8 then some (addrOfGroups groups) else none
  | _ :: after =>
      -- two colons at the beginning leave two empty fields there, and so at the end
      let after ← if before = [] then (if after.head? = some [] then some after.tail else none)
        else some after
      if after = [] then none
      else
        let front ← before.mapM hexGroup
        let back ← (if after = [[]] then [] else after).mapM hexGroup
        let missing := 8 - (front.length + back.length)
        if missing = 0 then none
        else some (addrOfGroups (front ++ List.replicate missing 0 ++ back))

def markOf (yytext : Bytes) : QuoteMark :=
  if yytext.head? = some 76 then .upper
  else if yytext.head? = some 108 then .lower
  else .plain

/-- What the pattern `string` matches, as such a text. -/
def stringOf (yytext : Bytes) : Option StringText :=
  if word : yytext ≠ [] ∧ yytext.all isWordOctet = true then
    some (.word yytext word.1 (List.all_eq_true.mp word.2))
  else
    let mark := markOf yytext
    let inside := (yytext.drop mark.octets.length).tail.dropLast
    if quoted : isQuotedText inside = true then some (.quoted mark inside quoted) else none

/-! ## Rules -/

def rule (pattern : RegularExpression UInt8) (action : Bytes → Token) : Rule UInt8 Token where
  pattern := pattern
  trailing := []
  action := fun yytext => some (action yytext)

/-- A rule whose action returns nothing. -/
def silent (pattern : RegularExpression UInt8) (trailing : Bytes) : Rule UInt8 Token where
  pattern := pattern
  trailing := trailing
  action := fun _ => none

def orBad (token : Option Token) : Token :=
  token.getD .bad

def comment : Rule UInt8 Token :=
  silent (char hash * anyOctet.star) [newline]

def addrAction (yytext : Bytes) : Token :=
  orBad ((inetPton yytext).map .addr)

def naddrAction (yytext : Bytes) : Token :=
  orBad ((inetPton yytext.tail).map .notAddr)

def numberAction (yytext : Bytes) : Token :=
  orBad ((numberOf yytext).bind fun text => text.num.map fun _ => .num text)

/-- Digits without a sign match the rule before this one. -/
def snumAction (yytext : Bytes) : Token :=
  orBad ((numberOf yytext.tail).map fun digits => .snum (.minus digits))

def decimalAction (yytext : Bytes) : Token :=
  orBad do
    let whole ← numberOf (yytext.takeWhile (· ≠ dot))
    let fraction ← numberOf (yytext.dropWhile (· ≠ dot)).tail
    pure (.dec whole fraction)

def stringAction (yytext : Bytes) : Token :=
  orBad ((stringOf yytext).map .str)

def punctuation : List (UInt8 × Token) :=
  [(openingBrace, .opening), (closingBrace, .closing), (Dump.semicolon, .semicolon),
    (slash, .slash)]

def skipped : List (Rule UInt8 Token) :=
  [comment, silent (char newline) [], silent whitespace []]

def keywordRules : List (Rule UInt8 Token) :=
  Word.all.map fun keyword => rule (caseless (ascii keyword.text)) fun _ => .word keyword

def valueRules : List (Rule UInt8 Token) :=
  [rule addr addrAction, rule naddr naddrAction, rule number numberAction, rule snum snumAction,
    rule decimalNumber decimalAction]

/-- The values that have names. -/
def named : List (String × Token) :=
  [("infinity", .infinity), ("on", .switch true), ("off", .switch false), ("low", .snum .low),
    ("medium", .snum .medium), ("high", .snum .high)]

def namedRules : List (Rule UInt8 Token) :=
  named.map fun value => rule (caseless (ascii value.1)) fun _ => value.2

def punctuationRules : List (Rule UInt8 Token) :=
  punctuation.map fun mark => rule (char mark.1) fun _ => mark.2

def rules : List (Rule UInt8 Token) :=
  skipped ++ keywordRules ++ valueRules ++ namedRules ++ [rule string stringAction] ++
    punctuationRules ++ [rule anyOctet fun _ => .bad]

/-- The tokens that `yylex` returns for a file. -/
def yylex (text : Bytes) : List Token :=
  scan rules text

end

end Radvd.Grammar
