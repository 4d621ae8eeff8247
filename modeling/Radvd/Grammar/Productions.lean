import Radvd.Grammar.Actions
import Radvd.Grammar.Scanner
import Radvd.Library.Predictive

/-!
# The productions of `gram.y`

The tokens that the trees of `Radvd.Grammar.Actions` are derived from. A statement is
a keyword, its value and a semicolon; a definition has its statements between braces.
Only the definitions of prefixes go without braces if they have no statements.
-/

namespace Radvd.Grammar

open Predictive

/-! ## Statements -/

/-- The statements of a kind of block, and how one is read from its tokens. -/
structure Parms (α : Type) where
  keyword : α → Word
  value : α → Token
  read : Word → Token → Option α
  read_eq_some_iff : ∀ {word : Word} {token : Token} {parm : α},
    read word token = some parm ↔ keyword parm = word ∧ value parm = token
  value_ne_bad : ∀ parm, value parm ≠ .bad

namespace Parms

variable {α : Type}

def tokens (parms : Parms α) (parm : α) : List Token :=
  [.word (parms.keyword parm), parms.value parm, .semicolon]

/-- The statements, with what ends the block. -/
def closed (parms : Parms α) (statements : List α) : List Token :=
  statements.flatMap parms.tokens ++ [.closing, .semicolon]

/-- A block that is left out if it is empty. -/
def Optional (parms : Parms α) (statements : List α) (part : List Token) : Prop :=
  part = .opening :: parms.closed statements ∨ statements = [] ∧ part = [.semicolon]

end Parms

def NumberOrInfinity.token : NumberOrInfinity → Token
  | .number text => .num text
  | .infinity => .infinity

def DecimalText.token : DecimalText → Token
  | .number text => .num text
  | .decimal whole fraction => .dec whole fraction

@[simp]
theorem NumberOrInfinity.token_ne_bad (value : NumberOrInfinity) : value.token ≠ .bad := by
  cases value <;> simp [token]

@[simp]
theorem DecimalText.token_ne_bad (value : DecimalText) : value.token ≠ .bad := by
  cases value <;> simp [token]

def numberOrInfinity : Token → Option NumberOrInfinity
  | .num text => some (.number text)
  | .infinity => some .infinity
  | _ => none

def switch : Token → Option Bool
  | .switch value => some value
  | _ => none

def numberToken : Token → Option NumberText
  | .num text => some text
  | _ => none

def snumToken : Token → Option SignedText
  | .snum text => some text
  | _ => none

def strToken : Token → Option StringText
  | .str text => some text
  | _ => none

def decimalToken : Token → Option DecimalText
  | .num text => some (.number text)
  | .dec whole fraction => some (.decimal whole fraction)
  | _ => none

@[simp]
theorem switch_eq_some_iff {token : Token} {value : Bool} :
    switch token = some value ↔ .switch value = token := by
  cases token <;> simp [switch, eq_comm]

@[simp]
theorem numberToken_eq_some_iff {token : Token} {text : NumberText} :
    numberToken token = some text ↔ .num text = token := by
  cases token <;> simp [numberToken, eq_comm]

@[simp]
theorem snumToken_eq_some_iff {token : Token} {text : SignedText} :
    snumToken token = some text ↔ .snum text = token := by
  cases token <;> simp [snumToken, eq_comm]

@[simp]
theorem strToken_eq_some_iff {token : Token} {text : StringText} :
    strToken token = some text ↔ .str text = token := by
  cases token <;> simp [strToken, eq_comm]

@[simp]
theorem numberOrInfinity_eq_some_iff {token : Token} {value : NumberOrInfinity} :
    numberOrInfinity token = some value ↔ value.token = token := by
  cases token <;> cases value <;> simp [numberOrInfinity, NumberOrInfinity.token, eq_comm]

@[simp]
theorem decimalToken_eq_some_iff {token : Token} {value : DecimalText} :
    decimalToken token = some value ↔ value.token = token := by
  cases token <;> cases value <;> simp [decimalToken, DecimalText.token, eq_comm]

/-! ### `prefixparms` -/

namespace PrefixParm

def keyword : PrefixParm → Word
  | .advOnLink _ => .tAdvOnLink
  | .advAutonomous _ => .tAdvAutonomous
  | .advRouterAddr _ => .tAdvRouterAddr
  | .advDHCPv6PDPreferred _ => .tAdvDHCPv6PDPreferred
  | .advValidLifetime _ => .tAdvValidLifetime
  | .advPreferredLifetime _ => .tAdvPreferredLifetime
  | .deprecatePrefix _ => .tDeprecatePrefix
  | .decrementLifetimes _ => .tDecrementLifetimes
  | .base6Interface _ => .tBase6Interface
  | .base6to4Interface _ => .tBase6to4Interface

def value : PrefixParm → Token
  | .advOnLink value | .advAutonomous value | .advRouterAddr value
  | .advDHCPv6PDPreferred value | .deprecatePrefix value | .decrementLifetimes value => .switch value
  | .advValidLifetime value | .advPreferredLifetime value => value.token
  | .base6Interface value | .base6to4Interface value => .str value

def read : Word → Token → Option PrefixParm
  | .tAdvOnLink, token => (switch token).map .advOnLink
  | .tAdvAutonomous, token => (switch token).map .advAutonomous
  | .tAdvRouterAddr, token => (switch token).map .advRouterAddr
  | .tAdvDHCPv6PDPreferred, token => (switch token).map .advDHCPv6PDPreferred
  | .tAdvValidLifetime, token => (numberOrInfinity token).map .advValidLifetime
  | .tAdvPreferredLifetime, token => (numberOrInfinity token).map .advPreferredLifetime
  | .tDeprecatePrefix, token => (switch token).map .deprecatePrefix
  | .tDecrementLifetimes, token => (switch token).map .decrementLifetimes
  | .tBase6Interface, token => (strToken token).map .base6Interface
  | .tBase6to4Interface, token => (strToken token).map .base6to4Interface
  | _, _ => none

def parms : Parms PrefixParm where
  keyword := keyword
  value := value
  read := read
  read_eq_some_iff := by
    intro word token parm
    constructor
    · intro found
      unfold read at found
      split at found
      all_goals
        simp only [Option.map_eq_some_iff, reduceCtorEq, switch_eq_some_iff,
          numberOrInfinity_eq_some_iff, strToken_eq_some_iff] at found
      all_goals
        rcases found with ⟨value, same, rfl⟩
        exact ⟨rfl, same⟩
    · rintro ⟨rfl, rfl⟩
      cases parm <;> simp [keyword, value, read]
  value_ne_bad := by
    intro parm
    cases parm <;> simp [value]

end PrefixParm

/-! ### `routeparms` -/

namespace RouteParm

def keyword : RouteParm → Word
  | .advRoutePreference _ => .tAdvRoutePreference
  | .advRouteLifetime _ => .tAdvRouteLifetime
  | .removeRoute _ => .tRemoveRoute

def value : RouteParm → Token
  | .advRoutePreference value => .snum value
  | .advRouteLifetime value => value.token
  | .removeRoute value => .switch value

def read : Word → Token → Option RouteParm
  | .tAdvRoutePreference, token => (snumToken token).map .advRoutePreference
  | .tAdvRouteLifetime, token => (numberOrInfinity token).map .advRouteLifetime
  | .tRemoveRoute, token => (switch token).map .removeRoute
  | _, _ => none

def parms : Parms RouteParm where
  keyword := keyword
  value := value
  read := read
  read_eq_some_iff := by
    intro word token parm
    constructor
    · intro found
      unfold read at found
      split at found
      all_goals
        simp only [Option.map_eq_some_iff, reduceCtorEq, snumToken_eq_some_iff,
          numberOrInfinity_eq_some_iff, switch_eq_some_iff] at found
      all_goals
        rcases found with ⟨value, same, rfl⟩
        exact ⟨rfl, same⟩
    · rintro ⟨rfl, rfl⟩
      cases parm <;> simp [keyword, value, read]
  value_ne_bad := by
    intro parm
    cases parm <;> simp [value]

end RouteParm

/-! ### `rdnssparms` -/

namespace RdnssParm

def keyword : RdnssParm → Word
  | .advRDNSSPreference _ => .tAdvRDNSSPreference
  | .advRDNSSOpenFlag _ => .tAdvRDNSSOpenFlag
  | .advRDNSSLifetime _ => .tAdvRDNSSLifetime
  | .flushRDNSS _ => .tFlushRDNSS

def value : RdnssParm → Token
  | .advRDNSSPreference value => .num value
  | .advRDNSSOpenFlag value | .flushRDNSS value => .switch value
  | .advRDNSSLifetime value => value.token

def read : Word → Token → Option RdnssParm
  | .tAdvRDNSSPreference, token => (numberToken token).map .advRDNSSPreference
  | .tAdvRDNSSOpenFlag, token => (switch token).map .advRDNSSOpenFlag
  | .tAdvRDNSSLifetime, token => (numberOrInfinity token).map .advRDNSSLifetime
  | .tFlushRDNSS, token => (switch token).map .flushRDNSS
  | _, _ => none

def parms : Parms RdnssParm where
  keyword := keyword
  value := value
  read := read
  read_eq_some_iff := by
    intro word token parm
    constructor
    · intro found
      unfold read at found
      split at found
      all_goals
        simp only [Option.map_eq_some_iff, reduceCtorEq, numberToken_eq_some_iff,
          switch_eq_some_iff, numberOrInfinity_eq_some_iff] at found
      all_goals
        rcases found with ⟨value, same, rfl⟩
        exact ⟨rfl, same⟩
    · rintro ⟨rfl, rfl⟩
      cases parm <;> simp [keyword, value, read]
  value_ne_bad := by
    intro parm
    cases parm <;> simp [value]

end RdnssParm

/-! ### `dnsslparms` -/

namespace DnsslParm

def keyword : DnsslParm → Word
  | .advDNSSLLifetime _ => .tAdvDNSSLLifetime
  | .flushDNSSL _ => .tFlushDNSSL

def value : DnsslParm → Token
  | .advDNSSLLifetime value => value.token
  | .flushDNSSL value => .switch value

def read : Word → Token → Option DnsslParm
  | .tAdvDNSSLLifetime, token => (numberOrInfinity token).map .advDNSSLLifetime
  | .tFlushDNSSL, token => (switch token).map .flushDNSSL
  | _, _ => none

def parms : Parms DnsslParm where
  keyword := keyword
  value := value
  read := read
  read_eq_some_iff := by
    intro word token parm
    constructor
    · intro found
      unfold read at found
      split at found
      all_goals
        simp only [Option.map_eq_some_iff, reduceCtorEq, numberOrInfinity_eq_some_iff,
          switch_eq_some_iff] at found
      all_goals
        rcases found with ⟨value, same, rfl⟩
        exact ⟨rfl, same⟩
    · rintro ⟨rfl, rfl⟩
      cases parm <;> simp [keyword, value, read]
  value_ne_bad := by
    intro parm
    cases parm <;> simp [value]

end DnsslParm

/-! ### `lowpancoparms` -/

namespace LowpancoParm

def keyword : LowpancoParm → Word
  | .advContextLength _ => .tAdvContextLength
  | .advContextCompressionFlag _ => .tAdvContextCompressionFlag
  | .advContextID _ => .tAdvContextID
  | .advLifeTime _ => .tAdvLifeTime

def value : LowpancoParm → Token
  | .advContextLength value | .advContextID value | .advLifeTime value => .num value
  | .advContextCompressionFlag value => .switch value

def read : Word → Token → Option LowpancoParm
  | .tAdvContextLength, token => (numberToken token).map .advContextLength
  | .tAdvContextCompressionFlag, token => (switch token).map .advContextCompressionFlag
  | .tAdvContextID, token => (numberToken token).map .advContextID
  | .tAdvLifeTime, token => (numberToken token).map .advLifeTime
  | _, _ => none

def parms : Parms LowpancoParm where
  keyword := keyword
  value := value
  read := read
  read_eq_some_iff := by
    intro word token parm
    constructor
    · intro found
      unfold read at found
      split at found
      all_goals
        simp only [Option.map_eq_some_iff, reduceCtorEq, numberToken_eq_some_iff,
          switch_eq_some_iff] at found
      all_goals
        rcases found with ⟨value, same, rfl⟩
        exact ⟨rfl, same⟩
    · rintro ⟨rfl, rfl⟩
      cases parm <;> simp [keyword, value, read]
  value_ne_bad := by
    intro parm
    cases parm <;> simp [value]

end LowpancoParm

/-! ### `abroparms` -/

namespace AbroParm

def keyword : AbroParm → Word
  | .advVersionLow _ => .tAdvVersionLow
  | .advVersionHigh _ => .tAdvVersionHigh
  | .advValidLifetime _ => .tAdvValidLifetime

def value : AbroParm → Token
  | .advVersionLow value | .advVersionHigh value | .advValidLifetime value => .num value

def read : Word → Token → Option AbroParm
  | .tAdvVersionLow, token => (numberToken token).map .advVersionLow
  | .tAdvVersionHigh, token => (numberToken token).map .advVersionHigh
  | .tAdvValidLifetime, token => (numberToken token).map .advValidLifetime
  | _, _ => none

def parms : Parms AbroParm where
  keyword := keyword
  value := value
  read := read
  read_eq_some_iff := by
    intro word token parm
    constructor
    · intro found
      unfold read at found
      split at found
      all_goals
        simp only [Option.map_eq_some_iff, reduceCtorEq, numberToken_eq_some_iff] at found
      all_goals
        rcases found with ⟨value, same, rfl⟩
        exact ⟨rfl, same⟩
    · rintro ⟨rfl, rfl⟩
      cases parm <;> simp [keyword, value, read]
  value_ne_bad := by
    intro parm
    cases parm <;> simp [value]

end AbroParm

/-! ### `ifaceval` -/

namespace Ifaceval

def keyword : Ifaceval → Word
  | .minRtrAdvInterval _ => .tMinRtrAdvInterval
  | .maxRtrAdvInterval _ => .tMaxRtrAdvInterval
  | .minDelayBetweenRAs _ => .tMinDelayBetweenRAs
  | .ignoreIfMissing _ => .tIgnoreIfMissing
  | .advSendAdvert _ => .tAdvSendAdvert
  | .advManagedFlag _ => .tAdvManagedFlag
  | .advOtherConfigFlag _ => .tAdvOtherConfigFlag
  | .advLinkMTU _ => .tAdvLinkMTU
  | .advRAMTU _ => .tAdvRAMTU
  | .advReachableTime _ => .tAdvReachableTime
  | .advRetransTimer _ => .tAdvRetransTimer
  | .advDefaultLifetime _ => .tAdvDefaultLifetime
  | .advDefaultPreference _ => .tAdvDefaultPreference
  | .advCurHopLimit _ => .tAdvCurHopLimit
  | .removeAdvOnExit _ => .tRemoveAdvOnExit
  | .advSourceLLAddress _ => .tAdvSourceLLAddress
  | .advIntervalOpt _ => .tAdvIntervalOpt
  | .advHomeAgentInfo _ => .tAdvHomeAgentInfo
  | .advHomeAgentFlag _ => .tAdvHomeAgentFlag
  | .homeAgentPreference _ => .tHomeAgentPreference
  | .homeAgentLifetime _ => .tHomeAgentLifetime
  | .advSNACRouterFlag _ => .tAdvSNACRouterFlag
  | .unicastOnly _ => .tUnicastOnly
  | .unrestrictedUnicast _ => .tUnrestrictedUnicast
  | .advRASolicitedUnicast _ => .tAdvRASolicitedUnicast
  | .advCaptivePortalAPI _ => .tAdvCaptivePortalAPI
  | .advMobRtrSupportFlag _ => .tAdvMobRtrSupportFlag

def value : Ifaceval → Token
  | .minRtrAdvInterval value | .maxRtrAdvInterval value | .minDelayBetweenRAs value => value.token
  | .ignoreIfMissing value | .advSendAdvert value | .advManagedFlag value
  | .advOtherConfigFlag value | .removeAdvOnExit value | .advSourceLLAddress value
  | .advIntervalOpt value | .advHomeAgentInfo value | .advHomeAgentFlag value
  | .advSNACRouterFlag value | .unicastOnly value | .unrestrictedUnicast value
  | .advRASolicitedUnicast value | .advMobRtrSupportFlag value => .switch value
  | .advLinkMTU value | .advRAMTU value | .advReachableTime value | .advRetransTimer value
  | .advDefaultLifetime value | .advCurHopLimit value | .homeAgentPreference value
  | .homeAgentLifetime value => .num value
  | .advDefaultPreference value => .snum value
  | .advCaptivePortalAPI value => .str value

def read : Word → Token → Option Ifaceval
  | .tMinRtrAdvInterval, token => (decimalToken token).map .minRtrAdvInterval
  | .tMaxRtrAdvInterval, token => (decimalToken token).map .maxRtrAdvInterval
  | .tMinDelayBetweenRAs, token => (decimalToken token).map .minDelayBetweenRAs
  | .tIgnoreIfMissing, token => (switch token).map .ignoreIfMissing
  | .tAdvSendAdvert, token => (switch token).map .advSendAdvert
  | .tAdvManagedFlag, token => (switch token).map .advManagedFlag
  | .tAdvOtherConfigFlag, token => (switch token).map .advOtherConfigFlag
  | .tAdvLinkMTU, token => (numberToken token).map .advLinkMTU
  | .tAdvRAMTU, token => (numberToken token).map .advRAMTU
  | .tAdvReachableTime, token => (numberToken token).map .advReachableTime
  | .tAdvRetransTimer, token => (numberToken token).map .advRetransTimer
  | .tAdvDefaultLifetime, token => (numberToken token).map .advDefaultLifetime
  | .tAdvDefaultPreference, token => (snumToken token).map .advDefaultPreference
  | .tAdvCurHopLimit, token => (numberToken token).map .advCurHopLimit
  | .tRemoveAdvOnExit, token => (switch token).map .removeAdvOnExit
  | .tAdvSourceLLAddress, token => (switch token).map .advSourceLLAddress
  | .tAdvIntervalOpt, token => (switch token).map .advIntervalOpt
  | .tAdvHomeAgentInfo, token => (switch token).map .advHomeAgentInfo
  | .tAdvHomeAgentFlag, token => (switch token).map .advHomeAgentFlag
  | .tHomeAgentPreference, token => (numberToken token).map .homeAgentPreference
  | .tHomeAgentLifetime, token => (numberToken token).map .homeAgentLifetime
  | .tAdvSNACRouterFlag, token => (switch token).map .advSNACRouterFlag
  | .tUnicastOnly, token => (switch token).map .unicastOnly
  | .tUnrestrictedUnicast, token => (switch token).map .unrestrictedUnicast
  | .tAdvRASolicitedUnicast, token => (switch token).map .advRASolicitedUnicast
  | .tAdvCaptivePortalAPI, token => (strToken token).map .advCaptivePortalAPI
  | .tAdvMobRtrSupportFlag, token => (switch token).map .advMobRtrSupportFlag
  | _, _ => none

def parms : Parms Ifaceval where
  keyword := keyword
  value := value
  read := read
  read_eq_some_iff := by
    intro word token parm
    constructor
    · intro found
      unfold read at found
      split at found
      all_goals
        simp only [Option.map_eq_some_iff, reduceCtorEq, decimalToken_eq_some_iff,
          switch_eq_some_iff, numberToken_eq_some_iff, snumToken_eq_some_iff,
          strToken_eq_some_iff] at found
      all_goals
        rcases found with ⟨value, same, rfl⟩
        exact ⟨rfl, same⟩
    · rintro ⟨rfl, rfl⟩
      cases parm <;> simp [keyword, value, read]
  value_ne_bad := by
    intro parm
    cases parm <;> simp [value]

end Ifaceval

/-! ### `nat64prefixparms` -/

def nat64prefixParms : Parms NumberText where
  keyword := fun _ => .tAdvValidLifetime
  value := .num
  read := fun word token => if word = .tAdvValidLifetime then numberToken token else none
  read_eq_some_iff := by
    intro word token parm
    rw [Option.ite_none_right_eq_some, numberToken_eq_some_iff, eq_comm]
  value_ne_bad := by simp

/-! ## Definitions -/

/-- An address and a length. -/
def network (addr : In6Addr) (len : NumberText) : List Token :=
  [.addr addr, .slash, .num len]

def ClientText.token (client : ClientText) : Token :=
  if client.ignored then .notAddr client.address else .addr client.address

def ClientText.tokens (client : ClientText) : List Token :=
  [client.token, .semicolon]

def IgnoreprefixText.tokens (text : IgnoreprefixText) : List Token :=
  network text.addr text.len ++ [.semicolon]

/-- A list of entries between braces. -/
def entries {α : Type} (tokens : α → List Token) (list : List α) : List Token :=
  .opening :: list.flatMap tokens ++ [.closing, .semicolon]

/-- The length that is deprecated. -/
def deprecatedLen : Option NumberText → List Token
  | none => []
  | some len => [.slash, .num len]

namespace Ifaceparam

def keyword : Ifaceparam → Word
  | .ifaceval value => value.keyword
  | .prefixdef _ => .tPrefix
  | .clientslist _ _ => .tClients
  | .routedef _ => .tRoute
  | .rdnssdef _ => .tRdnss
  | .dnssldef _ => .tDnssl
  | .lowpancodef _ => .tLowpanco
  | .abrodef _ => .tAbro
  | .rasrcaddresslist _ _ => .tRasrcaddress
  | .nat64prefixdef _ => .tNat64Prefix
  | .ignoreprefixlist _ _ => .tAutoignorePrefix

/-- What comes after the keyword. -/
def Tail : Ifaceparam → List Token → Prop
  | .ifaceval value, part => part = [value.value, .semicolon]
  | .prefixdef definition, part =>
      ∃ block, PrefixParm.parms.Optional definition.parms block ∧
        part = network definition.addr definition.len ++ block
  | .clientslist first rest, part => part = entries ClientText.tokens (first :: rest)
  | .routedef definition, part =>
      part = network definition.addr definition.len ++
        .opening :: RouteParm.parms.closed definition.parms
  | .rdnssdef definition, part =>
      part = (definition.first :: definition.rest).map .addr ++
        .opening :: RdnssParm.parms.closed definition.parms
  | .dnssldef definition, part =>
      part = (definition.first :: definition.rest).map .str ++
        .opening :: DnsslParm.parms.closed definition.parms
  | .lowpancodef definition, part => part = .opening :: LowpancoParm.parms.closed definition.parms
  | .abrodef definition, part =>
      part = .addr definition.addr :: deprecatedLen definition.len ++
        .opening :: AbroParm.parms.closed definition.parms
  | .rasrcaddresslist first rest, part =>
      part = entries (fun addr => [.addr addr, .semicolon]) (first :: rest)
  | .nat64prefixdef definition, part =>
      ∃ block, nat64prefixParms.Optional definition.parms block ∧
        part = network definition.addr definition.len ++ block
  | .ignoreprefixlist first rest, part => part = entries IgnoreprefixText.tokens (first :: rest)

/-- `ifaceparam` -/
def Yields (param : Ifaceparam) (part : List Token) : Prop :=
  ∃ tail, param.Tail tail ∧ part = .word param.keyword :: tail

end Ifaceparam

/-- `ifacedef` -/
def Ifacedef.Yields (definition : Ifacedef) (part : List Token) : Prop :=
  ∃ parts, List.Forall₂ Ifaceparam.Yields definition.params parts ∧
    part = [.word .tInterface, .str definition.name, .opening] ++ parts.flatten ++
      [.closing, .semicolon]

/-- `grammar` -/
def Yields (first : Ifacedef) (rest : List Ifacedef) (tokens : List Token) : Prop :=
  ∃ parts, List.Forall₂ Ifacedef.Yields (first :: rest) parts ∧ tokens = parts.flatten

/-! ## Tokens of derivations -/

theorem ClientText.token_ne_bad (client : ClientText) : client.token ≠ .bad := by
  rcases client with ⟨address, _ | _⟩ <;> simp [token]

theorem bad_notMem_closed {α : Type} {parms : Parms α} {statements : List α} :
    .bad ∉ parms.closed statements := by
  simp [Parms.closed, Parms.tokens, (parms.value_ne_bad _).symm]

theorem bad_notMem_optional {α : Type} {parms : Parms α} {statements : List α}
    {part : List Token} (optional : parms.Optional statements part) : .bad ∉ part := by
  rcases optional with rfl | ⟨-, rfl⟩
  · simp [bad_notMem_closed]
  · simp

theorem Ifaceparam.Tail.bad_notMem {param : Ifaceparam} {part : List Token}
    (tail : param.Tail part) : .bad ∉ part := by
  cases param with
  | ifaceval value =>
      cases tail
      have good : value.value ≠ .bad := Ifaceval.parms.value_ne_bad value
      simp [good.symm]
  | prefixdef definition =>
      rcases tail with ⟨block, optional, rfl⟩
      simp [network, bad_notMem_optional optional]
  | nat64prefixdef definition =>
      rcases tail with ⟨block, optional, rfl⟩
      simp [network, bad_notMem_optional optional]
  | clientslist first rest =>
      cases tail
      simp [entries, ClientText.tokens, fun client => (ClientText.token_ne_bad client).symm]
  | abrodef definition =>
      cases tail
      rcases definition.len with _ | len <;> simp [deprecatedLen, bad_notMem_closed]
  | _ =>
      cases tail
      simp [network, entries, IgnoreprefixText.tokens, bad_notMem_closed]

theorem bad_notMem_flatten {α : Type} {yields : α → List Token → Prop}
    (good : ∀ value part, yields value part → .bad ∉ part) {values : List α}
    {parts : List (List Token)} (all : List.Forall₂ yields values parts) :
    .bad ∉ parts.flatten := by
  induction all with
  | nil => simp
  | cons yielded _ ih =>
      rw [List.flatten_cons, List.mem_append, not_or]
      exact ⟨good _ _ yielded, ih⟩

theorem Yields.bad_notMem {first : Ifacedef} {rest : List Ifacedef} {tokens : List Token}
    (yields : Yields first rest tokens) : .bad ∉ tokens := by
  rcases yields with ⟨parts, all, rfl⟩
  apply bad_notMem_flatten _ all
  rintro definition _ ⟨parts, params, rfl⟩
  have inside : .bad ∉ parts.flatten := by
    apply bad_notMem_flatten _ params
    rintro param _ ⟨tail, ending, rfl⟩
    simp [ending.bad_notMem]
  simpa using inside

end Radvd.Grammar
