import Radvd.Grammar.Tokens

/-!
# The actions of `gram.y`

A configuration file as the tree that the grammar derives it by, with the values
of its tokens as text, and the actions of the rules over it. The parser fills in
one interface at a time; a definition inside of its block is read over its own
defaults and then added at the end of its list.

A configuration is refused at the first bad token and at the first check that
fails (`Refusal`).
-/

namespace Radvd.Grammar

open Wire

/-! ## Trees -/

inductive PrefixParm where
  | advOnLink (value : Bool)
  | advAutonomous (value : Bool)
  | advRouterAddr (value : Bool)
  | advDHCPv6PDPreferred (value : Bool)
  | advValidLifetime (value : NumberOrInfinity)
  | advPreferredLifetime (value : NumberOrInfinity)
  | deprecatePrefix (value : Bool)
  | decrementLifetimes (value : Bool)
  | base6Interface (name : StringText)
  | base6to4Interface (name : StringText)
  deriving DecidableEq, Repr

inductive RouteParm where
  | advRoutePreference (value : SignedText)
  | advRouteLifetime (value : NumberOrInfinity)
  | removeRoute (value : Bool)
  deriving DecidableEq, Repr

inductive RdnssParm where
  | advRDNSSPreference (value : NumberText)
  | advRDNSSOpenFlag (value : Bool)
  | advRDNSSLifetime (value : NumberOrInfinity)
  | flushRDNSS (value : Bool)
  deriving DecidableEq, Repr

inductive DnsslParm where
  | advDNSSLLifetime (value : NumberOrInfinity)
  | flushDNSSL (value : Bool)
  deriving DecidableEq, Repr

inductive LowpancoParm where
  | advContextLength (value : NumberText)
  | advContextCompressionFlag (value : Bool)
  | advContextID (value : NumberText)
  | advLifeTime (value : NumberText)
  deriving DecidableEq, Repr

inductive AbroParm where
  | advVersionLow (value : NumberText)
  | advVersionHigh (value : NumberText)
  | advValidLifetime (value : NumberText)
  deriving DecidableEq, Repr

/-- An address in a list of clients, with a `!` before it or not. -/
structure ClientText where
  address : In6Addr
  ignored : Bool
  deriving DecidableEq, Repr

structure PrefixDef where
  addr : In6Addr
  len : NumberText
  parms : List PrefixParm
  deriving DecidableEq, Repr

structure RouteDef where
  addr : In6Addr
  len : NumberText
  parms : List RouteParm
  deriving DecidableEq, Repr

structure RdnssDef where
  first : In6Addr
  rest : List In6Addr
  parms : List RdnssParm
  deriving DecidableEq, Repr

structure DnsslDef where
  first : StringText
  rest : List StringText
  parms : List DnsslParm
  deriving DecidableEq, Repr

structure LowpancoDef where
  parms : List LowpancoParm
  deriving DecidableEq, Repr

/-- The length after the address is deprecated. -/
structure AbroDef where
  addr : In6Addr
  len : Option NumberText
  parms : List AbroParm
  deriving DecidableEq, Repr

/-- Each of the settings is `AdvValidLifetime`. -/
structure Nat64prefixDef where
  addr : In6Addr
  len : NumberText
  parms : List NumberText
  deriving DecidableEq, Repr

structure IgnoreprefixText where
  addr : In6Addr
  len : NumberText
  deriving DecidableEq, Repr

inductive Ifaceval where
  | minRtrAdvInterval (value : DecimalText)
  | maxRtrAdvInterval (value : DecimalText)
  | minDelayBetweenRAs (value : DecimalText)
  | ignoreIfMissing (value : Bool)
  | advSendAdvert (value : Bool)
  | advManagedFlag (value : Bool)
  | advOtherConfigFlag (value : Bool)
  | advLinkMTU (value : NumberText)
  | advRAMTU (value : NumberText)
  | advReachableTime (value : NumberText)
  | advRetransTimer (value : NumberText)
  | advDefaultLifetime (value : NumberText)
  | advDefaultPreference (value : SignedText)
  | advCurHopLimit (value : NumberText)
  | removeAdvOnExit (value : Bool)
  | advSourceLLAddress (value : Bool)
  | advIntervalOpt (value : Bool)
  | advHomeAgentInfo (value : Bool)
  | advHomeAgentFlag (value : Bool)
  | homeAgentPreference (value : NumberText)
  | homeAgentLifetime (value : NumberText)
  | advSNACRouterFlag (value : Bool)
  | unicastOnly (value : Bool)
  | unrestrictedUnicast (value : Bool)
  | advRASolicitedUnicast (value : Bool)
  | advCaptivePortalAPI (value : StringText)
  | advMobRtrSupportFlag (value : Bool)
  deriving DecidableEq, Repr

inductive Ifaceparam where
  | ifaceval (value : Ifaceval)
  | prefixdef (definition : PrefixDef)
  | clientslist (first : ClientText) (rest : List ClientText)
  | routedef (definition : RouteDef)
  | rdnssdef (definition : RdnssDef)
  | dnssldef (definition : DnsslDef)
  | lowpancodef (definition : LowpancoDef)
  | abrodef (definition : AbroDef)
  | rasrcaddresslist (first : In6Addr) (rest : List In6Addr)
  | nat64prefixdef (definition : Nat64prefixDef)
  | ignoreprefixlist (first : IgnoreprefixText) (rest : List IgnoreprefixText)
  deriving DecidableEq, Repr

structure Ifacedef where
  name : StringText
  params : List Ifaceparam
  deriving DecidableEq, Repr

/-! ## Definitions -/

/-- Why a configuration is refused. -/
inductive Refusal where
  | badToken
  | duplicateInterface
  | emptyUrl
  | invalidPrefixLength
  | preferredExceedsValid
  | only64WithBase6Interface
  | allZerosNat64Prefix
  | nat64prefixLength
  | nat64Lifetime
  | tooManyRdnss
  | invalidDomainSuffix
  deriving DecidableEq, Repr

abbrev Parsing := Except Refusal

def token {α : Type} (value : Option α) : Parsing α :=
  match value with
  | none => .error .badToken
  | some value => .ok value

def require (condition : Bool) (refusal : Refusal) : Parsing Unit :=
  if condition then .ok () else .error refusal

@[simp]
theorem pure_eq_ok {α : Type} {value result : α} :
    (pure value : Parsing α) = .ok result ↔ value = result := by
  simp [pure, Except.pure]

theorem ok_bind {α β : Type} (value : α) (next : α → Parsing β) :
    (Except.ok value >>= next) = next value := rfl

@[simp]
theorem bind_eq_ok {α β : Type} {first : Parsing α} {next : α → Parsing β} {result : β} :
    first >>= next = .ok result ↔ ∃ value, first = .ok value ∧ next value = .ok result := by
  cases first <;> simp [Bind.bind, Except.bind]

@[simp]
theorem token_eq_ok {α : Type} {value : Option α} {result : α} :
    token value = .ok result ↔ value = some result := by
  cases value <;> simp [token]

@[simp]
theorem require_eq_ok {condition : Bool} {refusal : Refusal} {result : Unit} :
    require condition refusal = .ok result ↔ condition = true := by
  cases condition <;> simp [require]

def prefixparms (entry : AdvPrefix) : PrefixParm → Parsing AdvPrefix
  | .advOnLink value => pure { entry with advOnLinkFlag := value }
  | .advAutonomous value => pure { entry with advAutonomousFlag := value }
  | .advRouterAddr value => pure { entry with advRouterAddr := value }
  | .advDHCPv6PDPreferred value => pure { entry with advDHCPv6PDPreferredFlag := value }
  | .advValidLifetime text => do
      let value ← token text.num
      pure { entry with advValidLifetime := value, currValidlft := value }
  | .advPreferredLifetime text => do
      let value ← token text.num
      pure { entry with advPreferredLifetime := value, currPreferredlft := value }
  | .deprecatePrefix value => pure { entry with deprecatePrefixFlag := value }
  | .decrementLifetimes value => pure { entry with decrementLifetimesFlag := value }
  | .base6Interface name => pure { entry with if6 := name.ifname }
  | .base6to4Interface name => pure { entry with if6to4 := name.ifname }

def prefixhead (definition : PrefixDef) : Parsing AdvPrefix := do
  let len ← token definition.len.num
  require (len ≤ 128) .invalidPrefixLength
  pure { prefixInitDefaults with prefixLen := len.toUInt8, prefixAddr := definition.addr }

def prefixdef (definition : PrefixDef) : Parsing AdvPrefix := do
  let entry ← prefixhead definition
  let entry ← definition.parms.foldlM prefixparms entry
  require (entry.advPreferredLifetime ≤ entry.advValidLifetime) .preferredExceedsValid
  require (entry.if6 = [] || entry.prefixLen = 64) .only64WithBase6Interface
  pure entry

def routeparms (route : AdvRoute) : RouteParm → Parsing AdvRoute
  | .advRoutePreference text => pure { route with advRoutePreference := text.snum }
  | .advRouteLifetime text => do
      let value ← token text.num
      pure { route with advRouteLifetime := value }
  | .removeRoute value => pure { route with removeRouteFlag := value }

def routehead (iface : Interface) (definition : RouteDef) : Parsing AdvRoute := do
  let len ← token definition.len.num
  require (len ≤ 128) .invalidPrefixLength
  pure { routeInitDefaults iface with prefixLen := len.toUInt8, prefixAddr := definition.addr }

def routedef (iface : Interface) (definition : RouteDef) : Parsing AdvRoute := do
  let route ← routehead iface definition
  definition.parms.foldlM routeparms route

/-- A preference and an open flag are deprecated and ignored. -/
def rdnssparms (rdnss : AdvRDNSS) : RdnssParm → Parsing AdvRDNSS
  | .advRDNSSPreference text => do
      let _ ← token text.num
      pure rdnss
  | .advRDNSSOpenFlag _ => pure rdnss
  | .advRDNSSLifetime text => do
      let value ← token text.num
      pure { rdnss with advRDNSSLifetime := value }
  | .flushRDNSS value => pure { rdnss with flushRDNSSFlag := value }

def rdnssaddr (rdnss : AdvRDNSS) (addr : In6Addr) : Parsing AdvRDNSS := do
  require (rdnss.advRDNSSAddr.length + 1 ≤ 127) .tooManyRdnss
  pure { rdnss with advRDNSSAddr := rdnss.advRDNSSAddr ++ [addr] }

def rdnssdef (iface : Interface) (definition : RdnssDef) : Parsing AdvRDNSS := do
  let rdnss ← (definition.first :: definition.rest).foldlM rdnssaddr (rdnssInitDefaults iface)
  definition.parms.foldlM rdnssparms rdnss

def isSuffixOctet (octet : UInt8) : Bool :=
  (65 ≤ octet && octet ≤ 90) || (97 ≤ octet && octet ≤ 122) || (48 ≤ octet && octet ≤ 57) ||
    octet = 45 || octet = 46

def dnsslsuffix (dnssl : AdvDNSSL) (text : StringText) : Parsing AdvDNSSL := do
  require (text.str.all isSuffixOctet) .invalidDomainSuffix
  pure { dnssl with advDNSSLSuffixes := dnssl.advDNSSLSuffixes ++ [text.str] }

def dnsslparms (dnssl : AdvDNSSL) : DnsslParm → Parsing AdvDNSSL
  | .advDNSSLLifetime text => do
      let value ← token text.num
      pure { dnssl with advDNSSLLifetime := value }
  | .flushDNSSL value => pure { dnssl with flushDNSSLFlag := value }

def dnssldef (iface : Interface) (definition : DnsslDef) : Parsing AdvDNSSL := do
  let dnssl ← (definition.first :: definition.rest).foldlM dnsslsuffix (dnsslInitDefaults iface)
  definition.parms.foldlM dnsslparms dnssl

def lowpancoparms (lowpanco : AdvLowpanCo) : LowpancoParm → Parsing AdvLowpanCo
  | .advContextLength text => do
      let value ← token text.num
      pure { lowpanco with contextLength := value.toUInt8 }
  | .advContextCompressionFlag value => pure { lowpanco with contextCompressionFlag := value }
  | .advContextID text => do
      let value ← token text.num
      pure { lowpanco with advContextID := value.toUInt8 }
  | .advLifeTime text => do
      let value ← token text.num
      pure { lowpanco with advLifeTime := value.toUInt16 }

def lowpancohead : AdvLowpanCo where
  contextLength := 0
  contextCompressionFlag := false
  advContextID := 0
  advLifeTime := 0
  advContextPrefix := In6Addr.unspecified

def lowpancodef (definition : LowpancoDef) : Parsing AdvLowpanCo :=
  definition.parms.foldlM lowpancoparms lowpancohead

def abroparms (abro : AdvAbro) : AbroParm → Parsing AdvAbro
  | .advVersionLow text => do
      let value ← token text.num
      pure { abro with versionLow := value.toUInt16 }
  | .advVersionHigh text => do
      let value ← token text.num
      pure { abro with versionHigh := value.toUInt16 }
  | .advValidLifetime text => do
      let value ← token text.num
      pure { abro with validLifeTime := value.toUInt16 }

def abrohead (definition : AbroDef) : Parsing AdvAbro := do
  match definition.len with
  | none => pure ()
  | some text =>
      let _ ← token text.num
      pure ()
  pure { versionHigh := 0, versionLow := 0, validLifeTime := 0, lbrAddress := definition.addr }

def abrodef (definition : AbroDef) : Parsing AdvAbro := do
  let abro ← abrohead definition
  definition.parms.foldlM abroparms abro

def nat64prefixparms (entry : NAT64Prefix) (text : NumberText) : Parsing NAT64Prefix := do
  let value ← token text.num
  require (value ≤ 65528) .nat64Lifetime
  pure { entry with advValidLifetime := value }

def nat64prefixhead (iface : Interface) (definition : Nat64prefixDef) : Parsing NAT64Prefix := do
  let len ← token definition.len.num
  require (definition.addr ≠ In6Addr.unspecified) .allZerosNat64Prefix
  require (len ≤ 128) .invalidPrefixLength
  require (len ∈ [32, 40, 48, 56, 64, 96]) .nat64prefixLength
  pure { nat64prefixInitDefaults iface with
    prefixLen := len.toUInt8, prefixAddr := definition.addr }

def nat64prefixdef (iface : Interface) (definition : Nat64prefixDef) : Parsing NAT64Prefix := do
  let entry ← nat64prefixhead iface definition
  let entry ← definition.parms.foldlM nat64prefixparms entry
  require (entry.advValidLifetime ≤ 65528) .nat64Lifetime
  pure { entry with currValidlft := entry.advValidLifetime }

/-- The mask of an ignored prefix. The loop that fills it does not look at the
size of the array; here it ends with the array. -/
def ignoreMask (len : UInt32) : In6Addr :=
  Vector.ofFn fun i =>
    if i.val < len.toNat / 8 then 0xff
    else if i.val = len.toNat / 8 then UInt8.ofInt (-(2 ^ (8 - len.toNat % 8)))
    else 0

def ignoreprefix (text : IgnoreprefixText) : Parsing AutogenIgnorePrefix := do
  let len ← token text.len.num
  pure { prefixAddr := text.addr, mask := ignoreMask len }

/-! ## Interfaces -/

/-- The double quotes around a string are trimmed. -/
def trimQuotes (source : Bytes) : Bytes :=
  let source := if source.head? = some Dump.doubleQuote then source.tail else source
  if source.getLast? = some Dump.doubleQuote then source.dropLast else source

def ifaceval (iface : Interface) : Ifaceval → Parsing Interface
  | .minRtrAdvInterval text => do
      let value ← token text.dec
      pure { iface with minRtrAdvInterval := value }
  | .maxRtrAdvInterval text => do
      let value ← token text.dec
      pure { iface with maxRtrAdvInterval := value }
  | .minDelayBetweenRAs text => do
      let value ← token text.dec
      pure { iface with minDelayBetweenRAs := value }
  | .ignoreIfMissing value => pure { iface with ignoreIfMissing := value }
  | .advSendAdvert value => pure { iface with advSendAdvert := value }
  | .advManagedFlag value =>
      pure { iface with raHeaderInfo := { iface.raHeaderInfo with advManagedFlag := value } }
  | .advOtherConfigFlag value =>
      pure { iface with raHeaderInfo := { iface.raHeaderInfo with advOtherConfigFlag := value } }
  | .advLinkMTU text => do
      let value ← token text.num
      pure { iface with advLinkMTU := value }
  | .advRAMTU text => do
      let value ← token text.num
      pure { iface with advRAMTU := min 131072 (max 1280 value) }
  | .advReachableTime text => do
      let value ← token text.num
      pure { iface with raHeaderInfo := { iface.raHeaderInfo with advReachableTime := value } }
  | .advRetransTimer text => do
      let value ← token text.num
      pure { iface with raHeaderInfo := { iface.raHeaderInfo with advRetransTimer := value } }
  | .advDefaultLifetime text => do
      let value ← token text.num
      pure { iface with
        raHeaderInfo := { iface.raHeaderInfo with advDefaultLifetime := value.toInt32.toInt } }
  | .advDefaultPreference text =>
      pure { iface with
        raHeaderInfo := { iface.raHeaderInfo with advDefaultPreference := text.snum } }
  | .advCurHopLimit text => do
      let value ← token text.num
      pure { iface with
        raHeaderInfo := { iface.raHeaderInfo with advCurHopLimit := value.toUInt8 } }
  | .removeAdvOnExit value => pure { iface with removeAdvOnExit := value }
  | .advSourceLLAddress value => pure { iface with advSourceLLAddress := value }
  | .advIntervalOpt value =>
      pure { iface with mipv6 := { iface.mipv6 with advIntervalOpt := value } }
  | .advHomeAgentInfo value =>
      pure { iface with mipv6 := { iface.mipv6 with advHomeAgentInfo := value } }
  | .advHomeAgentFlag value =>
      pure { iface with raHeaderInfo := { iface.raHeaderInfo with advHomeAgentFlag := value } }
  | .homeAgentPreference text => do
      let value ← token text.num
      pure { iface with mipv6 := { iface.mipv6 with homeAgentPreference := value.toUInt16 } }
  | .homeAgentLifetime text => do
      let value ← token text.num
      pure { iface with mipv6 := { iface.mipv6 with homeAgentLifetime := value.toInt32.toInt } }
  | .advSNACRouterFlag value =>
      pure { iface with raHeaderInfo := { iface.raHeaderInfo with advSNACRouterFlag := value } }
  | .unicastOnly value => pure { iface with unicastOnly := value }
  | .unrestrictedUnicast value => pure { iface with unrestrictedUnicast := value }
  | .advRASolicitedUnicast value => pure { iface with advRASolicitedUnicast := value }
  | .advCaptivePortalAPI text => do
      require (trimQuotes text.str ≠ []) .emptyUrl
      pure { iface with advCaptivePortalAPI := some (trimQuotes text.str) }
  | .advMobRtrSupportFlag value =>
      pure { iface with mipv6 := { iface.mipv6 with advMobRtrSupportFlag := value } }

/-- `ifaceparam`. The lists of addresses put each new address in front of the
others; every list is added at the end of the one of the interface. -/
def ifaceparam (iface : Interface) : Ifaceparam → Parsing Interface
  | .ifaceval value => ifaceval iface value
  | .prefixdef definition => do
      let entry ← prefixdef definition
      pure { iface with advPrefixList := iface.advPrefixList ++ [entry] }
  | .clientslist first rest =>
      pure { iface with
        clientList := iface.clientList ++
          ((first :: rest).map fun client => ⟨client.address, client.ignored⟩).reverse }
  | .routedef definition => do
      let route ← routedef iface definition
      pure { iface with advRouteList := iface.advRouteList ++ [route] }
  | .rdnssdef definition => do
      let rdnss ← rdnssdef iface definition
      pure { iface with advRDNSSList := iface.advRDNSSList ++ [rdnss] }
  | .dnssldef definition => do
      let dnssl ← dnssldef iface definition
      pure { iface with advDNSSLList := iface.advDNSSLList ++ [dnssl] }
  | .lowpancodef definition => do
      let lowpanco ← lowpancodef definition
      pure { iface with advLowpanCoList := iface.advLowpanCoList ++ [lowpanco] }
  | .abrodef definition => do
      let abro ← abrodef definition
      pure { iface with advAbroList := iface.advAbroList ++ [abro] }
  | .rasrcaddresslist first rest =>
      pure { iface with
        advRASrcAddressList := iface.advRASrcAddressList ++ (first :: rest).reverse }
  | .nat64prefixdef definition => do
      let entry ← nat64prefixdef iface definition
      pure { iface with nat64PrefixList := iface.nat64PrefixList ++ [entry] }
  | .ignoreprefixlist first rest => do
      let entries ← (first :: rest).mapM ignoreprefix
      pure { iface with ignorePrefixList := iface.ignorePrefixList ++ entries.reverse }

def ifaceparams (iface : Interface) (params : List Ifaceparam) : Parsing Interface :=
  params.foldlM ifaceparam iface

/-- `ifacehead`: the name is compared as it is written and kept cut to its
array. -/
def ifacehead (ifaceList : List Interface) (name : StringText) : Parsing Interface := do
  require (ifaceList.all fun iface => iface.props.name ≠ name.str) .duplicateInterface
  pure { ifaceInitDefaults with
    props := { ifaceInitDefaults.props with name := name.ifname } }

/-- `ifacedef`: the new interface goes in front of the others. -/
def ifacedef (ifaceList : List Interface) (definition : Ifacedef) : Parsing (List Interface) := do
  let iface ← ifacehead ifaceList definition.name
  let iface ← ifaceparams iface definition.params
  pure (iface :: ifaceList)

/-- `readin_config`. -/
def readinConfig (first : Ifacedef) (rest : List Ifacedef) : Parsing (List Interface) :=
  (first :: rest).foldlM ifacedef []

end Radvd.Grammar
