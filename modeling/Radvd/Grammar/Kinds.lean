import Mathlib.Data.Rat.Floor
import Radvd.Grammar.Actions

/-!
# What a statement of an interface block writes

Every statement of an interface block changes one place of the interface: a
scalar option is overwritten, a definition is added at the end of its list
(`eq_put_of_ifaceparam`). The place is the kind of the statement, and contents
of different kinds can be put in any order (`put_comm`).

Besides this place a statement reads nothing but `MaxRtrAdvInterval`, from which
a definition that does not set its lifetime takes the default
(`effect_congr`, `lifetimes_of_defaultLifetime`).
-/

namespace Radvd.Grammar

open Wire

/-- The scalar options and the lists of an interface. -/
inductive Kind where
  | minRtrAdvInterval
  | maxRtrAdvInterval
  | minDelayBetweenRAs
  | ignoreIfMissing
  | advSendAdvert
  | advManagedFlag
  | advOtherConfigFlag
  | advLinkMTU
  | advRAMTU
  | advReachableTime
  | advRetransTimer
  | advDefaultLifetime
  | advDefaultPreference
  | advCurHopLimit
  | removeAdvOnExit
  | advSourceLLAddress
  | advIntervalOpt
  | advHomeAgentInfo
  | advHomeAgentFlag
  | homeAgentPreference
  | homeAgentLifetime
  | advSNACRouterFlag
  | unicastOnly
  | unrestrictedUnicast
  | advRASolicitedUnicast
  | advCaptivePortalAPI
  | advMobRtrSupportFlag
  | prefixdef
  | clientslist
  | routedef
  | rdnssdef
  | dnssldef
  | lowpancodef
  | abrodef
  | rasrcaddresslist
  | nat64prefixdef
  | ignoreprefixlist
  deriving DecidableEq, Repr

def Ifaceval.kind : Ifaceval → Kind
  | .minRtrAdvInterval _ => .minRtrAdvInterval
  | .maxRtrAdvInterval _ => .maxRtrAdvInterval
  | .minDelayBetweenRAs _ => .minDelayBetweenRAs
  | .ignoreIfMissing _ => .ignoreIfMissing
  | .advSendAdvert _ => .advSendAdvert
  | .advManagedFlag _ => .advManagedFlag
  | .advOtherConfigFlag _ => .advOtherConfigFlag
  | .advLinkMTU _ => .advLinkMTU
  | .advRAMTU _ => .advRAMTU
  | .advReachableTime _ => .advReachableTime
  | .advRetransTimer _ => .advRetransTimer
  | .advDefaultLifetime _ => .advDefaultLifetime
  | .advDefaultPreference _ => .advDefaultPreference
  | .advCurHopLimit _ => .advCurHopLimit
  | .removeAdvOnExit _ => .removeAdvOnExit
  | .advSourceLLAddress _ => .advSourceLLAddress
  | .advIntervalOpt _ => .advIntervalOpt
  | .advHomeAgentInfo _ => .advHomeAgentInfo
  | .advHomeAgentFlag _ => .advHomeAgentFlag
  | .homeAgentPreference _ => .homeAgentPreference
  | .homeAgentLifetime _ => .homeAgentLifetime
  | .advSNACRouterFlag _ => .advSNACRouterFlag
  | .unicastOnly _ => .unicastOnly
  | .unrestrictedUnicast _ => .unrestrictedUnicast
  | .advRASolicitedUnicast _ => .advRASolicitedUnicast
  | .advCaptivePortalAPI _ => .advCaptivePortalAPI
  | .advMobRtrSupportFlag _ => .advMobRtrSupportFlag

def Ifaceparam.kind : Ifaceparam → Kind
  | .ifaceval value => value.kind
  | .prefixdef _ => .prefixdef
  | .clientslist _ _ => .clientslist
  | .routedef _ => .routedef
  | .rdnssdef _ => .rdnssdef
  | .dnssldef _ => .dnssldef
  | .lowpancodef _ => .lowpancodef
  | .abrodef _ => .abrodef
  | .rasrcaddresslist _ _ => .rasrcaddresslist
  | .nat64prefixdef _ => .nat64prefixdef
  | .ignoreprefixlist _ _ => .ignoreprefixlist

/-- What an interface holds in the place of a kind. -/
def Kind.Cell : Kind → Type
  | .minRtrAdvInterval | .maxRtrAdvInterval | .minDelayBetweenRAs => ℚ
  | .advLinkMTU | .advRAMTU | .advReachableTime | .advRetransTimer => UInt32
  | .advDefaultLifetime | .advDefaultPreference | .homeAgentLifetime => Int
  | .advCurHopLimit => UInt8
  | .homeAgentPreference => UInt16
  | .advCaptivePortalAPI => Option Bytes
  | .prefixdef => List AdvPrefix
  | .clientslist => List Clients
  | .routedef => List AdvRoute
  | .rdnssdef => List AdvRDNSS
  | .dnssldef => List AdvDNSSL
  | .lowpancodef => List AdvLowpanCo
  | .abrodef => List AdvAbro
  | .rasrcaddresslist => List In6Addr
  | .nat64prefixdef => List NAT64Prefix
  | .ignoreprefixlist => List AutogenIgnorePrefix
  | _ => Bool

def cell (iface : Interface) : (kind : Kind) → kind.Cell
  | .minRtrAdvInterval => iface.minRtrAdvInterval
  | .maxRtrAdvInterval => iface.maxRtrAdvInterval
  | .minDelayBetweenRAs => iface.minDelayBetweenRAs
  | .ignoreIfMissing => iface.ignoreIfMissing
  | .advSendAdvert => iface.advSendAdvert
  | .advManagedFlag => iface.raHeaderInfo.advManagedFlag
  | .advOtherConfigFlag => iface.raHeaderInfo.advOtherConfigFlag
  | .advLinkMTU => iface.advLinkMTU
  | .advRAMTU => iface.advRAMTU
  | .advReachableTime => iface.raHeaderInfo.advReachableTime
  | .advRetransTimer => iface.raHeaderInfo.advRetransTimer
  | .advDefaultLifetime => iface.raHeaderInfo.advDefaultLifetime
  | .advDefaultPreference => iface.raHeaderInfo.advDefaultPreference
  | .advCurHopLimit => iface.raHeaderInfo.advCurHopLimit
  | .removeAdvOnExit => iface.removeAdvOnExit
  | .advSourceLLAddress => iface.advSourceLLAddress
  | .advIntervalOpt => iface.mipv6.advIntervalOpt
  | .advHomeAgentInfo => iface.mipv6.advHomeAgentInfo
  | .advHomeAgentFlag => iface.raHeaderInfo.advHomeAgentFlag
  | .homeAgentPreference => iface.mipv6.homeAgentPreference
  | .homeAgentLifetime => iface.mipv6.homeAgentLifetime
  | .advSNACRouterFlag => iface.raHeaderInfo.advSNACRouterFlag
  | .unicastOnly => iface.unicastOnly
  | .unrestrictedUnicast => iface.unrestrictedUnicast
  | .advRASolicitedUnicast => iface.advRASolicitedUnicast
  | .advCaptivePortalAPI => iface.advCaptivePortalAPI
  | .advMobRtrSupportFlag => iface.mipv6.advMobRtrSupportFlag
  | .prefixdef => iface.advPrefixList
  | .clientslist => iface.clientList
  | .routedef => iface.advRouteList
  | .rdnssdef => iface.advRDNSSList
  | .dnssldef => iface.advDNSSLList
  | .lowpancodef => iface.advLowpanCoList
  | .abrodef => iface.advAbroList
  | .rasrcaddresslist => iface.advRASrcAddressList
  | .nat64prefixdef => iface.nat64PrefixList
  | .ignoreprefixlist => iface.ignorePrefixList

/-- The interface with other contents in all places. -/
def withCells (iface : Interface) (cells : (kind : Kind) → kind.Cell) : Interface :=
  { iface with
    minRtrAdvInterval := cells .minRtrAdvInterval
    maxRtrAdvInterval := cells .maxRtrAdvInterval
    minDelayBetweenRAs := cells .minDelayBetweenRAs
    ignoreIfMissing := cells .ignoreIfMissing
    advSendAdvert := cells .advSendAdvert
    advLinkMTU := cells .advLinkMTU
    advRAMTU := cells .advRAMTU
    removeAdvOnExit := cells .removeAdvOnExit
    advSourceLLAddress := cells .advSourceLLAddress
    unicastOnly := cells .unicastOnly
    unrestrictedUnicast := cells .unrestrictedUnicast
    advRASolicitedUnicast := cells .advRASolicitedUnicast
    advCaptivePortalAPI := cells .advCaptivePortalAPI
    raHeaderInfo :=
      { advManagedFlag := cells .advManagedFlag
        advOtherConfigFlag := cells .advOtherConfigFlag
        advCurHopLimit := cells .advCurHopLimit
        advHomeAgentFlag := cells .advHomeAgentFlag
        advSNACRouterFlag := cells .advSNACRouterFlag
        advDefaultLifetime := cells .advDefaultLifetime
        advDefaultPreference := cells .advDefaultPreference
        advReachableTime := cells .advReachableTime
        advRetransTimer := cells .advRetransTimer }
    mipv6 :=
      { advIntervalOpt := cells .advIntervalOpt
        advHomeAgentInfo := cells .advHomeAgentInfo
        homeAgentPreference := cells .homeAgentPreference
        homeAgentLifetime := cells .homeAgentLifetime
        advMobRtrSupportFlag := cells .advMobRtrSupportFlag }
    advPrefixList := cells .prefixdef
    clientList := cells .clientslist
    advRouteList := cells .routedef
    advRDNSSList := cells .rdnssdef
    advDNSSLList := cells .dnssldef
    advLowpanCoList := cells .lowpancodef
    advAbroList := cells .abrodef
    advRASrcAddressList := cells .rasrcaddresslist
    nat64PrefixList := cells .nat64prefixdef
    ignorePrefixList := cells .ignoreprefixlist }

@[simp]
theorem cell_withCells (iface : Interface) (cells : (kind : Kind) → kind.Cell) :
    cell (withCells iface cells) = cells := by
  funext kind
  cases kind <;> rfl

/-- The interface with another content in one place. -/
def put (iface : Interface) (kind : Kind) (content : kind.Cell) : Interface :=
  withCells iface (Function.update (cell iface) kind content)

section

variable {iface other : Interface} {kind kind' : Kind}

@[simp]
theorem cell_put_self (content : kind.Cell) : cell (put iface kind content) kind = content := by
  simp [put]

theorem cell_put_of_ne (differ : kind' ≠ kind) (content : kind.Cell) :
    cell (put iface kind content) kind' = cell iface kind' := by
  simp [put, Function.update_of_ne differ]

/-- Contents of different kinds are put in any order. -/
theorem put_comm (differ : kind ≠ kind') (content : kind.Cell) (content' : kind'.Cell) :
    put (put iface kind content) kind' content' = put (put iface kind' content') kind content := by
  have same : ∀ cells cells' : (kind : Kind) → kind.Cell,
      withCells (withCells iface cells) cells' = withCells iface cells' := fun _ _ => rfl
  simp only [put, cell_withCells, same]
  rw [Function.update_comm differ]

/-! ## Statements -/

/-- A statement changes nothing but the place of its kind. -/
theorem eq_put_of_ifaceparam {param : Ifaceparam} {after : Interface}
    (read : ifaceparam iface param = .ok after) :
    after = put iface param.kind (cell after param.kind) := by
  cases param with
  | ifaceval value =>
      cases value
      all_goals
        simp only [ifaceparam, ifaceval, bind_eq_ok, pure_eq_ok] at read
        rcases read with ⟨value, -, rfl⟩
        rfl
  | clientslist first rest =>
      simp only [ifaceparam, pure_eq_ok] at read
      subst read
      rfl
  | rasrcaddresslist first rest =>
      simp only [ifaceparam, pure_eq_ok] at read
      subst read
      rfl
  | _ =>
      simp only [ifaceparam, bind_eq_ok, pure_eq_ok] at read
      rcases read with ⟨entry, -, rfl⟩
      rfl

/-! ## Default lifetimes -/

/-- A field that a statement either assigns or keeps. -/
theorem foldlM_set {σ τ : Type} {step : σ → τ → Parsing σ} {set : σ → σ} {assigns : τ → Bool}
    (assigned : ∀ state parm, assigns parm = true → step (set state) parm = step state parm)
    (kept : ∀ state parm, assigns parm = false →
      step (set state) parm = (step state parm).map set)
    (state : σ) (parms : List τ) :
    parms.foldlM step (set state) =
      (parms.foldlM step state).map fun last => if parms.any assigns then last else set last := by
  induction parms generalizing state with
  | nil => rfl
  | cons parm rest ih =>
      simp only [List.foldlM_cons, List.any_cons]
      rcases Bool.eq_false_or_eq_true (assigns parm) with sets | keeps
      · rw [assigned state parm sets]
        cases step state parm with
        | error refusal => rfl
        | ok next =>
            simp only [sets, Bool.true_or, if_true]
            exact (congrFun Except.map_id _).symm
      · rw [kept state parm keeps]
        cases step state parm with
        | error refusal => rfl
        | ok next =>
            simp only [keeps, Bool.false_or]
            exact ih next

def RouteParm.isLifetime : RouteParm → Bool
  | .advRouteLifetime _ => true
  | _ => false

def RdnssParm.isLifetime : RdnssParm → Bool
  | .advRDNSSLifetime _ => true
  | _ => false

def DnsslParm.isLifetime : DnsslParm → Bool
  | .advDNSSLLifetime _ => true
  | _ => false

/-- The default lifetime of a definition that does not set its lifetime, as a
function of `MaxRtrAdvInterval`. -/
def Ifaceparam.defaultLifetime : Ifaceparam → Option (ℚ → UInt32)
  | .routedef definition =>
      if definition.parms.any RouteParm.isLifetime then none
      else some fun interval => secondsField (3 * interval)
  | .rdnssdef definition =>
      if definition.parms.any RdnssParm.isLifetime then none
      else some fun interval => secondsField (3 * interval)
  | .dnssldef definition =>
      if definition.parms.any DnsslParm.isLifetime then none
      else some fun interval => secondsField (3 * interval)
  | .nat64prefixdef definition =>
      if definition.parms ≠ [] then none
      else some fun interval => secondsField (min 65528 (3 * interval))
  | _ => none

/-- A field that no statement assigns. -/
theorem foldlM_keep {σ τ : Type} {step : σ → τ → Parsing σ} {set : σ → σ}
    (kept : ∀ state parm, step (set state) parm = (step state parm).map set) (state : σ)
    (parms : List τ) : parms.foldlM step (set state) = (parms.foldlM step state).map set := by
  have unassigned : parms.any (fun _ => false) = false := by simp
  rw [@foldlM_set σ τ step set (fun _ => false) (fun _ _ sets => by cases sets)
    (fun state parm _ => kept state parm), unassigned]
  rfl

section

variable (other : Interface)

theorem routedef_eq (definition : RouteDef) :
    routedef other definition = (routedef iface definition).map fun route =>
      if definition.parms.any RouteParm.isLifetime then route
      else { route with advRouteLifetime := secondsField (3 * other.maxRtrAdvInterval) } := by
  let set (route : AdvRoute) : AdvRoute :=
    { route with advRouteLifetime := secondsField (3 * other.maxRtrAdvInterval) }
  have assigned : ∀ route parm, parm.isLifetime = true →
      routeparms (set route) parm = routeparms route parm := by
    intro route parm sets
    cases parm <;> first | rfl | cases sets
  have kept : ∀ route parm, parm.isLifetime = false →
      routeparms (set route) parm = (routeparms route parm).map set := by
    intro route parm keeps
    cases parm <;> first | rfl | cases keeps
  have head : routehead other definition = (routehead iface definition).map set := by
    simp only [routehead, require]
    cases token definition.len.num with
    | error refusal => rfl
    | ok len =>
        simp only [ok_bind]
        split <;> rfl
  unfold routedef
  rw [head]
  cases routehead iface definition with
  | error refusal => rfl
  | ok route => exact foldlM_set assigned kept route definition.parms

theorem rdnssdef_eq (definition : RdnssDef) :
    rdnssdef other definition = (rdnssdef iface definition).map fun rdnss =>
      if definition.parms.any RdnssParm.isLifetime then rdnss
      else { rdnss with advRDNSSLifetime := secondsField (3 * other.maxRtrAdvInterval) } := by
  let set (rdnss : AdvRDNSS) : AdvRDNSS :=
    { rdnss with advRDNSSLifetime := secondsField (3 * other.maxRtrAdvInterval) }
  have assigned : ∀ rdnss parm, parm.isLifetime = true →
      rdnssparms (set rdnss) parm = rdnssparms rdnss parm := by
    intro rdnss parm sets
    cases parm <;> first | rfl | cases sets
  have kept : ∀ rdnss parm, parm.isLifetime = false →
      rdnssparms (set rdnss) parm = (rdnssparms rdnss parm).map set := by
    intro rdnss parm keeps
    cases parm with
    | advRDNSSPreference text =>
        simp only [rdnssparms]
        cases token text.num <;> rfl
    | advRDNSSOpenFlag value => rfl
    | advRDNSSLifetime text => cases keeps
    | flushRDNSS value => rfl
  have addr : ∀ rdnss addr, rdnssaddr (set rdnss) addr = (rdnssaddr rdnss addr).map set := by
    intro rdnss addr
    simp only [rdnssaddr, require, set]
    split <;> rfl
  have addrs := foldlM_keep addr (rdnssInitDefaults iface) (definition.first :: definition.rest)
  have defaults : set (rdnssInitDefaults iface) = rdnssInitDefaults other := rfl
  unfold rdnssdef
  rw [← defaults, addrs]
  cases (definition.first :: definition.rest).foldlM rdnssaddr (rdnssInitDefaults iface) with
  | error refusal => rfl
  | ok rdnss => exact foldlM_set assigned kept rdnss definition.parms

theorem dnssldef_eq (definition : DnsslDef) :
    dnssldef other definition = (dnssldef iface definition).map fun dnssl =>
      if definition.parms.any DnsslParm.isLifetime then dnssl
      else { dnssl with advDNSSLLifetime := secondsField (3 * other.maxRtrAdvInterval) } := by
  let set (dnssl : AdvDNSSL) : AdvDNSSL :=
    { dnssl with advDNSSLLifetime := secondsField (3 * other.maxRtrAdvInterval) }
  have assigned : ∀ dnssl parm, parm.isLifetime = true →
      dnsslparms (set dnssl) parm = dnsslparms dnssl parm := by
    intro dnssl parm sets
    cases parm <;> first | rfl | cases sets
  have kept : ∀ dnssl parm, parm.isLifetime = false →
      dnsslparms (set dnssl) parm = (dnsslparms dnssl parm).map set := by
    intro dnssl parm keeps
    cases parm <;> first | rfl | cases keeps
  have suffix : ∀ dnssl text, dnsslsuffix (set dnssl) text = (dnsslsuffix dnssl text).map set := by
    intro dnssl text
    simp only [dnsslsuffix, require, set]
    split <;> rfl
  have suffixes := foldlM_keep suffix (dnsslInitDefaults iface)
    (definition.first :: definition.rest)
  have defaults : set (dnsslInitDefaults iface) = dnsslInitDefaults other := rfl
  unfold dnssldef
  rw [← defaults, suffixes]
  cases (definition.first :: definition.rest).foldlM dnsslsuffix (dnsslInitDefaults iface) with
  | error refusal => rfl
  | ok dnssl => exact foldlM_set assigned kept dnssl definition.parms

theorem secondsField_le (interval : ℚ) : secondsField (min 65528 interval) ≤ 65528 := by
  have floor : (min 65528 interval).floor ≤ 65528 := by
    have le : (min 65528 interval).floor ≤ (65528 : ℚ).floor :=
      Rat.floor_monotone (min_le_left (65528 : ℚ) interval)
    exact le.trans (by decide)
  unfold secondsField
  rw [UInt32.le_iff_toNat_le, UInt32.toNat_ofNat_of_lt' (by simp only [UInt32.size]; omega)]
  change _ ≤ 65528
  omega

theorem nat64prefixdef_eq (definition : Nat64prefixDef) :
    nat64prefixdef other definition = (nat64prefixdef iface definition).map fun entry =>
      if definition.parms ≠ [] then entry
      else
        { entry with
          advValidLifetime := secondsField (min 65528 (3 * other.maxRtrAdvInterval))
          currValidlft := secondsField (min 65528 (3 * other.maxRtrAdvInterval)) } := by
  let lifetime := secondsField (min 65528 (3 * other.maxRtrAdvInterval))
  let set (entry : NAT64Prefix) : NAT64Prefix := { entry with advValidLifetime := lifetime }
  let setCurr (entry : NAT64Prefix) : NAT64Prefix := { entry with currValidlft := lifetime }
  have assigned : ∀ entry text, true = true →
      nat64prefixparms (set entry) text = nat64prefixparms entry text := fun _ _ _ => rfl
  have kept : ∀ entry text,
      nat64prefixparms (setCurr entry) text = (nat64prefixparms entry text).map setCurr := by
    intro entry text
    simp only [nat64prefixparms, require]
    cases token text.num with
    | error refusal => rfl
    | ok value =>
        simp only [ok_bind]
        split <;> rfl
  have head : nat64prefixhead other definition =
      (nat64prefixhead iface definition).map (setCurr ∘ set) := by
    simp only [nat64prefixhead, require]
    cases token definition.len.num with
    | error refusal => rfl
    | ok len =>
        simp only [ok_bind]
        split
        · simp only [ok_bind]
          split
          · simp only [ok_bind]
            split <;> rfl
          · rfl
        · rfl
  unfold nat64prefixdef
  rw [head]
  rcases read : nat64prefixhead iface definition with refusal | entry
  · rfl
  simp only [Except.map, ok_bind, Function.comp_apply]
  cases parms : definition.parms with
  | nil =>
      simp only [nat64prefixhead, bind_eq_ok, pure_eq_ok] at read
      rcases read with ⟨len, -, -, -, -, -, -, -, rfl⟩
      have small := secondsField_le (3 * iface.maxRtrAdvInterval)
      have small' : lifetime ≤ 65528 := secondsField_le (3 * other.maxRtrAdvInterval)
      simp only [List.foldlM_nil, ok_bind, pure, Except.pure, require, nat64prefixInitDefaults,
        small, decide_true, if_true, setCurr, set, small', ne_eq, not_true_eq_false, if_false]
      rfl
  | cons first rest =>
      have some : (first :: rest).any (fun _ => true) = true := by simp
      rw [foldlM_keep kept, @foldlM_set _ _ nat64prefixparms set (fun _ => true) assigned
        (fun _ _ keeps => by cases keeps), some]
      cases (first :: rest).foldlM nat64prefixparms entry with
      | error refusal => rfl
      | ok last =>
          simp only [Except.map, ok_bind, if_true, require, setCurr, ne_eq, reduceCtorEq,
            not_false_eq_true]
          split <;> rfl

end

/-! ## What a statement reads -/

/-- What a statement puts in its place. -/
def effect (iface : Interface) (param : Ifaceparam) : Parsing param.kind.Cell :=
  (ifaceparam iface param).map (cell · param.kind)

theorem map_eq_ok {α β : Type} {read : Parsing α} {f : α → β} {result : β} :
    read.map f = .ok result ↔ ∃ value, read = .ok value ∧ f value = result := by
  cases read <;> simp [Except.map]

theorem ifaceparam_eq_ok {param : Ifaceparam} {after : Interface} :
    ifaceparam iface param = .ok after ↔
      ∃ content, effect iface param = .ok content ∧ after = put iface param.kind content := by
  constructor
  · intro read
    refine ⟨cell after param.kind, ?_, eq_put_of_ifaceparam read⟩
    rw [effect, read]
    rfl
  · rintro ⟨content, effected, rfl⟩
    rw [effect, map_eq_ok] at effected
    rcases effected with ⟨after, read, rfl⟩
    rw [read, ← eq_put_of_ifaceparam read]

/-- The effect of a definition, by the list it is added to. -/
theorem map_added {α β : Type} {read : Parsing α} {added : α → Interface} {view : Interface → β} :
    (read >>= fun entry => pure (added entry)).map view = read.map fun entry => view (added entry) := by
  cases read <;> rfl

theorem effect_congr {param : Ifaceparam} (same : cell iface param.kind = cell other param.kind)
    (lifetime : ∀ default, param.defaultLifetime = some default →
      default iface.maxRtrAdvInterval = default other.maxRtrAdvInterval) :
    effect iface param = effect other param := by
  cases param with
  | ifaceval value =>
      cases value
      all_goals
        simp only [effect, ifaceparam, ifaceval, map_added]
        rfl
  | prefixdef definition =>
      replace same : iface.advPrefixList = other.advPrefixList := same
      simp only [effect, ifaceparam, map_added, same]
      rfl
  | clientslist first rest =>
      replace same : iface.clientList = other.clientList := same
      simp only [effect, ifaceparam, same]
      rfl
  | routedef definition =>
      replace same : iface.advRouteList = other.advRouteList := same
      have read : routedef other definition = routedef iface definition := by
        refine (@routedef_eq iface other definition).trans ?_
        refine Eq.trans ?_ (@routedef_eq iface iface definition).symm
        by_cases sets : definition.parms.any RouteParm.isLifetime = true
        · simp only [sets, if_true]
        · rw [lifetime _ (if_neg sets)]
      simp only [effect, ifaceparam, map_added, same, read]
      rfl
  | rdnssdef definition =>
      replace same : iface.advRDNSSList = other.advRDNSSList := same
      have read : rdnssdef other definition = rdnssdef iface definition := by
        refine (@rdnssdef_eq iface other definition).trans ?_
        refine Eq.trans ?_ (@rdnssdef_eq iface iface definition).symm
        by_cases sets : definition.parms.any RdnssParm.isLifetime = true
        · simp only [sets, if_true]
        · rw [lifetime _ (if_neg sets)]
      simp only [effect, ifaceparam, map_added, same, read]
      rfl
  | dnssldef definition =>
      replace same : iface.advDNSSLList = other.advDNSSLList := same
      have read : dnssldef other definition = dnssldef iface definition := by
        refine (@dnssldef_eq iface other definition).trans ?_
        refine Eq.trans ?_ (@dnssldef_eq iface iface definition).symm
        by_cases sets : definition.parms.any DnsslParm.isLifetime = true
        · simp only [sets, if_true]
        · rw [lifetime _ (if_neg sets)]
      simp only [effect, ifaceparam, map_added, same, read]
      rfl
  | lowpancodef definition =>
      replace same : iface.advLowpanCoList = other.advLowpanCoList := same
      simp only [effect, ifaceparam, map_added, same]
      rfl
  | abrodef definition =>
      replace same : iface.advAbroList = other.advAbroList := same
      simp only [effect, ifaceparam, map_added, same]
      rfl
  | rasrcaddresslist first rest =>
      replace same : iface.advRASrcAddressList = other.advRASrcAddressList := same
      simp only [effect, ifaceparam, same]
      rfl
  | nat64prefixdef definition =>
      replace same : iface.nat64PrefixList = other.nat64PrefixList := same
      have read : nat64prefixdef other definition = nat64prefixdef iface definition := by
        refine (@nat64prefixdef_eq iface other definition).trans ?_
        refine Eq.trans ?_ (@nat64prefixdef_eq iface iface definition).symm
        by_cases sets : definition.parms ≠ []
        · simp only [if_pos sets]
        · rw [lifetime _ (if_neg sets)]
      simp only [effect, ifaceparam, map_added, same, read]
      rfl
  | ignoreprefixlist first rest =>
      replace same : iface.ignorePrefixList = other.ignorePrefixList := same
      simp only [effect, ifaceparam, map_added, same]
      rfl

/-! ## The lifetimes of definitions -/

/-- The lifetimes of the definitions of a kind that has a default for them. -/
def lifetimes (iface : Interface) : Kind → List UInt32
  | .routedef => iface.advRouteList.map (·.advRouteLifetime)
  | .rdnssdef => iface.advRDNSSList.map (·.advRDNSSLifetime)
  | .dnssldef => iface.advDNSSLList.map (·.advDNSSLLifetime)
  | .nat64prefixdef => iface.nat64PrefixList.map (·.advValidLifetime)
  | _ => []

/-- The lifetimes that are there stay. -/
theorem lifetimes_isPrefix {param : Ifaceparam} {after : Interface}
    (read : ifaceparam iface param = .ok after) (kind : Kind) :
    lifetimes iface kind <+: lifetimes after kind := by
  have kept : kind ≠ param.kind → lifetimes after kind = lifetimes iface kind := by
    intro differ
    have same : cell after kind = cell iface kind := by
      rw [eq_put_of_ifaceparam read]
      exact cell_put_of_ne differ _
    cases kind
    case routedef => exact congrArg (List.map _) same
    case rdnssdef => exact congrArg (List.map _) same
    case dnssldef => exact congrArg (List.map _) same
    case nat64prefixdef => exact congrArg (List.map _) same
    all_goals rfl
  by_cases differ : kind = param.kind
  · subst differ
    cases param with
    | ifaceval value => cases value <;> exact List.prefix_rfl
    | routedef definition =>
        simp only [ifaceparam, bind_eq_ok, pure_eq_ok] at read
        rcases read with ⟨entry, -, rfl⟩
        exact (List.prefix_append _ _).map _
    | rdnssdef definition =>
        simp only [ifaceparam, bind_eq_ok, pure_eq_ok] at read
        rcases read with ⟨entry, -, rfl⟩
        exact (List.prefix_append _ _).map _
    | dnssldef definition =>
        simp only [ifaceparam, bind_eq_ok, pure_eq_ok] at read
        rcases read with ⟨entry, -, rfl⟩
        exact (List.prefix_append _ _).map _
    | nat64prefixdef definition =>
        simp only [ifaceparam, bind_eq_ok, pure_eq_ok] at read
        rcases read with ⟨entry, -, rfl⟩
        exact (List.prefix_append _ _).map _
    | _ => exact List.prefix_rfl
  · exact ⟨[], by rw [List.append_nil, kept differ]⟩

theorem lifetimes_prefix_of_ifaceparams {params : List Ifaceparam} {after : Interface}
    (read : ifaceparams iface params = .ok after) (kind : Kind) :
    lifetimes iface kind <+: lifetimes after kind := by
  induction params generalizing iface with
  | nil =>
      cases read
      exact List.prefix_rfl
  | cons param rest ih =>
      simp only [ifaceparams, List.foldlM_cons, bind_eq_ok] at read
      rcases read with ⟨next, first, later⟩
      exact (lifetimes_isPrefix first kind).trans (ih later)

/-- A definition that does not set its lifetime gets the default. -/
theorem lifetimes_of_defaultLifetime {param : Ifaceparam} {after : Interface}
    {default : ℚ → UInt32} (read : ifaceparam iface param = .ok after)
    (takes : param.defaultLifetime = some default) :
    lifetimes after param.kind =
      lifetimes iface param.kind ++ [default iface.maxRtrAdvInterval] := by
  cases param with
  | routedef definition =>
      simp only [Ifaceparam.defaultLifetime] at takes
      split at takes
      · cases takes
      rename_i sets
      cases takes
      simp only [ifaceparam, bind_eq_ok, pure_eq_ok] at read
      rcases read with ⟨entry, parsed, rfl⟩
      rw [@routedef_eq iface iface, map_eq_ok] at parsed
      rcases parsed with ⟨route, -, rfl⟩
      simp [lifetimes, Ifaceparam.kind, sets]
  | rdnssdef definition =>
      simp only [Ifaceparam.defaultLifetime] at takes
      split at takes
      · cases takes
      rename_i sets
      cases takes
      simp only [ifaceparam, bind_eq_ok, pure_eq_ok] at read
      rcases read with ⟨entry, parsed, rfl⟩
      rw [@rdnssdef_eq iface iface, map_eq_ok] at parsed
      rcases parsed with ⟨route, -, rfl⟩
      simp [lifetimes, Ifaceparam.kind, sets]
  | dnssldef definition =>
      simp only [Ifaceparam.defaultLifetime] at takes
      split at takes
      · cases takes
      rename_i sets
      cases takes
      simp only [ifaceparam, bind_eq_ok, pure_eq_ok] at read
      rcases read with ⟨entry, parsed, rfl⟩
      rw [@dnssldef_eq iface iface, map_eq_ok] at parsed
      rcases parsed with ⟨route, -, rfl⟩
      simp [lifetimes, Ifaceparam.kind, sets]
  | nat64prefixdef definition =>
      simp only [Ifaceparam.defaultLifetime] at takes
      split at takes
      · cases takes
      rename_i sets
      cases takes
      simp only [ifaceparam, bind_eq_ok, pure_eq_ok] at read
      rcases read with ⟨entry, parsed, rfl⟩
      rw [@nat64prefixdef_eq iface iface, map_eq_ok] at parsed
      rcases parsed with ⟨route, -, rfl⟩
      simp [lifetimes, Ifaceparam.kind, sets]
  | _ => cases takes

end

end Radvd.Grammar
