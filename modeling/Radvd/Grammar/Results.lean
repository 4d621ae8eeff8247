import Mathlib.Data.List.Forall2
import Radvd.Ageing
import Radvd.Grammar.Kinds

/-!
# What the parser leaves in an interface

The lists of an interface hold one entry for each definition, in the order of
the definitions (`Defined`), and what the checks of the grammar and the sizes of
the scanner's buffers say about the entries.
-/

namespace Radvd.Grammar

open Wire

/-! ## Definitions of a block -/

def Ifaceparam.asPrefixdef : Ifaceparam → Option PrefixDef
  | .prefixdef definition => some definition
  | _ => none

def prefixdefs (params : List Ifaceparam) : List PrefixDef :=
  params.filterMap Ifaceparam.asPrefixdef

def Ifaceparam.asRoutedef : Ifaceparam → Option RouteDef
  | .routedef definition => some definition
  | _ => none

def routedefs (params : List Ifaceparam) : List RouteDef :=
  params.filterMap Ifaceparam.asRoutedef

def Ifaceparam.asRdnssdef : Ifaceparam → Option RdnssDef
  | .rdnssdef definition => some definition
  | _ => none

def rdnssdefs (params : List Ifaceparam) : List RdnssDef :=
  params.filterMap Ifaceparam.asRdnssdef

def Ifaceparam.asDnssldef : Ifaceparam → Option DnsslDef
  | .dnssldef definition => some definition
  | _ => none

def dnssldefs (params : List Ifaceparam) : List DnsslDef :=
  params.filterMap Ifaceparam.asDnssldef

def Ifaceparam.asLowpancodef : Ifaceparam → Option LowpancoDef
  | .lowpancodef definition => some definition
  | _ => none

def lowpancodefs (params : List Ifaceparam) : List LowpancoDef :=
  params.filterMap Ifaceparam.asLowpancodef

def Ifaceparam.asAbrodef : Ifaceparam → Option AbroDef
  | .abrodef definition => some definition
  | _ => none

def abrodefs (params : List Ifaceparam) : List AbroDef :=
  params.filterMap Ifaceparam.asAbrodef

def Ifaceparam.asNat64prefixdef : Ifaceparam → Option Nat64prefixDef
  | .nat64prefixdef definition => some definition
  | _ => none

def nat64prefixdefs (params : List Ifaceparam) : List Nat64prefixDef :=
  params.filterMap Ifaceparam.asNat64prefixdef

theorem kept_of_kind {iface after : Interface} {param : Ifaceparam} {kind : Kind}
    (read : ifaceparam iface param = .ok after) (differ : kind ≠ param.kind) :
    cell after kind = cell iface kind := by
  rw [eq_put_of_ifaceparam read]
  exact cell_put_of_ne differ _

/-- If every block adds its entries to a list, and the other statements are of
another kind, then the list is that of the blocks. -/
theorem blocks_of_ifaceparams {δ α : Type} {gives : δ → List α → Prop} {kind : Kind}
    (pick : Ifaceparam → Option δ) (view : kind.Cell → List α)
    (others : ∀ param, pick param = none → kind ≠ param.kind)
    (added : ∀ iface after param block, pick param = some block →
      ifaceparam iface param = .ok after →
      ∃ entries, gives block entries ∧
        view (cell after kind) = view (cell iface kind) ++ entries)
    {iface after : Interface} {params : List Ifaceparam}
    (read : ifaceparams iface params = .ok after) :
    ∃ blocks, List.Forall₂ gives (params.filterMap pick) blocks ∧
      view (cell after kind) = view (cell iface kind) ++ blocks.flatten := by
  induction params generalizing iface with
  | nil =>
      cases read
      exact ⟨[], .nil, by simp⟩
  | cons param rest ih =>
      simp only [ifaceparams, List.foldlM_cons, bind_eq_ok] at read
      rcases read with ⟨next, first, later⟩
      rcases ih later with ⟨blocks, given, viewed⟩
      rcases picked : pick param with _ | block
      · rw [List.filterMap_cons_none picked]
        exact ⟨blocks, given, by rw [viewed, kept_of_kind first (others param picked)]⟩
      · rcases added _ _ _ _ picked first with ⟨entries, given', viewed'⟩
        rw [List.filterMap_cons_some picked]
        refine ⟨entries :: blocks, .cons given' given, ?_⟩
        rw [viewed, viewed', List.append_assoc, List.flatten_cons]

/-- If every statement that defines an entry adds it to a list, and the others
are of another kind, then the list is that of the definitions. -/
theorem entries_of_ifaceparams {δ α : Type} {defined : δ → α → Prop} {kind : Kind}
    (pick : Ifaceparam → Option δ) (view : kind.Cell → List α)
    (others : ∀ param, pick param = none → kind ≠ param.kind)
    (added : ∀ iface after param definition, pick param = some definition →
      ifaceparam iface param = .ok after →
      ∃ entry, defined definition entry ∧
        view (cell after kind) = view (cell iface kind) ++ [entry])
    {iface after : Interface} {params : List Ifaceparam}
    (empty : view (cell iface kind) = []) (read : ifaceparams iface params = .ok after) :
    List.Forall₂ defined (params.filterMap pick) (view (cell after kind)) := by
  have single : ∀ iface after param definition, pick param = some definition →
      ifaceparam iface param = .ok after →
      ∃ entries, (∃ entry, defined definition entry ∧ entries = [entry]) ∧
        view (cell after kind) = view (cell iface kind) ++ entries := by
    intro iface after param definition picked read
    rcases added iface after param definition picked read with ⟨entry, defines, viewed⟩
    exact ⟨[entry], ⟨entry, defines, rfl⟩, viewed⟩
  rcases blocks_of_ifaceparams pick view others single read with ⟨blocks, given, viewed⟩
  rw [viewed, empty, List.nil_append]
  clear viewed
  generalize params.filterMap pick = definitions at given ⊢
  induction given with
  | nil => exact .nil
  | cons defines _ ih =>
      rcases defines with ⟨entry, defines, rfl⟩
      exact .cons defines ih

/-- The entries of an interface are those of the definitions of its block. A
default lifetime depends on the interface as it is when the entry is read. -/
structure Defined (params : List Ifaceparam) (iface : Interface) : Prop where
  prefixes : List.Forall₂ (fun definition entry => prefixdef definition = .ok entry)
    (prefixdefs params) iface.advPrefixList
  routes : List.Forall₂ (fun definition entry => ∃ iface, routedef iface definition = .ok entry)
    (routedefs params) iface.advRouteList
  rdnss : List.Forall₂ (fun definition entry => ∃ iface, rdnssdef iface definition = .ok entry)
    (rdnssdefs params) iface.advRDNSSList
  dnssl : List.Forall₂ (fun definition entry => ∃ iface, dnssldef iface definition = .ok entry)
    (dnssldefs params) iface.advDNSSLList
  lowpanco : List.Forall₂ (fun definition entry => lowpancodef definition = .ok entry)
    (lowpancodefs params) iface.advLowpanCoList
  abro : List.Forall₂ (fun definition entry => abrodef definition = .ok entry)
    (abrodefs params) iface.advAbroList
  nat64prefixes : List.Forall₂
    (fun definition entry => ∃ iface, nat64prefixdef iface definition = .ok entry)
    (nat64prefixdefs params) iface.nat64PrefixList

/-- A statement that defines no entry of a list is of another kind. -/
structure PassedBy (param : Ifaceparam) : Prop where
  prefixdef : param.asPrefixdef = none → Kind.prefixdef ≠ param.kind
  routedef : param.asRoutedef = none → Kind.routedef ≠ param.kind
  rdnssdef : param.asRdnssdef = none → Kind.rdnssdef ≠ param.kind
  dnssldef : param.asDnssldef = none → Kind.dnssldef ≠ param.kind
  lowpancodef : param.asLowpancodef = none → Kind.lowpancodef ≠ param.kind
  abrodef : param.asAbrodef = none → Kind.abrodef ≠ param.kind
  nat64prefixdef : param.asNat64prefixdef = none → Kind.nat64prefixdef ≠ param.kind

theorem passedBy (param : Ifaceparam) : PassedBy param := by
  constructor
  all_goals
    intro picked same
    cases param with
    | ifaceval value => cases value <;> cases same
    | _ => cases same <;> cases picked

theorem defined_of_ifaceparams {start iface : Interface} {params : List Ifaceparam}
    (empty : start.advPrefixList = [] ∧ start.advRouteList = [] ∧ start.advRDNSSList = [] ∧
      start.advDNSSLList = [] ∧ start.advLowpanCoList = [] ∧ start.advAbroList = [] ∧
      start.nat64PrefixList = [])
    (read : ifaceparams start params = .ok iface) : Defined params iface := by
  rcases empty with ⟨noPrefix, noRoute, noRdnss, noDnssl, noLowpanco, noAbro, noNat64⟩
  constructor
  case prefixes =>
    apply @entries_of_ifaceparams _ _ _ .prefixdef Ifaceparam.asPrefixdef id _ _ _ _ _ noPrefix read
    · intro param
      exact (passedBy param).prefixdef
    · intro before after param definition picked read
      cases param <;> cases picked
      simp only [ifaceparam, bind_eq_ok, pure_eq_ok] at read
      rcases read with ⟨entry, parsed, rfl⟩
      exact ⟨entry, parsed, rfl⟩
  case routes =>
    apply @entries_of_ifaceparams _ _ _ .routedef Ifaceparam.asRoutedef id _ _ _ _ _ noRoute read
    · intro param
      exact (passedBy param).routedef
    · intro before after param definition picked read
      cases param <;> cases picked
      simp only [ifaceparam, bind_eq_ok, pure_eq_ok] at read
      rcases read with ⟨entry, parsed, rfl⟩
      exact ⟨entry, ⟨before, parsed⟩, rfl⟩
  case rdnss =>
    apply @entries_of_ifaceparams _ _ _ .rdnssdef Ifaceparam.asRdnssdef id _ _ _ _ _ noRdnss read
    · intro param
      exact (passedBy param).rdnssdef
    · intro before after param definition picked read
      cases param <;> cases picked
      simp only [ifaceparam, bind_eq_ok, pure_eq_ok] at read
      rcases read with ⟨entry, parsed, rfl⟩
      exact ⟨entry, ⟨before, parsed⟩, rfl⟩
  case dnssl =>
    apply @entries_of_ifaceparams _ _ _ .dnssldef Ifaceparam.asDnssldef id _ _ _ _ _ noDnssl read
    · intro param
      exact (passedBy param).dnssldef
    · intro before after param definition picked read
      cases param <;> cases picked
      simp only [ifaceparam, bind_eq_ok, pure_eq_ok] at read
      rcases read with ⟨entry, parsed, rfl⟩
      exact ⟨entry, ⟨before, parsed⟩, rfl⟩
  case lowpanco =>
    apply @entries_of_ifaceparams _ _ _ .lowpancodef Ifaceparam.asLowpancodef id _ _ _ _ _ noLowpanco read
    · intro param
      exact (passedBy param).lowpancodef
    · intro before after param definition picked read
      cases param <;> cases picked
      simp only [ifaceparam, bind_eq_ok, pure_eq_ok] at read
      rcases read with ⟨entry, parsed, rfl⟩
      exact ⟨entry, parsed, rfl⟩
  case abro =>
    apply @entries_of_ifaceparams _ _ _ .abrodef Ifaceparam.asAbrodef id _ _ _ _ _ noAbro read
    · intro param
      exact (passedBy param).abrodef
    · intro before after param definition picked read
      cases param <;> cases picked
      simp only [ifaceparam, bind_eq_ok, pure_eq_ok] at read
      rcases read with ⟨entry, parsed, rfl⟩
      exact ⟨entry, parsed, rfl⟩
  case nat64prefixes =>
    apply @entries_of_ifaceparams _ _ _ .nat64prefixdef Ifaceparam.asNat64prefixdef id _ _ _ _ _ noNat64 read
    · intro param
      exact (passedBy param).nat64prefixdef
    · intro before after param definition picked read
      cases param <;> cases picked
      simp only [ifaceparam, bind_eq_ok, pure_eq_ok] at read
      rcases read with ⟨entry, parsed, rfl⟩
      exact ⟨entry, ⟨before, parsed⟩, rfl⟩

/-! ## The entries -/

theorem forall₂_mem_right {α β : Type} {relation : α → β → Prop} {left : List α} {right : List β}
    (related : List.Forall₂ relation left right) {entry : β} (member : entry ∈ right) :
    ∃ definition ∈ left, relation definition entry := by
  induction related with
  | nil => cases member
  | cons here _ ih =>
      rcases List.mem_cons.mp member with rfl | later
      · exact ⟨_, List.mem_cons_self .., here⟩
      · rcases ih later with ⟨definition, member, defines⟩
        exact ⟨definition, List.mem_cons_of_mem _ member, defines⟩

/-- What every statement keeps holds after all of them. -/
theorem foldlM_invariant {σ τ : Type} {step : σ → τ → Parsing σ} {inv : σ → Prop}
    (kept : ∀ state parm next, step state parm = .ok next → inv state → inv next)
    {state last : σ} {parms : List τ} (read : parms.foldlM step state = .ok last)
    (initial : inv state) : inv last := by
  induction parms generalizing state with
  | nil =>
      cases read
      exact initial
  | cons parm rest ih =>
      simp only [List.foldlM_cons, bind_eq_ok] at read
      rcases read with ⟨next, first, later⟩
      exact ih later (kept _ _ _ first initial)

/-- What the parser leaves in a prefix. -/
structure FreshPrefix (definition : PrefixDef) (entry : AdvPrefix) : Prop where
  addr_eq : entry.prefixAddr = definition.addr
  len_eq : definition.len.num = some entry.prefixLen.toUInt32
  len_le : entry.prefixLen ≤ 128
  valid_eq : entry.currValidlft = entry.advValidLifetime
  preferred_eq : entry.currPreferredlft = entry.advPreferredLifetime
  preferred_le : entry.advPreferredLifetime ≤ entry.advValidLifetime

theorem toUInt32_toUInt8_of_le {len : UInt32} (small : len ≤ 128) : len.toUInt8.toUInt32 = len := by
  rw [UInt32.le_iff_toNat_le] at small
  apply UInt32.toNat_inj.mp
  simp only [UInt8.toNat_toUInt32, UInt32.toNat_toUInt8]
  change len.toNat ≤ 128 at small
  omega

theorem freshPrefix_of_prefixdef {definition : PrefixDef} {entry : AdvPrefix}
    (read : prefixdef definition = .ok entry) : FreshPrefix definition entry := by
  simp only [prefixdef, prefixhead, bind_eq_ok, token_eq_ok, require_eq_ok, pure_eq_ok,
    decide_eq_true_eq] at read
  rcases read with ⟨_, ⟨len, scanned, -, small, rfl⟩, last, parms, -, ordered, -, -, rfl⟩
  let inv (entry : AdvPrefix) : Prop :=
    entry.prefixAddr = definition.addr ∧ entry.prefixLen = len.toUInt8 ∧
      entry.currValidlft = entry.advValidLifetime ∧
      entry.currPreferredlft = entry.advPreferredLifetime
  have kept : ∀ entry parm next, prefixparms entry parm = .ok next → inv entry → inv next := by
    intro entry parm next read holds
    cases parm
    all_goals
      simp only [prefixparms, bind_eq_ok, pure_eq_ok] at read
      rcases read with ⟨value, -, rfl⟩
      exact ⟨holds.1, holds.2.1, by first | rfl | exact holds.2.2.1,
        by first | rfl | exact holds.2.2.2⟩
  have holds : inv last := foldlM_invariant kept parms ⟨rfl, rfl, rfl, rfl⟩
  have short : len.toUInt8 ≤ 128 := by
    rw [UInt8.le_iff_toNat_le, UInt32.toNat_toUInt8]
    exact (Nat.mod_le _ _).trans (UInt32.le_iff_toNat_le.mp small)
  exact ⟨holds.1, by rw [holds.2.1, toUInt32_toUInt8_of_le small]; exact scanned,
    by rw [holds.2.1]; exact short, holds.2.2.1, holds.2.2.2, ordered⟩

theorem prefixLen_of_routedef {iface : Interface} {definition : RouteDef} {route : AdvRoute}
    (read : routedef iface definition = .ok route) : route.prefixLen ≤ 128 := by
  simp only [routedef, routehead, bind_eq_ok, token_eq_ok, require_eq_ok, pure_eq_ok,
    decide_eq_true_eq] at read
  rcases read with ⟨_, ⟨len, -, -, small, rfl⟩, parms⟩
  let inv (route : AdvRoute) : Prop := route.prefixLen ≤ 128
  have kept : ∀ route parm next, routeparms route parm = .ok next → inv route → inv next := by
    intro route parm next read holds
    cases parm
    all_goals
      simp only [routeparms, bind_eq_ok, pure_eq_ok] at read
      rcases read with ⟨value, -, rfl⟩
      exact holds
  apply foldlM_invariant kept parms
  change len.toUInt8 ≤ 128
  rw [UInt32.le_iff_toNat_le] at small
  rw [UInt8.le_iff_toNat_le, UInt32.toNat_toUInt8]
  change len.toNat ≤ 128 at small
  change len.toNat % 2 ^ 8 ≤ 128
  omega

theorem addrs_of_rdnssdef {iface : Interface} {definition : RdnssDef} {rdnss : AdvRDNSS}
    (read : rdnssdef iface definition = .ok rdnss) :
    rdnss.advRDNSSAddr = definition.first :: definition.rest ∧ rdnss.advRDNSSAddr.length ≤ 127 := by
  simp only [rdnssdef, bind_eq_ok] at read
  rcases read with ⟨middle, addrs, parms⟩
  have collected : ∀ (addrs : List In6Addr) (start last : AdvRDNSS),
      start.advRDNSSAddr.length ≤ 127 → addrs.foldlM rdnssaddr start = .ok last →
      last.advRDNSSAddr = start.advRDNSSAddr ++ addrs ∧ last.advRDNSSAddr.length ≤ 127 := by
    intro addrs
    induction addrs with
    | nil =>
        intro start last few read
        cases read
        exact ⟨(List.append_nil _).symm, few⟩
    | cons addr rest ih =>
        intro start last few read
        simp only [List.foldlM_cons, rdnssaddr, bind_eq_ok, require_eq_ok, pure_eq_ok,
          decide_eq_true_eq] at read
        rcases read with ⟨_, ⟨-, still, rfl⟩, later⟩
        have rest := ih _ _ (by simpa using still) later
        simpa using rest
  let inv (rdnss : AdvRDNSS) : Prop := rdnss.advRDNSSAddr = middle.advRDNSSAddr
  have kept : ∀ rdnss parm next, rdnssparms rdnss parm = .ok next → inv rdnss → inv next := by
    intro rdnss parm next read holds
    cases parm
    all_goals
      simp only [rdnssparms, bind_eq_ok, pure_eq_ok] at read
      rcases read with ⟨value, -, rfl⟩
      exact holds
  have same : rdnss.advRDNSSAddr = middle.advRDNSSAddr := foldlM_invariant kept parms rfl
  rw [same]
  exact collected _ _ _ (Nat.zero_le _) addrs

theorem StringText.str_ne_nil (text : StringText) : text.str ≠ [] := by
  have first : ∀ octet rest, octet ≠ 0 → text.yytext = octet :: rest → text.str ≠ [] := by
    intro octet rest nonzero shape empty
    rw [str, shape, List.takeWhile_cons_of_pos (by simpa using nonzero)] at empty
    cases empty
  cases text with
  | word text filled octets =>
      rcases text with _ | ⟨octet, rest⟩
      · exact absurd rfl filled
      · apply first octet rest _ rfl
        rintro rfl
        exact absurd (octets 0 (List.mem_cons_self ..)) (by decide)
  | quoted mark text inside =>
      cases mark with
      | plain => exact first Dump.doubleQuote _ (by decide) rfl
      | upper => exact first 76 _ (by decide) rfl
      | lower => exact first 108 _ (by decide) rfl

/-- The suffixes of a definition. -/
def DnsslDef.suffixes (definition : DnsslDef) : List Bytes :=
  (definition.first :: definition.rest).map StringText.str

theorem suffixes_of_dnssldef {iface : Interface} {definition : DnsslDef} {dnssl : AdvDNSSL}
    (read : dnssldef iface definition = .ok dnssl) :
    dnssl.advDNSSLSuffixes = definition.suffixes := by
  simp only [dnssldef, bind_eq_ok] at read
  rcases read with ⟨middle, suffixes, parms⟩
  have collected : ∀ (texts : List StringText) (start last : AdvDNSSL),
      texts.foldlM dnsslsuffix start = .ok last →
      last.advDNSSLSuffixes = start.advDNSSLSuffixes ++ texts.map StringText.str := by
    intro texts
    induction texts with
    | nil =>
        intro start last read
        cases read
        simp
    | cons text rest ih =>
        intro start last read
        simp only [List.foldlM_cons, dnsslsuffix, bind_eq_ok, pure_eq_ok] at read
        rcases read with ⟨_, ⟨-, -, rfl⟩, later⟩
        simpa using ih _ _ later
  let inv (dnssl : AdvDNSSL) : Prop := dnssl.advDNSSLSuffixes = middle.advDNSSLSuffixes
  have kept : ∀ dnssl parm next, dnsslparms dnssl parm = .ok next → inv dnssl → inv next := by
    intro dnssl parm next read holds
    cases parm
    all_goals
      simp only [dnsslparms, bind_eq_ok, pure_eq_ok] at read
      rcases read with ⟨value, -, rfl⟩
      exact holds
  have same : dnssl.advDNSSLSuffixes = middle.advDNSSLSuffixes := foldlM_invariant kept parms rfl
  rw [same]
  exact collected _ _ _ suffixes

theorem parsed_of_dnssldef {iface : Interface} {definition : DnsslDef} {dnssl : AdvDNSSL}
    (read : dnssldef iface definition = .ok dnssl) : dnssl.Parsed := by
  intro suffix member
  rw [suffixes_of_dnssldef read] at member
  rcases List.mem_map.mp member with ⟨text, -, rfl⟩
  exact ⟨text.str_ne_nil, text.length_str⟩

theorem length_trimQuotes (source : Bytes) : (trimQuotes source).length ≤ source.length := by
  unfold trimQuotes
  dsimp only
  split_ifs <;> simp
  omega

/-- Everything of an interface that is not set by statements, and what the
statements leave in it. -/
theorem parsed_of_ifaceparams {start iface : Interface} {params : List Ifaceparam}
    (defined : Defined params iface) (read : ifaceparams start params = .ok iface)
    (noUrl : start.advCaptivePortalAPI = none) (noDevice : start.sllao = ifaceInitDefaults.sllao) :
    iface.Parsed := by
  let inv (iface : Interface) : Prop := iface.sllao = ifaceInitDefaults.sllao ∧
    ∀ url ∈ iface.advCaptivePortalAPI, url ≠ [] ∧ url.length ≤ 255
  have kept : ∀ iface param next, ifaceparam iface param = .ok next → inv iface → inv next := by
    intro iface param next read holds
    have sllao : next.sllao = iface.sllao := by
      rw [eq_put_of_ifaceparam read]
      rfl
    refine ⟨sllao.trans holds.1, ?_⟩
    by_cases differ : Kind.advCaptivePortalAPI = param.kind
    · cases param with
      | ifaceval value =>
          cases value
          case advCaptivePortalAPI text =>
            simp only [ifaceparam, ifaceval, bind_eq_ok, require_eq_ok, pure_eq_ok,
              decide_eq_true_eq] at read
            rcases read with ⟨-, filled, rfl⟩
            intro url set
            cases set
            exact ⟨filled, (length_trimQuotes _).trans text.length_str⟩
          all_goals cases differ
      | _ => cases differ
    · have same : next.advCaptivePortalAPI = iface.advCaptivePortalAPI := kept_of_kind read differ
      rw [same]
      exact holds.2
  have holds : inv iface := foldlM_invariant kept read ⟨noDevice, by simp [noUrl]⟩
  constructor
  · intro route member
    rcases forall₂_mem_right defined.routes member with ⟨definition, -, _, parsed⟩
    exact prefixLen_of_routedef parsed
  · intro dnssl member
    rcases forall₂_mem_right defined.dnssl member with ⟨definition, -, _, parsed⟩
    exact parsed_of_dnssldef parsed
  · rw [holds.1]
    decide
  · exact holds.2

/-! ## Interfaces of the parser -/

/-- The statements of a block give the interface. -/
def Ifacedef.Gives (definition : Ifacedef) (iface : Interface) : Prop :=
  ∃ others start, ifacehead others definition.name = .ok start ∧
    ifaceparams start definition.params = .ok iface

theorem gives_of_readinConfig {first : Ifacedef} {rest : List Ifacedef} {ifaces : List Interface}
    (read : readinConfig first rest = .ok ifaces) {iface : Interface} (member : iface ∈ ifaces) :
    ∃ definition ∈ first :: rest, definition.Gives iface := by
  have all : ∀ (definitions : List Ifacedef) (before after : List Interface),
      definitions.foldlM ifacedef before = .ok after → ∀ iface ∈ after,
      iface ∈ before ∨ ∃ definition ∈ definitions, definition.Gives iface := by
    intro definitions
    induction definitions with
    | nil =>
        intro before after read iface member
        cases read
        exact .inl member
    | cons definition later ih =>
        intro before after read iface member
        simp only [List.foldlM_cons, bind_eq_ok] at read
        rcases read with ⟨middle, here, others⟩
        rcases ih _ _ others iface member with old | ⟨other, listed, gives⟩
        · simp only [ifacedef, bind_eq_ok, pure_eq_ok] at here
          rcases here with ⟨start, head, own, params, rfl⟩
          rcases List.mem_cons.mp old with rfl | old
          · exact .inr ⟨definition, List.mem_cons_self .., before, start, head, params⟩
          · exact .inl old
        · exact .inr ⟨other, List.mem_cons_of_mem _ listed, gives⟩
  rcases all _ _ _ read iface member with none | found
  · cases none
  · exact found

theorem ifacehead_eq_ok {others : List Interface} {name : StringText} {start : Interface}
    (head : ifacehead others name = .ok start) :
    start = { ifaceInitDefaults with
      props := { ifaceInitDefaults.props with name := name.ifname } } := by
  simp only [ifacehead, bind_eq_ok, require_eq_ok, pure_eq_ok] at head
  rcases head with ⟨_, -, rfl⟩
  rfl

section

variable {definition : Ifacedef} {iface : Interface}

theorem Ifacedef.Gives.defined (gives : definition.Gives iface) :
    Defined definition.params iface := by
  rcases gives with ⟨others, start, head, params⟩
  rw [ifacehead_eq_ok head] at params
  exact defined_of_ifaceparams ⟨rfl, rfl, rfl, rfl, rfl, rfl, rfl⟩ params

theorem Ifacedef.Gives.parsed (gives : definition.Gives iface) : iface.Parsed := by
  have defined := gives.defined
  rcases gives with ⟨others, start, head, params⟩
  rw [ifacehead_eq_ok head] at params
  exact parsed_of_ifaceparams defined params rfl rfl

theorem Ifacedef.Gives.stateInfo (gives : definition.Gives iface) :
    iface.stateInfo = ifaceInitDefaults.stateInfo := by
  rcases gives with ⟨others, start, head, params⟩
  rw [ifacehead_eq_ok head] at params
  apply @foldlM_invariant _ _ ifaceparam
    (fun iface => iface.stateInfo = ifaceInitDefaults.stateInfo) _ _ _ _ params rfl
  intro before param after read same
  rw [eq_put_of_ifaceparam read]
  exact same

end

end Radvd.Grammar
