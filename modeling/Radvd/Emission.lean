import Radvd.IfaceRuns
import Radvd.PrefixLifetimes
import Radvd.Send.Limits

/-!
# What is configured is advertised

The options of an RA and the definitions of the configuration it is built from
(`emitsAll_iff`). Every list but those of 6LoWPAN contexts and of border routers
is emitted in a loop; of these two only the first element is.
-/

namespace Radvd

open Wire Tlv Grammar SafeBufferList

/-! ## Options and definitions -/

/-- The octets of the option for a definition. -/
def rdnssSize (definition : RdnssDef) : Nat :=
  8 + 16 * (definition.rest.length + 1)

def namesSize (definition : DnsslDef) : Nat :=
  (definition.suffixes.map suffixSize).sum

def dnsslOptionSize (definition : DnsslDef) : Nat :=
  (8 + namesSize definition + 7) / 8 * 8

/-- The options of each type are those of the definitions of its kind, one for
each and in their order, where RDNSS and DNSSL options longer than 2040 octets are
left out. -/
structure EmitsAll (params : List Ifaceparam) (kernel : Kernel) (options : List Bytes) : Prop where
  prefixes : List.Forall₂ (fun definition option => ∃ entry current,
      prefixdef definition = .ok entry ∧ SameConfig entry current ∧
        option = prefixBlock (limitPrefixLifetimes kernel current) false)
    (prefixdefs params) (ofType ndOptPrefixInformation options)
  nat64prefixes : List.Forall₂ (fun definition option => ∃ iface entry,
      nat64prefixdef iface definition = .ok entry ∧ option = nat64prefixBlock entry)
    (nat64prefixdefs params) (ofType ndOptPref64 options)
  routes : List.Forall₂ (fun definition option => ∃ iface entry,
      routedef iface definition = .ok entry ∧ option = routeBlock entry false)
    (routedefs params) (ofType ndOptRouteInformation options)
  rdnss : List.Forall₂ (fun definition option => ∃ iface entry,
      rdnssdef iface definition = .ok entry ∧ option = rdnssBlock entry false)
    ((rdnssdefs params).filter (rdnssSize · ≤ 2040)) (ofType ndOptRdnssInformation options)
  dnssl : List.Forall₂ (fun definition option => ∃ iface entry,
      dnssldef iface definition = .ok entry ∧ option = dnsslBlock entry false)
    ((dnssldefs params).filter (dnsslOptionSize · ≤ 2040)) (ofType ndOptDnsslInformation options)
  lowpanco : List.Forall₂ (fun definition option => ∃ entry,
      lowpancodef definition = .ok entry ∧ option = lowpancoBlock entry)
    (lowpancodefs params) (ofType ndOpt6co options)
  abro : List.Forall₂ (fun definition option => ∃ entry,
      abrodef definition = .ok entry ∧ option = abroBlock entry)
    (abrodefs params) (ofType ndOptAbro options)

theorem forall₂_comp {α β γ : Type} {first : α → β → Prop} {second : β → γ → Prop}
    {left : List α} {middle : List β} {right : List γ} (one : List.Forall₂ first left middle)
    (two : List.Forall₂ second middle right) :
    List.Forall₂ (fun a c => ∃ b, first a b ∧ second b c) left right := by
  induction one generalizing right with
  | nil =>
      cases two
      exact .nil
  | cons here _ ih =>
      cases two with
      | cons there later => exact .cons ⟨_, here, there⟩ (ih later)

/-- The blocks for the entries that are kept are those for the definitions that
are. -/
theorem forall₂_filter_map {α β : Type} {defined : α → β → Prop} {encode : β → Bytes}
    {keepsDefinition : α → Bool} {keepsEntry : β → Bool} {definitions : List α} {entries : List β}
    (all : List.Forall₂ defined definitions entries)
    (agree : ∀ definition entry, defined definition entry →
      keepsDefinition definition = keepsEntry entry) :
    List.Forall₂ (fun definition option => ∃ entry, defined definition entry ∧
      option = encode entry) (definitions.filter keepsDefinition)
      ((entries.filter keepsEntry).map encode) := by
  rw [List.forall₂_map_right_iff]
  induction all with
  | nil => exact .nil
  | @cons definition entry _ _ here _ ih =>
      have same := agree definition entry here
      by_cases kept : keepsEntry entry = true
      · rw [List.filter_cons_of_pos (same.trans kept), List.filter_cons_of_pos kept]
        exact .cons ⟨entry, here, rfl⟩ ih
      · rw [List.filter_cons_of_neg (by rw [same]; exact kept), List.filter_cons_of_neg kept]
        exact ih

theorem forall₂_map {α β : Type} {defined : α → β → Prop} {encode : β → Bytes}
    {definitions : List α} {entries : List β} (all : List.Forall₂ defined definitions entries) :
    List.Forall₂ (fun definition option => ∃ entry, defined definition entry ∧
      option = encode entry) definitions (entries.map encode) := by
  rw [List.forall₂_map_right_iff]
  exact all.imp fun _ entry defines => ⟨entry, defines, rfl⟩

/-- A list of which only the first element is emitted is emitted in full if it has
no other. -/
theorem forall₂_head {α β : Type} {defined : α → β → Prop} {encode : β → Bytes}
    {definitions : List α} {entries : List β} (all : List.Forall₂ defined definitions entries)
    (single : definitions.length ≤ 1) :
    List.Forall₂ (fun definition option => ∃ entry, defined definition entry ∧
      option = encode entry) definitions (entries.head?.map encode).toList := by
  have lengths := all.length_eq
  have whole : (entries.head?.map encode).toList = entries.map encode := by
    rcases entries with _ | ⟨entry, _ | ⟨other, rest⟩⟩
    · rfl
    · rfl
    · simp only [List.length_cons] at lengths
      omega
  rw [whole]
  exact forall₂_map all

/-! ## Sizes -/

theorem rdnssBytes_eq {iface : Interface} {definition : RdnssDef} {entry : AdvRDNSS}
    (read : rdnssdef iface definition = .ok entry) : rdnssBytes entry = rdnssSize definition := by
  rw [rdnssBytes, (addrs_of_rdnssdef read).1, List.length_cons]
  rfl

theorem dnsslBytes_eq_namesSize {iface : Interface} {definition : DnsslDef} {entry : AdvDNSSL}
    (read : dnssldef iface definition = .ok entry) : dnsslBytes entry = namesSize definition := by
  rw [dnsslBytes_eq (parsed_of_dnssldef read), suffixesSize, suffixes_of_dnssldef read]
  rfl

/-- The domain names of every definition fit in the buffer that they are written
to before their length is compared. -/
def NamesFit (params : List Ifaceparam) : Prop :=
  ∀ definition ∈ dnssldefs params, namesSize definition + 7 ≤ 64 * 1024

theorem dnsslFits_iff_namesFit {params : List Ifaceparam} {iface : Interface}
    (defined : Defined params iface) : iface.DnsslFits ↔ NamesFit params := by
  have all := defined.dnssl
  unfold Interface.DnsslFits NamesFit AdvDNSSL.Fits
  generalize iface.advDNSSLList = entries at all
  generalize dnssldefs params = definitions at all
  induction all with
  | nil => simp
  | cons here _ ih =>
      rcases here with ⟨_, read⟩
      simp only [List.forall_mem_cons, ih, dnsslBytes_eq_namesSize read]

/-! ## The options of an RA -/

theorem prefixBlocks_of_literal {kernel : Kernel} {iface : Interface} {entries : List AdvPrefix}
    (literal : ∀ entry ∈ entries, entry.isLiteral = true)
    (alive : ∀ entry ∈ entries, entry.decrementLifetimesFlag = true → 0 < entry.currPreferredlft)
    (ceaseAdv : Bool) :
    prefixBlocks kernel iface ceaseAdv entries =
      entries.map fun entry => prefixBlock (limitPrefixLifetimes kernel entry) ceaseAdv := by
  have single : ∀ entry ∈ entries,
      advertisedPrefixes kernel iface entry = [limitPrefixLifetimes kernel entry] := by
    intro entry member
    have carried : (!entry.decrementLifetimesFlag || entry.currPreferredlft > 0) = true := by
      rcases decrements : entry.decrementLifetimesFlag with _ | _
      · rfl
      · simpa using alive entry member decrements
    rw [advertisedPrefixes_eq, if_pos carried, prefixCandidates, if_pos (literal entry member)]
    rfl
  rw [prefixBlocks, List.flatMap_congr single, List.map_flatMap]
  simp only [List.map_eq_flatMap, List.flatMap_singleton]

theorem ofType_blocks {order : ByteOrder} {kernel : Kernel} {iface : Interface} {dest : In6Addr}
    {sbl : SafeBufferList} (parsed : iface.Parsed)
    (built : buildRaOptions order kernel iface dest = .ok sbl) {type : UInt8} (typed : type ≠ 0) :
    ofType type sbl.blocks = ofType type (allOptions order kernel iface) := by
  rw [← filter_blocks parsed built]
  unfold ofType
  rw [List.filter_filter]
  apply List.filter_congr
  intro option _
  by_cases empty : option = []
  · subst empty
    simp [optionType, typed.symm]
  · simp [empty]

/-- At most one option is emitted for 6LoWPAN contexts and for border routers. -/
theorem single_of_emitsAll {order : ByteOrder} {kernel : Kernel} {iface : Interface}
    {dest : In6Addr} {sbl : SafeBufferList} {params : List Ifaceparam} (parsed : iface.Parsed)
    (built : buildRaOptions order kernel iface dest = .ok sbl)
    (emits : EmitsAll params kernel sbl.blocks) :
    (lowpancodefs params).length ≤ 1 ∧ (abrodefs params).length ≤ 1 := by
  have lowpanco := emits.lowpanco.length_eq
  have abro := emits.abro.length_eq
  rw [ofType_blocks parsed built (by decide)] at lowpanco abro
  rw [ofType_lowpanco parsed, Option.length_toList] at lowpanco
  rw [ofType_abro parsed, Option.length_toList] at abro
  rw [lowpanco, abro]
  constructor <;> split <;> omega

/-- An interface that is ready and on which all prefixes are literal and alive. -/
def Plain (iface : Interface) : Prop :=
  iface.stateInfo.ready = true ∧ iface.stateInfo.ceaseAdv = false ∧
    (∀ entry ∈ iface.advPrefixList, entry.isLiteral = true) ∧
    ∀ entry ∈ iface.advPrefixList,
      entry.decrementLifetimesFlag = true → 0 < entry.currPreferredlft

instance (iface : Interface) : Decidable (Plain iface) :=
  inferInstanceAs (Decidable (_ ∧ _))

/-- All definitions of an interface are advertised if and only if there is at most
one of a 6LoWPAN context, at most one of a border router, and the domain names of
every DNSSL definition fit in their buffer. -/
theorem emitsAll_iff {definition : Ifacedef} {parsed iface : Interface}
    (gives : definition.Gives parsed) (derived : Derived parsed iface)
    (plain : Plain iface) (order : ByteOrder) (kernel : Kernel) (dest : In6Addr) :
    (∃ sbl, buildRaOptions order kernel iface dest = .ok sbl ∧
        EmitsAll definition.params kernel sbl.blocks) ↔
      (lowpancodefs definition.params).length ≤ 1 ∧ (abrodefs definition.params).length ≤ 1 ∧
        NamesFit definition.params := by
  rcases plain with ⟨ready, running, literal, alive⟩
  have defined := gives.defined
  have isParsed := derived.parsed_of_ready gives.parsed ready
  have dnsslList := derived.same Interface.advDNSSLList fun _ => rfl
  have fits : iface.DnsslFits ↔ NamesFit definition.params := by
    rw [← dnsslFits_iff_namesFit defined]
    unfold Interface.DnsslFits
    rw [dnsslList]
  have lowpanco := defined.lowpanco
  have abro := defined.abro
  rw [← derived.same Interface.advLowpanCoList fun _ => rfl] at lowpanco
  rw [← derived.same Interface.advAbroList fun _ => rfl] at abro
  constructor
  · rintro ⟨sbl, built, emits⟩
    have single := single_of_emitsAll isParsed built emits
    refine ⟨single.1, single.2, ?_⟩
    apply fits.mp
    by_contra exceeds
    rw [buildRaOptions_error order kernel dest isParsed exceeds] at built
    cases built
  · rintro ⟨oneLowpanco, oneAbro, names⟩
    rcases buildRaOptions_ok order kernel dest isParsed (fits.mpr names) with ⟨sbl, built, -⟩
    refine ⟨sbl, built, ?_⟩
    constructor
    all_goals rw [ofType_blocks isParsed built (by decide)]
    case prefixes =>
      rw [ofType_prefixes isParsed, running, prefixBlocks_of_literal literal alive]
      apply (forall₂_map (forall₂_comp defined.prefixes derived.prefixes)).imp
      rintro definition option ⟨current, ⟨entry, read, same⟩, rfl⟩
      exact ⟨entry, current, read, same, rfl⟩
    case nat64prefixes =>
      rw [ofType_nat64 isParsed, derived.same Interface.nat64PrefixList fun _ => rfl]
      apply (forall₂_map defined.nat64prefixes).imp
      rintro definition option ⟨entry, ⟨iface, read⟩, rfl⟩
      exact ⟨iface, entry, read, rfl⟩
    case routes =>
      rw [ofType_route isParsed, running, derived.same Interface.advRouteList fun _ => rfl]
      apply (forall₂_map defined.routes).imp
      rintro definition option ⟨entry, ⟨iface, read⟩, rfl⟩
      exact ⟨iface, entry, read, rfl⟩
    case rdnss =>
      rw [ofType_rdnss isParsed, running, derived.same Interface.advRDNSSList fun _ => rfl,
        rdnssBlocks]
      apply (forall₂_filter_map defined.rdnss _).imp
      · rintro definition option ⟨entry, ⟨iface, read⟩, rfl⟩
        exact ⟨iface, entry, read, rfl⟩
      · rintro definition entry ⟨iface, read⟩
        rw [rdnssBytes_eq read, rdnssSize, decide_eq_decide]
        omega
    case dnssl =>
      rw [ofType_dnssl isParsed, running, dnsslList, dnsslBlocks]
      apply (forall₂_filter_map defined.dnssl _).imp
      · rintro definition option ⟨entry, ⟨iface, read⟩, rfl⟩
        exact ⟨iface, entry, read, rfl⟩
      · rintro definition entry ⟨iface, read⟩
        rw [dnsslBytes_eq_namesSize read, dnsslOptionSize, dnsslLen, decide_eq_decide]
        omega
    case lowpanco =>
      rw [ofType_lowpanco isParsed]
      exact forall₂_head lowpanco oneLowpanco
    case abro =>
      rw [ofType_abro isParsed]
      exact forall₂_head abro oneAbro

/-- The documentation prefix and a 6LoWPAN context for each of the identifiers. -/
def contexts (identifiers : List (Fin 10)) : Ifacedef :=
  ⟨eth0, .ifaceval (.advSendAdvert true) ::
    .prefixdef ⟨documentationPrefix.prefixAddr, ⟨6, [4]⟩, []⟩ ::
    identifiers.map fun identifier => .lowpancodef ⟨[.advContextID ⟨identifier, []⟩]⟩⟩

theorem emitsAll_contexts :
    ∃ ifaces parsed iface, readinConfig (contexts [1]) [] = .ok ifaces ∧ parsed ∈ ifaces ∧
      IfaceStep parsed (.setUp .ethernet) iface ∧ Plain iface ∧
      ∃ sbl, buildRaOptions .littleEndian .silent iface allHostsAddr = .ok sbl ∧
        EmitsAll (contexts [1]).params .silent sbl.blocks := by
  have found : (prepared (contexts [1])).map (fun seen => decide (Plain seen.2)) = some true := by
    with_unfolding_all decide
  rcases exists_prepared found with ⟨ifaces, parsed, iface, read, member, step, plain⟩
  rw [decide_eq_true_eq] at plain
  have spec := prepared_spec read member step
  have emits := emitsAll_iff spec.1 spec.2 plain .littleEndian .silent allHostsAddr
  refine ⟨ifaces, parsed, iface, read, member, step, plain, emits.mpr ⟨?_, ?_, ?_⟩⟩
  · decide
  · decide
  · exact fun _ none => absurd none List.not_mem_nil

/-- Of two contexts only the first is advertised. -/
theorem not_emitsAll_contexts :
    ∃ ifaces parsed iface sbl, readinConfig (contexts [1, 2]) [] = .ok ifaces ∧
      parsed ∈ ifaces ∧ IfaceStep parsed (.setUp .ethernet) iface ∧ Plain iface ∧
      buildRaOptions .littleEndian .silent iface allHostsAddr = .ok sbl ∧
      (lowpancodefs (contexts [1, 2]).params).length = 2 ∧
      (ofType ndOpt6co sbl.blocks).length = 1 ∧
      ¬EmitsAll (contexts [1, 2]).params .silent sbl.blocks := by
  have found : (prepared (contexts [1, 2])).map (fun seen => (decide (Plain seen.2),
      (buildRaOptions .littleEndian .silent seen.2 allHostsAddr).toOption.map fun sbl =>
        (ofType ndOpt6co sbl.blocks).length)) = some (true, some 1) := by
    with_unfolding_all decide
  rcases exists_prepared found with ⟨ifaces, parsed, iface, read, member, step, seen⟩
  simp only [Prod.mk.injEq, decide_eq_true_eq] at seen
  have spec := prepared_spec read member step
  have isParsed := spec.2.parsed_of_ready spec.1.parsed seen.1.1
  rcases built : buildRaOptions .littleEndian .silent iface allHostsAddr with exit | sbl
  · rw [built] at seen
    cases seen.2
  · rw [built] at seen
    refine ⟨ifaces, parsed, iface, sbl, read, member, step, seen.1, built, rfl,
      Option.some_inj.mp seen.2, fun emits => ?_⟩
    exact absurd (single_of_emitsAll isParsed built emits).1 (by decide)

end Radvd
