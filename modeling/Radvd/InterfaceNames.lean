import Mathlib.Data.List.Nodup
import Radvd.Grammar.Results
import Radvd.System

/-!
# The names of the interfaces

`ifacehead` compares a name as the scanner passes it on with the names of the
interfaces before it, and then keeps it cut to the array of the name. A name
that fits the array is therefore refused the second time (`name_of_ifacedef`),
and a longer one is not, so that the names are unique exactly if the longer ones
differ from all names before them in what is kept (`nodup_names_iff`).
-/

namespace Radvd

open Wire Grammar

/-- The names are pairwise different, and each of them leads to its interface. -/
structure UniqueNames (ifaces : List Interface) : Prop where
  nodup : (ifaces.map fun iface => iface.props.name).Nodup
  found : ∀ position iface, ifaces[position]? = some iface →
    findIfaceByName ifaces (some iface.props.name) = some (position, iface)

theorem findIfaceByName_of_nodup {ifaces : List Interface}
    (nodup : (ifaces.map fun iface => iface.props.name).Nodup) {position : Nat} {iface : Interface}
    (placed : ifaces[position]? = some iface) :
    findIfaceByName ifaces (some iface.props.name) = some (position, iface) := by
  change findIface ifaces (fun other => other.props.name = iface.props.name) = _
  rcases found : findIface ifaces fun other => other.props.name = iface.props.name with
    _ | ⟨first, other⟩
  · simp only [findIface, Option.map_eq_none_iff, List.find?_eq_none] at found
    have listed : (iface, position) ∈ ifaces.zipIdx := List.mem_zipIdx_iff_getElem?.mpr placed
    exact absurd (decide_eq_true rfl) (found _ listed)
  · rcases findIface_spec found with ⟨listed, same⟩
    have bound := (List.getElem?_eq_some_iff.mp listed).1
    have positions : first = position := by
      apply (List.getElem?_inj (by simpa using bound) nodup).mp
      rw [List.getElem?_map, List.getElem?_map, listed, placed]
      exact congrArg some (of_decide_eq_true same)
    subst positions
    rw [listed] at placed
    cases placed
    rfl

theorem uniqueNames_iff {ifaces : List Interface} :
    UniqueNames ifaces ↔ (ifaces.map fun iface => iface.props.name).Nodup := by
  constructor
  · exact UniqueNames.nodup
  · intro nodup
    refine ⟨nodup, ?_⟩
    intro position iface placed
    exact findIfaceByName_of_nodup nodup placed

/-! ## What a definition adds -/

theorem props_of_ifaceparams {start iface : Interface} {params : List Ifaceparam}
    (read : ifaceparams start params = .ok iface) : iface.props = start.props := by
  apply @foldlM_invariant _ _ ifaceparam (fun iface => iface.props = start.props) _ _ _ _ read rfl
  intro before param after here same
  rw [eq_put_of_ifaceparam here]
  exact same

/-- The new interface is in front, under the name cut to its array, and no
interface before it is kept under the name as it is written. -/
theorem name_of_ifacedef {others after : List Interface} {definition : Ifacedef}
    (read : ifacedef others definition = .ok after) :
    ∃ iface, after = iface :: others ∧ iface.props.name = definition.name.ifname ∧
      ∀ other ∈ others, other.props.name ≠ definition.name.str := by
  simp only [ifacedef, bind_eq_ok, pure_eq_ok] at read
  rcases read with ⟨start, head, iface, params, rfl⟩
  refine ⟨iface, rfl, ?_, ?_⟩
  · rw [props_of_ifaceparams params, ifacehead_eq_ok head]
  · simp only [ifacehead, bind_eq_ok, require_eq_ok, List.all_eq_true, decide_eq_true_eq] at head
    exact head.choose_spec.1

/-- In the order of the definitions, no name is written as one before it is
kept. -/
def Checked (definitions : List Ifacedef) : Prop :=
  definitions.Pairwise fun earlier later => earlier.name.ifname ≠ later.name.str

theorem names_of_foldlM {definitions : List Ifacedef} {before after : List Interface}
    (read : definitions.foldlM ifacedef before = .ok after) :
    after.map (fun iface => iface.props.name) =
        (definitions.map fun definition => definition.name.ifname).reverse ++
          before.map (fun iface => iface.props.name) ∧
      Checked definitions ∧
      ∀ definition ∈ definitions, ∀ other ∈ before, other.props.name ≠ definition.name.str := by
  induction definitions generalizing before with
  | nil =>
      cases read
      exact ⟨by simp, .nil, by simp⟩
  | cons definition later ih =>
      simp only [List.foldlM_cons, bind_eq_ok] at read
      rcases read with ⟨middle, here, rest⟩
      rcases name_of_ifacedef here with ⟨iface, rfl, name, fresh⟩
      rcases ih rest with ⟨names, checked, freshLater⟩
      refine ⟨?_, ?_, ?_⟩
      · rw [names]
        simp [name]
      · apply List.Pairwise.cons _ checked
        intro other listed
        rw [← name]
        exact freshLater other listed iface (List.mem_cons_self ..)
      · intro other listed
        rcases List.mem_cons.mp listed with rfl | listed
        · exact fresh
        · intro old oldMem
          exact freshLater other listed old (List.mem_cons_of_mem _ oldMem)

/-! ## Unique names -/

/-- A name that is longer than the array of a name holds differs in what is kept
of it from all names before it. -/
def LongNamesDiffer (definitions : List Ifacedef) : Prop :=
  definitions.Pairwise fun earlier later =>
    15 < later.name.str.length → earlier.name.ifname ≠ later.name.ifname

/-- A name that fits is kept as it is written, so the check is about what is
kept. -/
theorem nodup_ifnames_iff {definitions : List Ifacedef} (checked : Checked definitions) :
    (definitions.map fun definition => definition.name.ifname).Nodup ↔
      LongNamesDiffer definitions := by
  unfold List.Nodup LongNamesDiffer
  rw [List.pairwise_map]
  constructor
  · intro different
    apply different.imp
    intro earlier later differ _
    exact differ
  · intro long
    apply (long.and checked).imp
    intro earlier later both
    by_cases fits : later.name.str.length ≤ 15
    · have whole : later.name.ifname = later.name.str := List.take_of_length_le fits
      rw [whole]
      exact both.2
    · exact both.1 (by omega)

theorem nodup_names_iff {first : Ifacedef} {rest : List Ifacedef} {ifaces : List Interface}
    (read : readinConfig first rest = .ok ifaces) :
    (ifaces.map fun iface => iface.props.name).Nodup ↔ LongNamesDiffer (first :: rest) := by
  rcases names_of_foldlM read with ⟨names, checked, -⟩
  rw [names, List.map_nil, List.append_nil, List.nodup_reverse]
  exact nodup_ifnames_iff checked

/-- The names of the interfaces that are read are unique exactly if every name
of more than 15 characters differs from those before it in the first 15. -/
theorem uniqueNames_readinConfig_iff {first : Ifacedef} {rest : List Ifacedef}
    {ifaces : List Interface} (read : readinConfig first rest = .ok ifaces) :
    UniqueNames ifaces ↔ LongNamesDiffer (first :: rest) := by
  rw [uniqueNames_iff]
  exact nodup_names_iff read

/-! ## A name of sixteen characters -/

/-- `veth-customer-01`. -/
def vethCustomer : StringText :=
  .word [118, 101, 116, 104, 45, 99, 117, 115, 116, 111, 109, 101, 114, 45, 48, 49] (by decide)
    (List.all_eq_true.mp (by decide))

theorem uniqueNames_eth0 :
    ∃ ifaces, readinConfig ⟨eth0, []⟩ [⟨vethCustomer, []⟩] = .ok ifaces ∧ UniqueNames ifaces := by
  have read : ∃ ifaces, readinConfig ⟨eth0, []⟩ [⟨vethCustomer, []⟩] = .ok ifaces := ⟨_, rfl⟩
  rcases read with ⟨ifaces, read⟩
  refine ⟨ifaces, read, (uniqueNames_readinConfig_iff read).mpr ?_⟩
  unfold LongNamesDiffer
  decide

/-- Two definitions of the interface `veth-customer-01` are accepted, and both are
kept as `veth-customer-0`. -/
theorem not_uniqueNames_vethCustomer :
    ∃ ifaces, readinConfig ⟨vethCustomer, []⟩ [⟨vethCustomer, []⟩] = .ok ifaces ∧
      ¬UniqueNames ifaces := by
  have read : ∃ ifaces, readinConfig ⟨vethCustomer, []⟩ [⟨vethCustomer, []⟩] = .ok ifaces :=
    ⟨_, rfl⟩
  rcases read with ⟨ifaces, read⟩
  refine ⟨ifaces, read, ?_⟩
  rw [uniqueNames_iff, nodup_names_iff read]
  unfold LongNamesDiffer
  decide

end Radvd
