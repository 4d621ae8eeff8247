import Radvd.Library.Wire

/-!
# Uncompressed domain names

A name is a sequence of labels, each after its length, with a zero octet at the
end. The lengths make the labels of any octets the only ones with these octets
(`labels_unique`), and a sequence of names cannot be read as one of as many other
sequences of labels (`groups_unique`).
-/

namespace Names

open Wire

/-- A label after its length. -/
def labelOctets (label : Bytes) : Bytes :=
  UInt8.ofNat label.length :: label

def nameOctets (labels : List Bytes) : Bytes :=
  labels.flatMap labelOctets ++ [0]

/-- A domain name of at least one label. -/
structure IsName (labels : List Bytes) : Prop where
  nonempty : labels ≠ []
  label_pos : ∀ label ∈ labels, 1 ≤ label.length
  label_le : ∀ label ∈ labels, label.length ≤ 63
  short : (nameOctets labels).length ≤ 255

instance (labels : List Bytes) : Decidable (IsName labels) :=
  decidable_of_iff (labels ≠ [] ∧ (∀ label ∈ labels, 1 ≤ label.length) ∧
      (∀ label ∈ labels, label.length ≤ 63) ∧ (nameOctets labels).length ≤ 255)
    ⟨fun all => ⟨all.1, all.2.1, all.2.2.1, all.2.2.2⟩,
      fun name => ⟨name.nonempty, name.label_pos, name.label_le, name.short⟩⟩

theorem IsName.notMem {labels : List Bytes} (name : IsName labels) : [] ∉ labels := by
  intro member
  exact absurd (name.label_pos [] member) (by decide)

theorem nameOctets_cons (label : Bytes) (labels : List Bytes) :
    nameOctets (label :: labels) = labelOctets label ++ nameOctets labels := by
  simp [nameOctets]

theorem nameOctets_eq (labels : List Bytes) :
    nameOctets labels = (labels ++ [[]]).flatMap labelOctets := by
  rw [nameOctets, List.flatMap_append]
  rfl

theorem labels_unique {first second : List Bytes} (firstBound : ∀ label ∈ first, label.length ≤ 255)
    (secondBound : ∀ label ∈ second, label.length ≤ 255)
    (same : first.flatMap labelOctets = second.flatMap labelOctets) : first = second := by
  induction first generalizing second with
  | nil =>
      rcases second with _ | ⟨label, rest⟩
      · rfl
      · cases same
  | cons label rest ih =>
      rcases second with _ | ⟨label', rest'⟩
      · cases same
      rw [List.forall_mem_cons] at firstBound secondBound
      simp only [List.flatMap_cons, labelOctets, List.cons_append, List.cons.injEq] at same
      have lengths := congrArg UInt8.toNat same.1
      rw [UInt8.toNat_ofNat_of_lt' (Nat.lt_succ_of_le firstBound.1),
        UInt8.toNat_ofNat_of_lt' (Nat.lt_succ_of_le secondBound.1)] at lengths
      rcases List.append_inj same.2 lengths with ⟨rfl, others⟩
      rw [ih firstBound.2 secondBound.2 others]

/-- Splitting at the terminators gives back the names. -/
theorem splitOn_groups (groups : List (List Bytes)) :
    (groups.flatMap (· ++ [[]])).splitOn [] = groups.flatMap (List.splitOn []) ++ [[]] := by
  induction groups with
  | nil => rfl
  | cons group rest ih =>
      rw [List.flatMap_cons, List.append_assoc, List.singleton_append,
        List.splitOn_append_cons_self, ih, List.flatMap_cons, List.append_assoc]

theorem flatMap_splitOn {names : List (List Bytes)} (notMem : ∀ labels ∈ names, [] ∉ labels) :
    names.flatMap (List.splitOn []) = names := by
  induction names with
  | nil => rfl
  | cons labels rest ih =>
      rw [List.forall_mem_cons] at notMem
      rw [List.flatMap_cons, List.splitOn_eq_singleton notMem.1, ih notMem.2]
      rfl

theorem eq_of_flatMap_splitOn {groups names : List (List Bytes)}
    (same : groups.flatMap (List.splitOn []) = names) (length : groups.length = names.length) :
    groups = names := by
  have all : ∀ rest : List (List Bytes),
      rest.length ≤ (rest.flatMap (List.splitOn [])).length ∧
        ((rest.flatMap (List.splitOn [])).length = rest.length →
          rest.flatMap (List.splitOn []) = rest) := by
    intro rest
    induction rest with
    | nil => exact ⟨Nat.le_refl _, fun _ => rfl⟩
    | cons group rest ih =>
        have positive := List.length_pos_iff.mpr (List.splitOn_ne_nil [] group)
        rw [List.flatMap_cons, List.length_append, List.length_cons]
        refine ⟨by omega, ?_⟩
        intro total
        rcases List.length_eq_one_iff.mp (by omega : (group.splitOn []).length = 1) with
          ⟨only, single⟩
        have back : List.intercalate [[]] (group.splitOn []) = group := List.intercalate_splitOn []
        rw [single] at back
        rw [single, ih.2 (by omega), ← back]
        simp
  rw [← same, (all groups).2 (by rw [same, length])]

theorem groups_unique {groups names : List (List Bytes)}
    (groupsBound : ∀ group ∈ groups, ∀ label ∈ group, label.length ≤ 255)
    (isName : ∀ labels ∈ names, IsName labels) (length : groups.length = names.length)
    (same : groups.flatMap nameOctets = names.flatMap nameOctets) : groups = names := by
  have flat : ∀ all : List (List Bytes),
      all.flatMap nameOctets = (all.flatMap (· ++ [[]])).flatMap labelOctets := by
    intro all
    rw [List.flatMap_assoc]
    exact congrArg (all.flatMap ·) (funext nameOctets_eq)
  have bound : ∀ all : List (List Bytes), (∀ group ∈ all, ∀ label ∈ group, label.length ≤ 255) →
      ∀ label ∈ all.flatMap (· ++ [[]]), label.length ≤ 255 := by
    intro all each label member
    rcases List.mem_flatMap.mp member with ⟨group, listed, inside⟩
    rcases List.mem_append.mp inside with own | last
    · exact each group listed label own
    · rw [List.mem_singleton.mp last]
      exact Nat.zero_le _
  rw [flat, flat] at same
  have labels := labels_unique (bound groups groupsBound)
    (bound names fun labels member label own =>
      Nat.le_trans ((isName labels member).label_le label own) (by decide)) same
  have split := congrArg (List.splitOn []) labels
  rw [splitOn_groups, splitOn_groups,
    flatMap_splitOn fun labels member => (isName labels member).notMem] at split
  exact eq_of_flatMap_splitOn (List.append_cancel_right split) length

end Names
