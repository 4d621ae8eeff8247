import Mathlib.Algebra.Ring.Nat
import Mathlib.Data.List.Chain
import Mathlib.Tactic.Common

/-!
# Greedy packing of a sequence into bins

Items of given sizes are put into bins in order. A bin starts with `base` octets
of its own, takes its first item whatever that item's size, and then takes the
following items as long as the next one does not push it over `cap`.

The packing loses, duplicates and reorders nothing (`flatten_pack`), a bin over
`cap` holds a single item (`eq_singleton_of_cap_lt`), and an item opens a new bin
only where it did not fit in the one before (`isChain_pack`).
-/

namespace Packing

universe u v

variable {α : Type u} {β : Type v}

/-- The items a bin that already holds `used` octets still takes, and the rest. -/
def fill (size : α → Nat) (cap : Nat) (used : Nat) : List α → List α × List α
  | [] => ([], [])
  | item :: rest =>
      if cap < used + size item then ([], item :: rest)
      else
        let filled := fill size cap (used + size item) rest
        (item :: filled.1, filled.2)

variable {size : α → Nat} {cap base used : Nat}

theorem fill_cons_of_lt {item : α} {rest : List α} (exceeds : cap < used + size item) :
    fill size cap used (item :: rest) = ([], item :: rest) := by
  rw [fill, if_pos exceeds]

theorem fill_cons_of_le {item : α} {rest : List α} (fits : used + size item ≤ cap) :
    fill size cap used (item :: rest) =
      (item :: (fill size cap (used + size item) rest).1,
        (fill size cap (used + size item) rest).2) := by
  rw [fill, if_neg (by omega)]

theorem fill_append (size : α → Nat) (cap used : Nat) (items : List α) :
    (fill size cap used items).1 ++ (fill size cap used items).2 = items := by
  induction items generalizing used with
  | nil => simp [fill]
  | cons item rest ih =>
      rw [fill]
      split
      · simp
      · simpa using ih (used + size item)

theorem length_fill_snd_le (size : α → Nat) (cap used : Nat) (items : List α) :
    (fill size cap used items).2.length ≤ items.length := by
  have total := congrArg List.length (fill_append size cap used items)
  rw [List.length_append] at total
  omega

/-- The bins of the greedy packing, in order. -/
def pack (size : α → Nat) (cap base : Nat) : List α → List (List α)
  | [] => []
  | item :: rest =>
      let filled := fill size cap (base + size item) rest
      (item :: filled.1) :: pack size cap base filled.2
termination_by items => items.length
decreasing_by
  have := length_fill_snd_le size cap (base + size item) rest
  simp only [List.length_cons]
  omega

def load (size : α → Nat) (base : Nat) (bin : List α) : Nat :=
  base + (bin.map size).sum

@[simp]
theorem load_nil : load size base [] = base := by
  simp [load]

@[simp]
theorem load_cons (item : α) (bin : List α) :
    load size base (item :: bin) = load size (base + size item) bin := by
  simp [load, Nat.add_assoc]

theorem le_load {bin : List α} : base ≤ load size base bin := by
  simp [load]

theorem load_fill_le {items : List α} (took : (fill size cap used items).1 ≠ []) :
    load size used (fill size cap used items).1 ≤ cap := by
  induction items generalizing used with
  | nil => simp [fill] at took
  | cons item rest ih =>
      rw [fill] at took ⊢
      split at took
      · simp at took
      · rename_i fits
        rw [if_neg fits, load_cons]
        by_cases more : (fill size cap (used + size item) rest).1 = []
        · rw [more, load_nil]
          omega
        · exact ih more

theorem cap_lt_of_fill_snd {items rest : List α} {item : α}
    (stopped : (fill size cap used items).2 = item :: rest) :
    cap < load size used (fill size cap used items).1 + size item := by
  induction items generalizing used with
  | nil => simp [fill] at stopped
  | cons first others ih =>
      rw [fill] at stopped ⊢
      split at stopped
      · rename_i exceeds
        simp only [List.cons.injEq] at stopped
        rcases stopped with ⟨rfl, -⟩
        rw [if_pos exceeds, load_nil]
        exact exceeds
      · rename_i fits
        rw [if_neg fits, load_cons]
        exact ih stopped

@[simp]
theorem pack_nil : pack size cap base ([] : List α) = [] := by
  rw [pack]

theorem pack_cons (item : α) (rest : List α) :
    pack size cap base (item :: rest) =
      (item :: (fill size cap (base + size item) rest).1) ::
        pack size cap base (fill size cap (base + size item) rest).2 := by
  rw [pack]

/-- The packing is the sequence itself, cut into runs. -/
theorem flatten_pack (size : α → Nat) (cap base : Nat) (items : List α) :
    (pack size cap base items).flatten = items := by
  induction items using pack.induct size cap base with
  | case1 => simp
  | case2 item rest filled ih =>
      rw [pack_cons, List.flatten_cons, ih, List.cons_append, fill_append]

theorem infix_of_mem_pack {items bin : List α} (binMem : bin ∈ pack size cap base items) :
    bin <:+: items := by
  rw [← flatten_pack size cap base items]
  rcases List.append_of_mem binMem with ⟨before, after, split⟩
  rw [split, List.flatten_append, List.flatten_cons]
  exact ⟨before.flatten, after.flatten, by simp⟩

theorem ne_nil_of_mem_pack {items bin : List α} (binMem : bin ∈ pack size cap base items) :
    bin ≠ [] := by
  induction items using pack.induct size cap base with
  | case1 => simp at binMem
  | case2 item rest filled ih =>
      rw [pack_cons] at binMem
      rcases List.mem_cons.mp binMem with rfl | later
      · simp
      · exact ih later

/-- A bin over `cap` holds a single item. -/
theorem eq_singleton_of_cap_lt {items bin : List α} (binMem : bin ∈ pack size cap base items)
    (exceeds : cap < load size base bin) : ∃ item, bin = [item] := by
  induction items using pack.induct size cap base with
  | case1 => simp at binMem
  | case2 item rest filled ih =>
      rw [pack_cons] at binMem
      rcases List.mem_cons.mp binMem with rfl | later
      · by_cases took : (fill size cap (base + size item) rest).1 = []
        · exact ⟨item, by rw [took]⟩
        · have := load_fill_le took
          rw [load_cons] at exceeds
          omega
      · exact ih later

/-- An item opens a new bin only if it did not fit in the one before. -/
theorem isChain_pack (size : α → Nat) (cap base : Nat) (items : List α) :
    (pack size cap base items).IsChain fun bin next =>
      ∀ item ∈ next.head?, cap < load size base bin + size item := by
  induction items using pack.induct size cap base with
  | case1 => simp
  | case2 item rest filled ih =>
      rw [pack_cons]
      rcases stopped : (fill size cap (base + size item) rest).2 with _ | ⟨next, others⟩
      · simp
      · rw [← stopped, List.isChain_cons]
        refine ⟨?_, ih⟩
        intro bin binMem
        rw [stopped, pack_cons] at binMem
        simp only [List.head?_cons, Option.mem_def, Option.some.injEq] at binMem
        subst binMem
        intro first firstMem
        simp only [List.head?_cons, Option.mem_def, Option.some.injEq] at firstMem
        subst firstMem
        simpa using cap_lt_of_fill_snd stopped

theorem fill_eq_of_load_le {items : List α} (fits : load size used items ≤ cap) :
    fill size cap used items = (items, []) := by
  induction items generalizing used with
  | nil => rfl
  | cons item rest ih =>
      rw [load_cons] at fits
      rw [fill_cons_of_le (le_load.trans fits), ih fits]

theorem pack_eq_singleton {items : List α} (nonempty : items ≠ [])
    (fits : load size base items ≤ cap) : pack size cap base items = [items] := by
  rcases items with _ | ⟨item, rest⟩
  · exact absurd rfl nonempty
  · rw [load_cons] at fits
    rw [pack_cons, fill_eq_of_load_le fits, pack_nil]

theorem fill_map (size : β → Nat) (cap used : Nat) (f : α → β) (items : List α) :
    fill size cap used (items.map f) =
      ((fill (size ∘ f) cap used items).1.map f, (fill (size ∘ f) cap used items).2.map f) := by
  induction items generalizing used with
  | nil => simp [fill]
  | cons item rest ih =>
      simp only [List.map_cons, fill, Function.comp_apply]
      split
      · simp
      · simp [ih]

theorem pack_map (size : β → Nat) (cap base : Nat) (f : α → β) (items : List α) :
    pack size cap base (items.map f) = (pack (size ∘ f) cap base items).map (List.map f) := by
  induction items using pack.induct (size ∘ f) cap base with
  | case1 => simp
  | case2 item rest filled ih =>
      rw [List.map_cons, pack_cons, pack_cons, fill_map]
      simp only [List.map_cons]
      rw [← ih]
      rfl

theorem load_map (size : β → Nat) (base : Nat) (f : α → β) (bin : List α) :
    load size base (bin.map f) = load (size ∘ f) base bin := by
  simp [load]

end Packing
