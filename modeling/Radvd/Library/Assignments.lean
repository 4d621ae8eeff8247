import Mathlib.Data.List.Induction
import Mathlib.Logic.Function.Basic

/-!
# Assignments one after the other

Settings are read over their defaults, the last assignment of a key being the one
that counts (`assigned_apply`). Leaving out the assignments of certain values
changes nothing at a key as long as its last assignment stays, or none is left
and the default is the value that was left out (`assigned_kept_eq_iff`).
-/

namespace Assignments

universe u v

variable {Key : Type u} {Value : Type v} [DecidableEq Key]

def assign (settings : Key → Option Value) (write : Key × Value) : Key → Option Value :=
  Function.update settings write.1 (some write.2)

def assigned (settings : Key → Option Value) (writes : List (Key × Value)) : Key → Option Value :=
  writes.foldl assign settings

/-- The values that are assigned to a key, in order. -/
def valuesAt (key : Key) (writes : List (Key × Value)) : List Value :=
  writes.filterMap fun write => if write.1 = key then some write.2 else none

variable (key : Key) (settings : Key → Option Value)

theorem valuesAt_append (first second : List (Key × Value)) :
    valuesAt key (first ++ second) = valuesAt key first ++ valuesAt key second :=
  List.filterMap_append

theorem assigned_apply (writes : List (Key × Value)) :
    assigned settings writes key = ((valuesAt key writes).getLast?).or (settings key) := by
  induction writes using List.reverseRecOn with
  | nil => rfl
  | append_singleton writes last ih =>
      have step : assigned settings (writes ++ [last]) = assign (assigned settings writes) last := by
        simp [assigned]
      rw [step, valuesAt_append]
      by_cases same : last.1 = key
      · simp [valuesAt, assign, same]
      · have unchanged : assign (assigned settings writes) last key =
            assigned settings writes key := Function.update_of_ne (Ne.symm same) _ _
        have none : valuesAt key [last] = [] := by simp [valuesAt, same]
        rw [unchanged, none, List.append_nil, ih]

variable [DecidableEq Value] (omitted : Key → Option Value)

/-- The assignments without those of the omitted values. -/
def kept (writes : List (Key × Value)) : List (Key × Value) :=
  writes.filter fun write => omitted write.1 ≠ some write.2

omit [DecidableEq Key] in
theorem kept_append (first second : List (Key × Value)) :
    kept omitted (first ++ second) = kept omitted first ++ kept omitted second :=
  List.filter_append first second

theorem valuesAt_kept (writes : List (Key × Value)) :
    valuesAt key (kept omitted writes) =
      (valuesAt key writes).filter fun value => omitted key ≠ some value := by
  induction writes with
  | nil => rfl
  | cons write rest ih =>
      by_cases same : write.1 = key
      · subst same
        by_cases left : omitted write.1 = some write.2
        · simpa [valuesAt, kept, left] using ih
        · simpa [valuesAt, kept, left] using ih
      · by_cases left : omitted write.1 = some write.2
        · simpa [valuesAt, kept, left, same] using ih
        · simpa [valuesAt, kept, left, same] using ih

theorem getLast?_filter_or_eq_iff (values : List Value) (value : Value)
    (default : Option Value) :
    ((values.filter fun other => some value ≠ some other).getLast?).or default =
        (values.getLast?).or default ↔
      (values.getLast? = some value →
        (∀ other ∈ values, other = value) ∧ default = some value) := by
  induction values using List.reverseRecOn with
  | nil => simp
  | append_singleton values last _ =>
      by_cases same : value = last
      · subst same
        simp only [List.filter_append, List.filter_cons, ne_eq, not_true_eq_false, decide_false,
          Bool.false_eq_true, if_false, List.filter_nil, List.append_nil, List.getLast?_append,
          List.getLast?_singleton, Option.some_or, true_implies, List.forall_mem_append,
          List.forall_mem_singleton, and_true]
        have empty : (∀ other ∈ values, other = value) →
            values.filter (fun other => ¬some value = some other) = [] := by
          intro all
          simp only [List.filter_eq_nil_iff]
          intro other otherMem
          simp [all other otherMem]
        constructor
        · intro equal
          have all : ∀ other ∈ values, other = value := by
            by_contra different
            push Not at different
            obtain ⟨other, otherMem, otherNe⟩ := different
            have left : other ∈ values.filter fun other => ¬some value = some other :=
              List.mem_filter.mpr ⟨otherMem, by simpa using Ne.symm otherNe⟩
            have found := List.getLast?_eq_some_getLast (List.ne_nil_of_mem left)
            have lastMem := List.getLast_mem (List.ne_nil_of_mem left)
            rw [found, Option.some_or, Option.some.injEq] at equal
            rw [equal] at lastMem
            simp at lastMem
          rw [empty all] at equal
          exact ⟨all, equal⟩
        · rintro ⟨all, rfl⟩
          rw [empty all]
          rfl
      · simp [same, Ne.symm same]

theorem assigned_kept_eq_iff (writes : List (Key × Value)) :
    assigned settings (kept omitted writes) key = assigned settings writes key ↔
      ∀ value, omitted key = some value → (valuesAt key writes).getLast? = some value →
        (∀ other ∈ valuesAt key writes, other = value) ∧ settings key = some value := by
  rw [assigned_apply, assigned_apply, valuesAt_kept]
  cases left : omitted key with
  | none =>
      have all : (valuesAt key writes).filter (fun value => none ≠ some value) =
          valuesAt key writes := List.filter_eq_self.mpr (by simp)
      rw [all]
      simp
  | some value =>
      rw [getLast?_filter_or_eq_iff]
      simp

end Assignments
