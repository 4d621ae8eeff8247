import Mathlib.Data.List.Forall2

/-!
# Predictive parsers

A reader takes a value from the beginning of its input. It is exact for a relation
between values and texts if it takes just the texts of the relation (`Exact`). That is
kept by the ways to put readers together, so that a parser is exact for its grammar
if the readers of its symbols are.
-/

namespace Predictive

universe u v w

abbrev Reader (τ : Type u) (α : Type v) :=
  List τ → Option (α × List τ)

variable {τ : Type u} {α : Type v} {β : Type w}

/-- The reader takes what the relation says, and nothing else. -/
def Exact (reader : Reader τ α) (yields : α → List τ → Prop) : Prop :=
  ∀ input value rest, reader input = some (value, rest) ↔
    ∃ part, yields value part ∧ input = part ++ rest

section

variable {reader : Reader τ α} {yields other : α → List τ → Prop}

theorem Exact.read (exact : Exact reader yields) {value : α} {part : List τ}
    (yielded : yields value part) (rest : List τ) : reader (part ++ rest) = some (value, rest) :=
  (exact (part ++ rest) value rest).mpr ⟨part, yielded, rfl⟩

theorem Exact.congr (exact : Exact reader yields)
    (same : ∀ value part, yields value part ↔ other value part) : Exact reader other := by
  intro input value rest
  rw [exact]
  simp only [same]

end

/-! ## Sequences -/

def Reader.followedBy (first : Reader τ α) (next : Reader τ β) : Reader τ (α × β) := fun input =>
  (first input).bind fun taken => (next taken.2).map fun last => ((taken.1, last.1), last.2)

def Reader.as (reader : Reader τ α) (convert : α → β) : Reader τ β := fun input =>
  (reader input).map fun taken => (convert taken.1, taken.2)

section

variable {first : Reader τ α} {next : Reader τ β} {yields : α → List τ → Prop}
  {yieldsNext : β → List τ → Prop}

theorem Exact.followedBy (exact : Exact first yields) (exactNext : Exact next yieldsNext) :
    Exact (first.followedBy next) fun value part =>
      ∃ front, yields value.1 front ∧ ∃ back, yieldsNext value.2 back ∧ part = front ++ back := by
  intro input value rest
  simp only [Reader.followedBy, Option.bind_eq_some_iff, Option.map_eq_some_iff]
  constructor
  · rintro ⟨⟨one, middle⟩, read, ⟨two, last⟩, readNext, same⟩
    cases same
    rcases (exact _ _ _).mp read with ⟨front, yielded, rfl⟩
    rcases (exactNext _ _ _).mp readNext with ⟨back, yieldedNext, same⟩
    refine ⟨front ++ back, ⟨front, yielded, back, yieldedNext, rfl⟩, ?_⟩
    rw [List.append_assoc, ← same]
  · rintro ⟨_, ⟨front, yielded, back, yieldedNext, rfl⟩, rfl⟩
    rw [List.append_assoc]
    exact ⟨_, exact.read yielded _, _, exactNext.read yieldedNext _, rfl⟩

theorem Exact.as (exact : Exact first yields) (convert : α → β) :
    Exact (first.as convert) fun value part => ∃ source, convert source = value ∧
      yields source part := by
  intro input value rest
  simp only [Reader.as, Option.map_eq_some_iff]
  constructor
  · rintro ⟨⟨source, last⟩, read, same⟩
    cases same
    rcases (exact _ _ _).mp read with ⟨part, yielded, rfl⟩
    exact ⟨part, ⟨source, rfl, yielded⟩, rfl⟩
  · rintro ⟨part, ⟨source, rfl, yielded⟩, rfl⟩
    exact ⟨_, exact.read yielded rest, rfl⟩

/-- The values of both have one text each. -/
theorem Exact.append {texts : α → List τ} {textsNext : β → List τ}
    (exact : Exact first fun value part => part = texts value)
    (exactNext : Exact next fun value part => part = textsNext value) :
    Exact (first.followedBy next) fun value part =>
      part = texts value.1 ++ textsNext value.2 := by
  apply (exact.followedBy exactNext).congr
  intro value part
  constructor
  · rintro ⟨_, rfl, _, rfl, same⟩
    exact same
  · intro same
    exact ⟨_, rfl, _, rfl, same⟩

/-- The same values in another form. -/
theorem Exact.via (exact : Exact first yields) {convert : α → β} (back : β → α)
    (left : ∀ source, back (convert source) = source)
    (right : ∀ value, convert (back value) = value) :
    Exact (first.as convert) fun value part => yields (back value) part := by
  apply (exact.as convert).congr
  intro value part
  constructor
  · rintro ⟨source, rfl, yielded⟩
    rw [left]
    exact yielded
  · intro yielded
    exact ⟨back value, right value, yielded⟩

end

/-! ## Repetitions -/

/-- Items up to an end, which is looked for before each item. -/
def many (stop : List τ → Option (List τ)) (item : Reader τ α) (input : List τ) :
    Option (List α × List τ) :=
  match stop input with
  | some rest => some ([], rest)
  | none =>
      match item input with
      | none => none
      | some (value, rest) =>
          if rest.length < input.length then
            (many stop item rest).map fun taken => (value :: taken.1, taken.2)
          else none
termination_by input.length

/-- No item begins like an end. -/
def Apart (stop : List τ → Option (List τ)) (yields : α → List τ → Prop) : Prop :=
  ∀ value part, yields value part → part ≠ [] ∧ ∀ rest, stop (part ++ rest) = none

section

variable {stop : List τ → Option (List τ)} {item : Reader τ α} {yields : α → List τ → Prop}

theorem many_eq_some_iff (exact : Exact item yields) (apart : Apart stop yields)
    {input last : List τ} {values : List α} :
    many stop item input = some (values, last) ↔ ∃ parts rest,
      List.Forall₂ yields values parts ∧ input = parts.flatten ++ rest ∧ stop rest = some last := by
  constructor
  · intro read
    fun_induction many stop item input generalizing values last with
    | case1 input rest stopped =>
        cases read
        exact ⟨[], input, .nil, rfl, stopped⟩
    | case2 => cases read
    | case3 input _ value middle taken _ ih =>
        simp only [Option.map_eq_some_iff] at read
        rcases read with ⟨⟨others, last⟩, later, same⟩
        cases same
        rcases (exact _ _ _).mp taken with ⟨part, yielded, rfl⟩
        rcases ih later with ⟨parts, rest, all, same, stopped⟩
        refine ⟨part :: parts, rest, .cons yielded all, ?_, stopped⟩
        rw [same, List.flatten_cons, List.append_assoc]
    | case4 => cases read
  · rintro ⟨parts, rest, all, rfl, stopped⟩
    induction all with
    | nil =>
        rw [many, List.flatten_nil, List.nil_append, stopped]
    | @cons value part values parts yielded _ ih =>
        rw [List.flatten_cons, List.append_assoc, many, (apart value part yielded).2]
        have positive := List.length_pos_iff.mpr (apart value part yielded).1
        have shorter : (parts.flatten ++ rest).length < (part ++ (parts.flatten ++ rest)).length := by
          simp only [List.length_append]
          omega
        simp only [exact.read yielded, shorter, if_true, ih, Option.map_some]

theorem forall₂_eq_map {texts : α → List τ} {values : List α} {parts : List (List τ)} :
    List.Forall₂ (fun value part => part = texts value) values parts ↔
      parts = values.map texts := by
  constructor
  · intro all
    induction all with
    | nil => rfl
    | cons same _ ih => rw [same, ih, List.map_cons]
  · rintro rfl
    induction values with
    | nil => exact .nil
    | cons value values ih => exact .cons rfl ih

/-- Items with one text each, up to a fixed end. -/
theorem Exact.many {texts : α → List τ} {ending : List τ}
    (exact : Exact item fun value part => part = texts value)
    (stops : ∀ {input rest}, stop input = some rest ↔ input = ending ++ rest)
    (apart : ∀ value, texts value ≠ [] ∧ ∀ rest, stop (texts value ++ rest) = none) :
    Exact (Predictive.many stop item) fun values part =>
      part = values.flatMap texts ++ ending := by
  intro input values last
  have entries : Apart stop fun value part => part = texts value := by
    rintro value _ rfl
    exact apart value
  simp only [many_eq_some_iff exact entries, stops, forall₂_eq_map]
  constructor
  · rintro ⟨_, _, rfl, rfl, rfl⟩
    exact ⟨_, rfl, by rw [List.append_assoc, List.flatMap_def]⟩
  · rintro ⟨_, rfl, rfl⟩
    exact ⟨_, _, rfl, by rw [List.append_assoc, List.flatMap_def], rfl⟩

end

end Predictive
