import Mathlib.Data.List.Basic

/-!
# Machines that read a list and write a list

A machine reads its input symbol by symbol; each symbol changes its state and
makes it write some output. `Reads` says what a machine writes on an input and
where it ends, `Reads.append` puts inputs together and `Reads.split` takes them
apart.
-/

namespace Transducer

universe u v w

variable {State : Type u} {Input : Type v} {Output : Type w}

def run (next : State → Input → List Output × State) (state : State) :
    List Input → List Output × State
  | [] => ([], state)
  | symbol :: rest =>
      let (written, after) := next state symbol
      let (later, last) := run next after rest
      (written ++ later, last)

/-- On `input` the machine goes from `before` to `after` and writes `written`. -/
def Reads (next : State → Input → List Output × State) (before : State) (input : List Input)
    (written : List Output) (after : State) : Prop :=
  run next before input = (written, after)

variable {next : State → Input → List Output × State} {before middle after : State}
  {input rest : List Input} {written later : List Output}

theorem run_append (next : State → Input → List Output × State) (state : State)
    (input rest : List Input) :
    run next state (input ++ rest) =
      ((run next state input).1 ++ (run next (run next state input).2 rest).1,
        (run next (run next state input).2 rest).2) := by
  induction input generalizing state with
  | nil => rfl
  | cons symbol others ih => simp [run, ih]

theorem Reads.append (first : Reads next before input written middle)
    (second : Reads next middle rest later after) :
    Reads next before (input ++ rest) (written ++ later) after := by
  unfold Reads at first second ⊢
  simp only [run_append, first, second]

theorem Reads.split (whole : Reads next before (input ++ rest) written after) :
    ∃ first middle later, Reads next before input first middle ∧
      Reads next middle rest later after ∧ written = first ++ later := by
  unfold Reads at whole
  rw [run_append, Prod.mk.injEq] at whole
  exact ⟨_, _, _, rfl, Prod.ext rfl whole.2, whole.1.symm⟩

theorem Reads.unique {other : List Output} {last : State}
    (first : Reads next before input written after)
    (second : Reads next before input other last) : written = other ∧ after = last := by
  unfold Reads at first second
  rw [first, Prod.mk.injEq] at second
  exact second

/-- A first symbol that writes nothing. -/
theorem Reads.cons {symbol : Input} (silent : next before symbol = ([], middle))
    (second : Reads next middle rest later after) :
    Reads next before (symbol :: rest) later after := by
  unfold Reads at second ⊢
  simp [run, silent, second]

/-- An input whose symbols all leave the state as it is and write nothing. -/
theorem Reads.of_stays (stays : ∀ symbol ∈ input, next before symbol = ([], before)) :
    Reads next before input [] before := by
  induction input with
  | nil => rfl
  | cons symbol others ih =>
      apply Reads.cons (stays symbol List.mem_cons_self)
      exact ih fun other otherMem => stays other (List.mem_cons_of_mem symbol otherMem)

end Transducer
