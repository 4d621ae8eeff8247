import Mathlib.Logic.Basic

/-!
# Runs of a transition system

Finite runs of a labelled transition relation, the rule that lifts what one step
preserves to whole runs, and runs whose steps all meet a condition.
-/

namespace Runs

universe u v

variable {σ : Type u} {ε : Type v}

inductive Run (step : σ → ε → σ → Prop) : σ → List ε → σ → Prop where
  | nil (state : σ) : Run step state [] state
  | cons {state next last : σ} {event : ε} {events : List ε} (first : step state event next)
      (rest : Run step next events last) : Run step state (event :: events) last

variable {step : σ → ε → σ → Prop} {state middle last : σ} {events later : List ε}

/-- What every step preserves holds at the end of a run that starts with it. -/
theorem Run.invariant {inv : σ → Prop} (run : Run step state events last)
    (preserved : ∀ state event next, step state event next → inv state → inv next)
    (initial : inv state) : inv last := by
  induction run with
  | nil => exact initial
  | cons first _ ih => exact ih (preserved _ _ _ first initial)

theorem Run.append (run : Run step state events middle) (more : Run step middle later last) :
    Run step state (events ++ later) last := by
  induction run with
  | nil => exact more
  | cons first _ ih => exact .cons first (ih more)

theorem Run.mono {step' : σ → ε → σ → Prop} (run : Run step state events last)
    (larger : ∀ state event next, step state event next → step' state event next) :
    Run step' state events last := by
  induction run with
  | nil state => exact .nil state
  | cons first _ ih => exact .cons (larger _ _ _ first) ih

theorem Run.of_append (run : Run step state (events ++ later) last) :
    ∃ middle, Run step state events middle ∧ Run step middle later last := by
  induction events generalizing state with
  | nil => exact ⟨state, .nil state, run⟩
  | cons event events ih =>
      cases run with
      | cons first rest =>
          rcases ih rest with ⟨middle, front, back⟩
          exact ⟨middle, .cons first front, back⟩

/-- The steps that meet `condition` in the state before them. -/
def Guarded (step : σ → ε → σ → Prop) (condition : σ → ε → Prop) (state : σ) (event : ε)
    (next : σ) : Prop :=
  condition state event ∧ step state event next

theorem Run.of_guarded {condition : σ → ε → Prop}
    (run : Run (Guarded step condition) state events last) : Run step state events last := by
  apply run.mono
  intro state event next guarded
  exact guarded.2

/-- A function that computes the steps computes a run. -/
theorem run_of_foldlM {compute : σ → ε → Option σ}
    (done : events.foldlM compute state = some last) :
    Run (fun state event next => compute state event = some next) state events last := by
  induction events generalizing state with
  | nil =>
      cases done
      exact .nil _
  | cons event events ih =>
      rw [List.foldlM_cons] at done
      rcases first : compute state event with _ | next
      · rw [first] at done
        cases done
      · rw [first] at done
        exact .cons first (ih done)

/-- The same where every step has to meet the condition. -/
theorem guarded_of_foldlM {compute : σ → ε → Option σ} {condition : σ → ε → Prop}
    [∀ state event, Decidable (condition state event)]
    (done : events.foldlM
      (fun state event => if condition state event then compute state event else none) state =
        some last) :
    Run (Guarded (fun state event next => compute state event = some next) condition) state events
      last := by
  apply (run_of_foldlM done).mono
  intro state event next computed
  split at computed
  · exact ⟨‹condition state event›, computed⟩
  · cases computed

end Runs
