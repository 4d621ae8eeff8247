import Mathlib.Algebra.Ring.Nat
import Mathlib.Data.List.Basic
import Radvd.Library.Runs

/-!
# A pipe between two processes

A process is seen through the answers to its system calls: after these answers
it either waits in another call or has stopped. The kernel takes part of what a
writer offers, hands part of what it holds to a reader, or interrupts either of
them, in any order and in pieces of any size.

Whatever it does, the reader has been handed a prefix of what was taken
(`given_isPrefix`), and all of it once it has seen the end (`given_eq_of_ended`).
If the stream consists of records of one size, then a prefix of it consists of a
prefix of the records and a part of the next one (`records_isPrefix`).
-/

namespace Pipe

open Runs

universe u v

variable {α : Type u}

/-- What `read` answers; no data stands for the end of the stream. -/
inductive ReadAnswer (α : Type u) where
  | interrupted
  | failed (errno : Nat)
  | data (items : List α)
  deriving DecidableEq, Repr

/-- What `write` answers. -/
inductive WriteAnswer where
  | interrupted
  | failed (errno : Nat)
  | accepted (count : Nat)
  deriving DecidableEq, Repr

/-- How far a function has come with the answers to its system calls: it waits in
a call, or it has returned and left the later answers. -/
inductive Progress (Pending : Type u) (Answer : Type v) (Result : Type u) where
  | waiting (pending : Pending)
  | returned (result : Result) (unused : List Answer)
  deriving DecidableEq, Repr

def ReadAnswer.items : ReadAnswer α → List α
  | .data items => items
  | .interrupted | .failed _ => []

/-- Everything that was handed over. -/
def given (answers : List (ReadAnswer α)) : List α :=
  answers.flatMap ReadAnswer.items

@[simp]
theorem given_append (answers more : List (ReadAnswer α)) :
    given (answers ++ more) = given answers ++ given more :=
  List.flatMap_append

@[simp]
theorem given_singleton (answer : ReadAnswer α) : given [answer] = answer.items :=
  List.flatMap_singleton ReadAnswer.items answer

/-! ## The pipe and its two ends -/

/-- The two processes: what the pending `write` of the one offers, and how much
the pending `read` of the other asks for. -/
structure Ends (α : Type u) where
  offers : List WriteAnswer → Option (List α)
  wants : List (ReadAnswer α) → Option Nat

structure State (α : Type u) where
  written : List WriteAnswer
  sent : List α
  closed : Bool
  read : List (ReadAnswer α)
  deriving DecidableEq, Repr

def State.initial : State α :=
  ⟨[], [], false, []⟩

/-- What the pipe holds. -/
def State.contents (state : State α) : List α :=
  state.sent.drop (given state.read).length

inductive Event where
  | accept (count : Nat)
  | interruptWrite
  | close
  | deliver (count : Nat)
  | interruptRead
  | finish
  deriving DecidableEq, Repr

def Event.isInterrupt : Event → Bool
  | .interruptWrite | .interruptRead => true
  | .accept _ | .close | .deliver _ | .finish => false

/-- One step of the kernel. The writing end is closed when its process ends,
which it may do at any time. -/
inductive Step (ends : Ends α) : State α → Event → State α → Prop where
  | accept {state : State α} {offered : List α} {count : Nat}
      (offers : ends.offers state.written = some offered) (isOpen : state.closed = false)
      (positive : 0 < count) (le : count ≤ offered.length) :
      Step ends state (.accept count)
        { state with
          written := state.written ++ [.accepted count]
          sent := state.sent ++ offered.take count }
  | interruptWrite {state : State α} {offered : List α}
      (offers : ends.offers state.written = some offered) (isOpen : state.closed = false) :
      Step ends state .interruptWrite
        { state with written := state.written ++ [.interrupted] }
  | close {state : State α} (isOpen : state.closed = false) :
      Step ends state .close { state with closed := true }
  | deliver {state : State α} {wanted count : Nat}
      (wants : ends.wants state.read = some wanted) (positive : 0 < count)
      (le : count ≤ wanted) (held : count ≤ state.contents.length) :
      Step ends state (.deliver count)
        { state with read := state.read ++ [.data (state.contents.take count)] }
  | interruptRead {state : State α} {wanted : Nat}
      (wants : ends.wants state.read = some wanted) :
      Step ends state .interruptRead
        { state with read := state.read ++ [.interrupted] }
  | finish {state : State α} {wanted : Nat} (wants : ends.wants state.read = some wanted)
      (isClosed : state.closed = true) (empty : state.contents = []) :
      Step ends state .finish { state with read := state.read ++ [.data []] }

variable {ends : Ends α} {state next last : State α} {event : Event} {events : List Event}

/-! ## First in, first out -/

theorem given_append_contents (ordered : given state.read <+: state.sent) :
    given state.read ++ state.contents = state.sent := by
  rcases ordered with ⟨rest, whole⟩
  rw [State.contents, ← whole, List.drop_left]

theorem Step.given_isPrefix (step : Step ends state event next)
    (ordered : given state.read <+: state.sent) : given next.read <+: next.sent := by
  cases step with
  | accept offers isOpen positive le => exact ordered.trans (List.prefix_append _ _)
  | interruptWrite offers isOpen => exact ordered
  | close isOpen => exact ordered
  | @deliver wanted count wants positive le held =>
      refine ⟨state.contents.drop count, ?_⟩
      simp only [given_append, given_singleton, ReadAnswer.items, List.append_assoc,
        List.take_append_drop]
      exact given_append_contents ordered
  | interruptRead wants => simpa [ReadAnswer.items] using ordered
  | finish wants isClosed empty => simpa [ReadAnswer.items] using ordered

theorem given_isPrefix (run : Run (Step ends) .initial events state) :
    given state.read <+: state.sent :=
  run.invariant (fun _ _ _ step ordered => step.given_isPrefix ordered) List.prefix_rfl

/-- A reader that has seen the end has been handed everything, and the pipe
stays as it is. -/
def State.Complete (state : State α) : Prop :=
  .data [] ∈ state.read → state.closed = true ∧ given state.read = state.sent

theorem Step.complete (step : Step ends state event next)
    (ordered : given state.read <+: state.sent) (complete : state.Complete) :
    next.Complete := by
  cases step with
  | accept offers isOpen positive le =>
      intro ended
      rw [(complete ended).1] at isOpen
      cases isOpen
  | interruptWrite offers isOpen => exact complete
  | close isOpen =>
      intro ended
      exact ⟨rfl, (complete ended).2⟩
  | @deliver wanted count wants positive le held =>
      intro ended
      have nonempty : 0 < (state.contents.take count).length := by
        rw [List.length_take]
        omega
      rcases List.mem_append.mp ended with before | now
      · have whole := given_append_contents ordered
        rw [(complete before).2, List.append_right_eq_self] at whole
        rw [whole] at held
        exact absurd held (Nat.not_le.mpr positive)
      · rw [List.mem_singleton, ReadAnswer.data.injEq] at now
        rw [← now] at nonempty
        cases nonempty
  | interruptRead wants =>
      intro ended
      rcases List.mem_append.mp ended with before | now
      · simpa [ReadAnswer.items] using complete before
      · simp at now
  | finish wants isClosed empty =>
      intro ended
      have whole := given_append_contents ordered
      rw [empty, List.append_nil] at whole
      exact ⟨isClosed, by simpa [ReadAnswer.items] using whole⟩

theorem given_eq_of_ended (run : Run (Step ends) .initial events state)
    (ended : .data [] ∈ state.read) : state.closed = true ∧ given state.read = state.sent := by
  have preserved : ∀ state event next, Step ends state event next →
      given state.read <+: state.sent ∧ state.Complete →
        given next.read <+: next.sent ∧ next.Complete := by
    intro state event next step both
    exact ⟨step.given_isPrefix both.1, step.complete both.1 both.2⟩
  have both := run.invariant preserved
    ⟨List.prefix_rfl, fun absent => absurd absent List.not_mem_nil⟩
  exact both.2 ended

/-! ## The length of a run -/

def ReadAnswer.weight : ReadAnswer α → Nat
  | .data [] => 1
  | .data items => items.length
  | .interrupted | .failed _ => 0

def State.weight (state : State α) : Nat :=
  state.sent.length + (state.read.map ReadAnswer.weight).sum + state.closed.toNat

theorem ReadAnswer.length_le_weight_data (items : List α) :
    items.length ≤ weight (.data items) := by
  cases items with
  | nil => exact Nat.zero_le _
  | cons _ _ => exact Nat.le_refl _

theorem Step.weight_lt (step : Step ends state event next) (proper : event.isInterrupt = false) :
    state.weight < next.weight := by
  cases step with
  | accept offers isOpen positive le =>
      simp only [State.weight, List.length_append, List.length_take]
      omega
  | interruptWrite offers isOpen => cases proper
  | close isOpen => simp [State.weight, isOpen]
  | @deliver wanted count wants positive le held =>
      have heavy := ReadAnswer.length_le_weight_data (state.contents.take count)
      simp only [State.weight, List.map_append, List.sum_append, List.map_cons, List.map_nil,
        List.sum_cons, List.sum_nil]
      rw [List.length_take] at heavy
      omega
  | interruptRead wants => cases proper
  | finish wants isClosed empty =>
      simp only [State.weight, List.map_append, List.sum_append, List.map_cons, List.map_nil,
        List.sum_cons, List.sum_nil, ReadAnswer.weight]
      omega

theorem Step.weight_le (step : Step ends state event next) : state.weight ≤ next.weight := by
  cases proper : event.isInterrupt with
  | false => exact Nat.le_of_lt (step.weight_lt proper)
  | true =>
      cases step with
      | interruptWrite offers isOpen => exact Nat.le_refl _
      | interruptRead wants => simp [State.weight, ReadAnswer.weight]
      | accept | close | deliver | finish => cases proper

/-- Interruptions apart, no more happens than octets are moved, and the two ends
of the stream. -/
theorem Run.length_le_weight (run : Run (Step ends) state events last) :
    state.weight + (events.filter fun event => !event.isInterrupt).length ≤ last.weight := by
  induction run with
  | nil state => simp
  | @cons state next last event events first rest ih =>
      have more := first.weight_le
      cases proper : event.isInterrupt with
      | true =>
          rw [List.filter_cons_of_neg (by simp [proper])]
          omega
      | false =>
          have strict := first.weight_lt proper
          rw [List.filter_cons_of_pos (by simp [proper]), List.length_cons]
          omega

/-! ## Records of one size -/

variable {size : Nat} {records others : List (List α)} {rest tail : List α}

theorem records_isPrefix (sizes : ∀ record ∈ records, record.length = size)
    (otherSizes : ∀ record ∈ others, record.length = size) (short : tail.length < size)
    (le : records.flatten ++ rest <+: others.flatten ++ tail) : records <+: others := by
  induction records generalizing others with
  | nil => exact List.nil_prefix
  | cons record records ih =>
      have length := sizes record List.mem_cons_self
      rw [List.flatten_cons, List.append_assoc] at le
      cases others with
      | nil =>
          have fits := le.length_le
          simp only [List.length_append, List.flatten_nil, List.nil_append] at fits
          omega
      | cons other others =>
          have otherLength := otherSizes other List.mem_cons_self
          rw [List.flatten_cons, List.append_assoc] at le
          have same : record = other := by
            apply List.IsPrefix.eq_of_length _ (length.trans otherLength.symm)
            apply List.prefix_of_prefix_length_le ((List.prefix_append _ _).trans le)
              (List.prefix_append _ _)
            omega
          rw [same, List.prefix_append_right_inj] at le
          rw [same, List.cons_prefix_cons]
          refine ⟨rfl, ih ?_ ?_ le⟩
          · intro member listed
            exact sizes member (List.mem_cons_of_mem _ listed)
          · intro member listed
            exact otherSizes member (List.mem_cons_of_mem _ listed)

theorem records_unique (sizes : ∀ record ∈ records, record.length = size)
    (otherSizes : ∀ record ∈ others, record.length = size) (restShort : rest.length < size)
    (short : tail.length < size) (same : records.flatten ++ rest = others.flatten ++ tail) :
    records = others ∧ rest = tail := by
  have le : records.flatten ++ rest <+: others.flatten ++ tail := same ▸ List.prefix_rfl
  have ge : others.flatten ++ tail <+: records.flatten ++ rest := same ▸ List.prefix_rfl
  have front := records_isPrefix sizes otherSizes short le
  have back := records_isPrefix otherSizes sizes restShort ge
  have equal := front.eq_of_length (Nat.le_antisymm front.length_le back.length_le)
  rw [equal, List.append_cancel_left_eq] at same
  exact ⟨equal, same⟩

end Pipe
