import Radvd.Library.Pipe
import Radvd.Library.Wire

/-!
# Complete transfers

`readn` and `writen` of `util.c`, as functions of what `read` and `write` answer.
A piece of what is still wanted leaves the same loop to run on with the pointer
behind the piece (`readn_data`, `writen_accepted`).
-/

namespace Radvd

open Wire Pipe

/-- The variables of `readn`, the buffer being given up to the position of the
pointer. -/
structure Readn where
  buf : Bytes
  count : Nat
  n : Nat
  deriving DecidableEq, Repr

/-- `readn`; `read` stores at most `count` octets, and `interrupted` is `EINTR`. -/
def readn (pending : Readn) : List (ReadAnswer UInt8) → Progress Readn (ReadAnswer UInt8) (Int × Bytes)
  | [] => if pending.count = 0 then .returned (pending.n, pending.buf) [] else .waiting pending
  | answer :: answers =>
      if pending.count = 0 then
        .returned (pending.n, pending.buf) (answer :: answers)
      else
        match answer with
        | .interrupted => readn pending answers
        | .failed _ => .returned (-1, pending.buf) answers
        | .data items =>
            let stored := items.take pending.count
            if stored.length = 0 then
              .returned (pending.n, pending.buf) answers
            else
              readn ⟨pending.buf ++ stored, pending.count - stored.length,
                pending.n + stored.length⟩ answers

/-- The variables of `writen`, the buffer being given from the position of the
pointer on. -/
structure Writen where
  buf : Bytes
  count : Nat
  n : Nat
  deriving DecidableEq, Repr

def writen (pending : Writen) : List WriteAnswer → Progress Writen WriteAnswer Int
  | [] => if pending.count = 0 then .returned pending.n [] else .waiting pending
  | answer :: answers =>
      if pending.count = 0 then
        .returned pending.n (answer :: answers)
      else
        match answer with
        | .interrupted => writen pending answers
        | .failed _ => .returned (-1) answers
        | .accepted r =>
            if r = 0 then
              .returned pending.n answers
            else
              writen ⟨pending.buf.drop r, pending.count - r, pending.n + r⟩ answers

section

variable {pending : Readn} {answers : List (ReadAnswer UInt8)}

theorem readn_nil (positive : 0 < pending.count) : readn pending [] = .waiting pending := by
  rw [readn, if_neg (Nat.ne_of_gt positive)]

theorem readn_of_count_eq_zero (count : pending.count = 0) :
    readn pending answers = .returned (pending.n, pending.buf) answers := by
  cases answers with
  | nil => rw [readn, if_pos count]
  | cons answer answers => cases answer <;> rw [readn, if_pos count]

/-- What a `readn` that wants something does with an answer. -/
theorem readn_cons (positive : 0 < pending.count) (answer : ReadAnswer UInt8) :
    readn pending (answer :: answers) =
      match answer with
      | .interrupted => readn pending answers
      | .failed _ => .returned (-1, pending.buf) answers
      | .data items =>
          let stored := items.take pending.count
          if stored.length = 0 then
            .returned (pending.n, pending.buf) answers
          else
            readn ⟨pending.buf ++ stored, pending.count - stored.length,
              pending.n + stored.length⟩ answers := by
  cases answer <;> rw [readn, if_neg (Nat.ne_of_gt positive)]

theorem readn_interrupted (positive : 0 < pending.count) :
    readn pending (.interrupted :: answers) = readn pending answers :=
  readn_cons positive _

theorem readn_failed (positive : 0 < pending.count) (errno : Nat) :
    readn pending (.failed errno :: answers) = .returned (-1, pending.buf) answers :=
  readn_cons positive _

theorem readn_end (positive : 0 < pending.count) :
    readn pending (.data [] :: answers) = .returned (pending.n, pending.buf) answers := by
  rw [readn_cons positive]
  simp

theorem readn_data {items : Bytes} (nonempty : items ≠ []) (le : items.length ≤ pending.count) :
    readn pending (.data items :: answers) =
      readn ⟨pending.buf ++ items, pending.count - items.length, pending.n + items.length⟩
        answers := by
  have length := List.length_pos_iff.mpr nonempty
  rw [readn_cons (by omega)]
  simp [List.take_of_length_le le, nonempty]

/-- A `readn` that wants something uses up an answer. -/
theorem unused_readn_lt {result : Int × Bytes} {unused : List (ReadAnswer UInt8)}
    (positive : 0 < pending.count) (returned : readn pending answers = .returned result unused) :
    unused.length < answers.length := by
  induction answers generalizing pending with
  | nil =>
      rw [readn_nil positive] at returned
      cases returned
  | cons answer answers ih =>
      rw [List.length_cons]
      cases answer with
      | interrupted =>
          rw [readn_interrupted positive] at returned
          exact Nat.lt_succ_of_lt (ih positive returned)
      | failed errno =>
          rw [readn_failed positive] at returned
          cases returned
          exact Nat.lt_succ_self _
      | data items =>
          rw [readn_cons positive] at returned
          dsimp only at returned
          split at returned
          · cases returned
            exact Nat.lt_succ_self _
          · rcases Nat.eq_zero_or_pos (pending.count - (items.take pending.count).length) with
              complete | more
            · rw [readn_of_count_eq_zero complete] at returned
              cases returned
              exact Nat.lt_succ_self _
            · exact Nat.lt_succ_of_lt (ih more returned)

end

section

variable {pending : Writen} {answers : List WriteAnswer}

theorem writen_nil (positive : 0 < pending.count) : writen pending [] = .waiting pending := by
  rw [writen, if_neg (Nat.ne_of_gt positive)]

theorem writen_of_count_eq_zero (count : pending.count = 0) :
    writen pending answers = .returned pending.n answers := by
  cases answers with
  | nil => rw [writen, if_pos count]
  | cons answer answers => cases answer <;> rw [writen, if_pos count]

/-- What a `writen` that has something left does with an answer. -/
theorem writen_cons (positive : 0 < pending.count) (answer : WriteAnswer) :
    writen pending (answer :: answers) =
      match answer with
      | .interrupted => writen pending answers
      | .failed _ => .returned (-1) answers
      | .accepted r =>
          if r = 0 then
            .returned pending.n answers
          else
            writen ⟨pending.buf.drop r, pending.count - r, pending.n + r⟩ answers := by
  cases answer <;> rw [writen, if_neg (Nat.ne_of_gt positive)]

theorem writen_interrupted (positive : 0 < pending.count) :
    writen pending (.interrupted :: answers) = writen pending answers :=
  writen_cons positive _

theorem writen_accepted {r : Nat} (nonzero : 0 < r) (le : r ≤ pending.count) :
    writen pending (.accepted r :: answers) =
      writen ⟨pending.buf.drop r, pending.count - r, pending.n + r⟩ answers := by
  rw [writen_cons (by omega)]
  simp [Nat.ne_of_gt nonzero]

end

end Radvd
