import Radvd.Defs
import Mathlib.Data.List.Basic

/-!
# The growable buffers of `util.c`

`safe_buffer` grows in steps of 64 octets up to 64 KiB, where the program exits,
and `safe_buffer_list` is the chain of buffers the option encoders fill.

The structure carries what every operation maintains: the octets in use lie
within the allocation, and the allocation is a multiple of 64 of at most 64 KiB.
Requests are natural numbers; the rounding of the source is only different
within 64 octets of the limit of `size_t`, which no caller approaches.

The encoders are reasoned about with two judgements. `Appends f block` says that
`f` appends exactly `block` to any buffer with room for it, and `Writes m blocks`
that `m` adds exactly `blocks` to the chain.
-/

namespace Radvd

open Wire

/-- `struct safe_buffer` with the first `used` octets of its storage. -/
structure SafeBuffer where
  allocated : Nat
  bytes : Bytes
  used_le : bytes.length ≤ allocated
  aligned : 64 ∣ allocated
  allocated_le : allocated ≤ 64 * 1024
  deriving DecidableEq, Repr

namespace SafeBuffer

def used (sb : SafeBuffer) : Nat := sb.bytes.length

def new : SafeBuffer := ⟨0, [], by simp, by simp, by simp⟩

def clear (sb : SafeBuffer) : SafeBuffer :=
  { sb with bytes := [], used_le := by simp }

def roundUp (n : Nat) : Nat :=
  if n % 64 > 0 then (n ||| 63) + 1 else n

theorem le_roundUp (n : Nat) : n ≤ roundUp n := by
  unfold roundUp
  split
  · have := Nat.left_le_or (n := n) (m := 63)
    omega
  · exact le_rfl

theorem roundUp_eq (n : Nat) : roundUp n = (n + 63) / 64 * 64 := by
  simp only [roundUp]
  split
  · have quotient : (n ||| 63) / 2 ^ 6 = n / 2 ^ 6 := by
      rw [Nat.or_div_two_pow]
      simp
    have remainder : (n ||| 63) % 2 ^ 6 = 63 := by
      rw [Nat.or_mod_two_pow]
      have small : ∀ r < 64, r ||| 63 = 63 := by decide
      exact small _ (Nat.mod_lt _ (by omega))
    omega
  · omega

def resize (sb : SafeBuffer) (n : Nat) : Except Exit SafeBuffer :=
  if grows : sb.allocated < n then
    if tooLarge : roundUp n > 64 * 1024 then .error .safeBufferResize
    else
      .ok { sb with
        allocated := roundUp n
        used_le := by
          have := sb.used_le
          have := le_roundUp n
          omega
        aligned := by rw [roundUp_eq]; exact Nat.dvd_mul_left ..
        allocated_le := by omega }
  else .ok sb

theorem resize_ok (sb : SafeBuffer) {n : Nat} (fits : n ≤ 64 * 1024) :
    ∃ sb', sb.resize n = .ok sb' ∧ sb'.bytes = sb.bytes := by
  simp only [resize]
  by_cases grows : sb.allocated < n
  · have : ¬roundUp n > 64 * 1024 := by rw [roundUp_eq]; omega
    simp [grows, this]
  · simp [grows]

theorem resize_error (sb : SafeBuffer) {n : Nat} (exceeds : 64 * 1024 < n) :
    sb.resize n = .error .safeBufferResize := by
  have := sb.allocated_le
  have := le_roundUp n
  simp only [resize]
  rw [dif_pos (by omega), dif_pos (by omega)]

theorem le_allocated_of_resize {sb sb' : SafeBuffer} {n : Nat} (done : sb.resize n = .ok sb') :
    n ≤ sb'.allocated ∧ sb'.bytes = sb.bytes := by
  simp only [resize] at done
  split at done
  · split at done
    · cases done
    · cases done
      exact ⟨le_roundUp n, rfl⟩
  · cases done
    exact ⟨by omega, rfl⟩

def append (sb : SafeBuffer) (block : Bytes) : Except Exit SafeBuffer :=
  match grown : sb.resize (sb.used + block.length) with
  | .error exit => .error exit
  | .ok sb' =>
      .ok { sb' with
        bytes := sb'.bytes ++ block
        used_le := by
          have room := le_allocated_of_resize grown
          rw [List.length_append, room.2]
          exact room.1 }

def pad (sb : SafeBuffer) (count : Nat) : Except Exit SafeBuffer :=
  sb.append (List.replicate count 0)

theorem append_ok (sb : SafeBuffer) (block : Bytes)
    (fits : sb.used + block.length ≤ 64 * 1024) :
    ∃ sb', sb.append block = .ok sb' ∧ sb'.bytes = sb.bytes ++ block := by
  rcases resize_ok sb fits with ⟨grown, grownEq, grownBytes⟩
  simp only [append]
  split
  · rename_i exit failed
    rw [grownEq] at failed
    cases failed
  · rename_i sb' succeeded
    rw [grownEq] at succeeded
    cases succeeded
    exact ⟨_, rfl, by simp [grownBytes]⟩

theorem append_error {sb : SafeBuffer} {block : Bytes}
    (exceeds : 64 * 1024 < sb.used + block.length) :
    sb.append block = .error .safeBufferResize := by
  have failed := resize_error sb exceeds
  simp only [append]
  split
  · rename_i exit failed'
    rw [failed] at failed'
    cases failed'
    rfl
  · rename_i sb' succeeded
    rw [failed] at succeeded
    cases succeeded

@[simp]
theorem used_new : new.used = 0 := rfl

@[simp]
theorem bytes_new : new.bytes = [] := rfl

@[simp]
theorem bytes_clear (sb : SafeBuffer) : sb.clear.bytes = [] := rfl

theorem used_of_bytes {sb sb' : SafeBuffer} {block : Bytes} (bytes : sb'.bytes = sb.bytes ++ block) :
    sb'.used = sb.used + block.length := by
  rw [used, bytes, List.length_append, used]

theorem used_le_max (sb : SafeBuffer) : sb.used ≤ 64 * 1024 :=
  sb.used_le.trans sb.allocated_le

/-- `f` appends exactly `block` to every buffer with room for it. -/
def Appends (f : SafeBuffer → Except Exit SafeBuffer) (block : Bytes) : Prop :=
  ∀ sb : SafeBuffer, sb.used + block.length ≤ 64 * 1024 →
    ∃ sb', f sb = .ok sb' ∧ sb'.bytes = sb.bytes ++ block

theorem appends_append (block : Bytes) : Appends (·.append block) block :=
  fun _ fits => append_ok _ _ fits

theorem appends_pad (count : Nat) : Appends (·.pad count) (List.replicate count 0) :=
  appends_append _

theorem appends_pure : Appends pure [] :=
  fun sb _ => ⟨sb, rfl, by simp⟩

theorem Appends.bind {f g : SafeBuffer → Except Exit SafeBuffer} {first second : Bytes}
    (appendsFirst : Appends f first) (appendsSecond : Appends g second) :
    Appends (fun sb => f sb >>= g) (first ++ second) := by
  intro sb fits
  rw [List.length_append] at fits
  rcases appendsFirst sb (by omega) with ⟨middle, middleEq, middleBytes⟩
  have fitsSecond : middle.used + second.length ≤ 64 * 1024 := by
    rw [used, middleBytes, List.length_append]
    simp only [used] at fits
    omega
  rcases appendsSecond middle fitsSecond with ⟨last, lastEq, lastBytes⟩
  refine ⟨last, ?_, ?_⟩
  · simp only [middleEq]
    exact lastEq
  · rw [lastBytes, middleBytes, List.append_assoc]

/-- Reserving no more than what is appended afterwards changes nothing. -/
theorem Appends.resize_bind {f : SafeBuffer → Except Exit SafeBuffer} {block : Bytes}
    {count : Nat} (appends : Appends f block) (reserve : count ≤ block.length) :
    Appends (fun sb => sb.resize (sb.used + count) >>= f) block := by
  intro sb fits
  rcases resize_ok sb (n := sb.used + count) (by omega) with
    ⟨grown, grownEq, grownBytes⟩
  rcases appends grown (by simpa [used, grownBytes] using fits) with ⟨last, lastEq, lastBytes⟩
  refine ⟨last, ?_, by rw [lastBytes, grownBytes]⟩
  simp only [grownEq]
  exact lastEq

end SafeBuffer

/-- `struct safe_buffer_list`: the buffers already passed and the one at the tail. -/
structure SafeBufferList where
  done : List SafeBuffer
  cur : SafeBuffer
  deriving DecidableEq, Repr

namespace SafeBufferList

def new : SafeBufferList := ⟨[], SafeBuffer.new⟩

def next (sbl : SafeBufferList) : SafeBufferList :=
  ⟨sbl.done ++ [sbl.cur], SafeBuffer.new⟩

/-- `safe_buffer_list_append`: a new tail unless the present one is empty. -/
def append (sbl : SafeBufferList) : SafeBufferList :=
  if sbl.cur.used > 0 then sbl.next else sbl

def write (sbl : SafeBufferList) (f : SafeBuffer → Except Exit SafeBuffer) :
    Except Exit SafeBufferList :=
  (f sbl.cur).map fun sb => { sbl with cur := sb }

def addIf (condition : Bool) (m : SafeBufferList → Except Exit SafeBufferList)
    (sbl : SafeBufferList) : Except Exit SafeBufferList :=
  if condition then m sbl else pure sbl

def blocks (sbl : SafeBufferList) : List Bytes :=
  (sbl.done ++ [sbl.cur]).map SafeBuffer.bytes

@[simp]
theorem blocks_new : new.blocks = [[]] := rfl

/-- The effect of `safe_buffer_list_append` and a write on the contents: the
block replaces an empty tail or follows a filled one. -/
def push (contents : List Bytes) (block : Bytes) : List Bytes :=
  if contents.getLast? = some [] then contents.dropLast ++ [block] else contents ++ [block]

def extend (contents blocks : List Bytes) : List Bytes :=
  blocks.foldl push contents

@[simp]
theorem extend_nil (contents : List Bytes) : extend contents [] = contents := rfl

theorem extend_append (contents first second : List Bytes) :
    extend contents (first ++ second) = extend (extend contents first) second :=
  List.foldl_append ..

theorem extend_of_getLast_ne {contents blocks : List Bytes}
    (filled : contents.getLast? ≠ some []) (nonempty : ∀ block ∈ blocks, block ≠ []) :
    extend contents blocks = contents ++ blocks := by
  induction blocks generalizing contents with
  | nil => simp
  | cons block rest ih =>
      have blockFilled := nonempty block (by simp)
      rw [extend, List.foldl_cons, push, if_neg filled]
      have next := @ih (contents ++ [block]) (by simpa using blockFilled)
        (fun other otherMem => nonempty other (by simp [otherMem]))
      rw [extend] at next
      rw [next, List.append_assoc, List.singleton_append]

theorem extend_head {blocks : List Bytes} (nonempty : ∀ block ∈ blocks, block ≠ []) :
    extend [[]] blocks = if blocks = [] then [[]] else blocks := by
  cases blocks with
  | nil => simp
  | cons block rest =>
      have blockFilled := nonempty block (by simp)
      have start : push [[]] block = [block] := by simp [push]
      rw [extend, List.foldl_cons, start, if_neg (by simp)]
      exact extend_of_getLast_ne (by simpa using blockFilled)
        (fun other otherMem => nonempty other (by simp [otherMem]))

/-- `m` adds exactly `added` to the chain, whatever the chain. -/
def Writes (m : SafeBufferList → Except Exit SafeBufferList) (added : List Bytes) : Prop :=
  ∀ sbl : SafeBufferList, ∃ sbl', m sbl = .ok sbl' ∧ sbl'.blocks = extend sbl.blocks added

theorem writes_pure : Writes pure [] :=
  fun sbl => ⟨sbl, rfl, rfl⟩

theorem Writes.bind {m n : SafeBufferList → Except Exit SafeBufferList}
    {first second : List Bytes} (writesFirst : Writes m first) (writesSecond : Writes n second) :
    Writes (fun sbl => m sbl >>= n) (first ++ second) := by
  intro sbl
  rcases writesFirst sbl with ⟨middle, middleEq, middleBlocks⟩
  rcases writesSecond middle with ⟨last, lastEq, lastBlocks⟩
  refine ⟨last, ?_, ?_⟩
  · simp only [middleEq]
    exact lastEq
  · rw [lastBlocks, middleBlocks, extend_append]

theorem Writes.addIf {m : SafeBufferList → Except Exit SafeBufferList} {added : List Bytes}
    (writes : Writes m added) (condition : Bool) :
    Writes (SafeBufferList.addIf condition m) (if condition then added else []) := by
  unfold SafeBufferList.addIf
  cases condition with
  | true => exact writes
  | false => exact writes_pure

theorem writes_append_write {f : SafeBuffer → Except Exit SafeBuffer} {block : Bytes}
    (appends : SafeBuffer.Appends f block) (fits : block.length ≤ 64 * 1024) :
    Writes (fun sbl => sbl.append.write f) [block] := by
  intro sbl
  by_cases filled : sbl.cur.used > 0
  · rcases appends SafeBuffer.new (by simpa using fits) with ⟨sb, sbEq, sbBytes⟩
    refine ⟨⟨sbl.done ++ [sbl.cur], sb⟩, ?_, ?_⟩
    · simp [append, filled, write, next, sbEq, Except.map]
    · have lastFilled : sbl.cur.bytes ≠ [] := by
        rw [SafeBuffer.used] at filled
        exact List.length_pos_iff.mp filled
      simp [blocks, extend, push, sbBytes, lastFilled]
  · have empty : sbl.cur.bytes = [] := by
      rw [SafeBuffer.used] at filled
      exact List.eq_nil_of_length_eq_zero (by omega)
    rcases appends sbl.cur (by simp [SafeBuffer.used, empty]; omega) with ⟨sb, sbEq, sbBytes⟩
    refine ⟨⟨sbl.done, sb⟩, ?_, ?_⟩
    · simp [append, filled, write, sbEq, Except.map]
    · simp [blocks, extend, push, sbBytes, empty]

theorem next_write {f : SafeBuffer → Except Exit SafeBuffer} {block : Bytes}
    (appends : SafeBuffer.Appends f block) (fits : block.length ≤ 64 * 1024)
    (sbl : SafeBufferList) :
    ∃ sbl', sbl.next.write f = .ok sbl' ∧ sbl'.blocks = sbl.blocks ++ [block] := by
  rcases appends SafeBuffer.new (by simpa using fits) with ⟨sb, sbEq, sbBytes⟩
  refine ⟨⟨sbl.done ++ [sbl.cur], sb⟩, ?_, ?_⟩
  · simp [write, next, sbEq, Except.map]
  · simp [blocks, sbBytes]

end SafeBufferList

end Radvd
