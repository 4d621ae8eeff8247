import Radvd.Library.Tlv

/-!
# Computations that record what they read

A computation over a message buffer returns its value together with the events
it caused, in order: the offsets it read and the notes it made on the way, such
as lines of a log or statements of an output. What holds of all its events
follows the sequencing of the computation (`all_bind`).

`options` is the loop of a receiver over the options of a message. It visits
what `Tlv.walk` visits, so its value, its notes and its events are known from
those of its body (`value_options`, `notes_options`, `all_options`).
-/

namespace Wire

inductive Event (ν : Type) where
  | read (offset : Nat)
  | note (what : ν)
  deriving DecidableEq, Repr

/-- The event reads nothing at or after `limit`. -/
def Event.Below {ν : Type} (limit : Nat) : Event ν → Prop
  | .read offset => offset < limit
  | .note _ => True

@[simp]
theorem Event.below_read {ν : Type} {limit offset : Nat} :
    (read offset : Event ν).Below limit ↔ offset < limit := Iff.rfl

@[simp]
theorem Event.below_note {ν : Type} {limit : Nat} {what : ν} : (note what).Below limit := trivial

/-- A value with the events that happened while it was computed. -/
structure Access (ν α : Type) where
  value : α
  events : List (Event ν)

namespace Access

variable {ν α β : Type}

instance : Monad (Access ν) where
  pure value := ⟨value, []⟩
  bind computation next :=
    ⟨(next computation.value).value, computation.events ++ (next computation.value).events⟩

def note (what : ν) : Access ν Unit :=
  ⟨(), [.note what]⟩

/-- Read the octets from `offset` up to `offset + count` and decode them. -/
def load (decode : Memory → Nat → α) (count : Nat) (mem : Memory) (offset : Nat) :
    Access ν α :=
  ⟨decode mem offset, (List.range count).map fun index => .read (offset + index)⟩

def load8 (mem : Memory) (offset : Nat) : Access ν UInt8 :=
  load (fun mem offset => mem offset) 1 mem offset

def load16 (mem : Memory) (offset : Nat) : Access ν UInt16 :=
  load Memory.u16 2 mem offset

def load32 (mem : Memory) (offset : Nat) : Access ν UInt32 :=
  load Memory.u32 4 mem offset

def loadSlice (mem : Memory) (offset count : Nat) : Access ν Bytes :=
  load (fun mem offset => mem.slice offset count) count mem offset

/-- Read at most `count` octets, up to and including the first NUL; the value
is what comes before it. -/
def loadString (mem : Memory) (offset : Nat) : Nat → Access ν Bytes
  | 0 => pure []
  | count + 1 => do
      let octet ← load8 mem offset
      if octet = 0 then pure []
      else
        let rest ← loadString mem (offset + 1) count
        pure (octet :: rest)

/-- What was noted, in order. -/
def notes (computation : Access ν α) : List ν :=
  computation.events.filterMap fun event =>
    match event with
    | .read _ => none
    | .note what => some what

/-- Note all of these, in order. -/
def emit (whats : List ν) : Access ν Unit :=
  ⟨(), whats.map .note⟩

def All (computation : Access ν α) (holds : Event ν → Prop) : Prop :=
  ∀ event ∈ computation.events, holds event

section

variable {computation : Access ν α} {next : α → Access ν β} {holds : Event ν → Prop}

@[simp]
theorem value_pure (value : α) : (pure value : Access ν α).value = value := (rfl)

@[simp]
theorem value_bind : (computation >>= next).value = (next computation.value).value := (rfl)

@[simp]
theorem value_ite (condition : Prop) [Decidable condition] (yes no : Access ν α) :
    (if condition then yes else no).value = if condition then yes.value else no.value := by
  split <;> rfl

@[simp]
theorem value_note (what : ν) : (note what).value = () := rfl

@[simp]
theorem value_load (decode : Memory → Nat → α) (count : Nat) (mem : Memory) (offset : Nat) :
    (load decode count mem offset : Access ν α).value = decode mem offset := (rfl)

@[simp]
theorem value_load8 (mem : Memory) (offset : Nat) :
    (load8 mem offset : Access ν UInt8).value = mem offset := (rfl)

@[simp]
theorem value_load16 (mem : Memory) (offset : Nat) :
    (load16 mem offset : Access ν UInt16).value = mem.u16 offset := (rfl)

@[simp]
theorem value_load32 (mem : Memory) (offset : Nat) :
    (load32 mem offset : Access ν UInt32).value = mem.u32 offset := (rfl)

@[simp]
theorem value_loadSlice (mem : Memory) (offset count : Nat) :
    (loadSlice mem offset count : Access ν Bytes).value = mem.slice offset count := (rfl)

@[simp]
theorem notes_pure (value : α) : (pure value : Access ν α).notes = [] := rfl

@[simp]
theorem notes_bind :
    (computation >>= next).notes = computation.notes ++ (next computation.value).notes :=
  List.filterMap_append

@[simp]
theorem notes_ite (condition : Prop) [Decidable condition] (yes no : Access ν α) :
    (if condition then yes else no).notes = if condition then yes.notes else no.notes := by
  split <;> rfl

@[simp]
theorem notes_note (what : ν) : (note what).notes = [what] := rfl

@[simp]
theorem notes_emit (whats : List ν) : (emit whats).notes = whats := by
  simp [notes, emit, List.filterMap_map]

@[simp]
theorem notes_load (decode : Memory → Nat → α) (count : Nat) (mem : Memory) (offset : Nat) :
    (load decode count mem offset : Access ν α).notes = [] := by
  simp [notes, load]

@[simp]
theorem notes_load8 (mem : Memory) (offset : Nat) :
    (load8 mem offset : Access ν UInt8).notes = [] :=
  notes_load _ _ _ _

@[simp]
theorem notes_load16 (mem : Memory) (offset : Nat) :
    (load16 mem offset : Access ν UInt16).notes = [] :=
  notes_load _ _ _ _

@[simp]
theorem notes_load32 (mem : Memory) (offset : Nat) :
    (load32 mem offset : Access ν UInt32).notes = [] :=
  notes_load _ _ _ _

@[simp]
theorem notes_loadSlice (mem : Memory) (offset count : Nat) :
    (loadSlice mem offset count : Access ν Bytes).notes = [] :=
  notes_load _ _ _ _

@[simp]
theorem all_pure (value : α) : (pure value : Access ν α).All holds := by
  intro event eventMem
  cases eventMem

@[simp]
theorem all_bind :
    (computation >>= next).All holds ↔
      computation.All holds ∧ (next computation.value).All holds :=
  List.forall_mem_append

@[simp]
theorem all_ite (condition : Prop) [Decidable condition] (yes no : Access ν α) :
    (if condition then yes else no).All holds ↔
      if condition then yes.All holds else no.All holds := by
  split <;> rfl

@[simp]
theorem all_note (what : ν) : (note what).All holds ↔ holds (.note what) := by
  simp [All, note]

@[simp]
theorem all_emit (whats : List ν) :
    (emit whats).All holds ↔ ∀ what ∈ whats, holds (.note what) := by
  simp [All, emit]

@[simp]
theorem all_load (decode : Memory → Nat → α) (count : Nat) (mem : Memory) (offset : Nat) :
    (load decode count mem offset : Access ν α).All holds ↔
      ∀ index < count, holds (.read (offset + index)) := by
  simp [All, load]

@[simp]
theorem all_load8 (mem : Memory) (offset : Nat) :
    (load8 mem offset : Access ν UInt8).All holds ↔ holds (.read offset) := by
  simp [load8]

@[simp]
theorem all_load16 (mem : Memory) (offset : Nat) :
    (load16 mem offset : Access ν UInt16).All holds ↔
      ∀ index < 2, holds (.read (offset + index)) :=
  all_load _ _ _ _

@[simp]
theorem all_load32 (mem : Memory) (offset : Nat) :
    (load32 mem offset : Access ν UInt32).All holds ↔
      ∀ index < 4, holds (.read (offset + index)) :=
  all_load _ _ _ _

@[simp]
theorem all_loadSlice (mem : Memory) (offset count : Nat) :
    (loadSlice mem offset count : Access ν Bytes).All holds ↔
      ∀ index < count, holds (.read (offset + index)) :=
  all_load _ _ _ _

theorem below_load {decode : Memory → Nat → α} {count limit offset : Nat} {mem : Memory}
    (inside : offset + count ≤ limit) :
    (load decode count mem offset : Access ν α).All (Event.Below limit) := by
  simp only [all_load, Event.below_read]
  intro index bound
  omega

@[simp]
theorem value_loadString (mem : Memory) (offset count : Nat) :
    (loadString mem offset count : Access ν Bytes).value =
      (mem.slice offset count).takeWhile (· ≠ 0) := by
  induction count generalizing offset with
  | zero => rfl
  | succ count ih =>
      rw [Memory.slice_succ]
      by_cases zero : mem offset = 0
      · simp [loadString, zero]
      · simp [loadString, zero, ih]

theorem length_loadString_le (mem : Memory) (offset count : Nat) :
    ((mem.slice offset count).takeWhile (· ≠ 0)).length ≤ count := by
  have taken := (List.takeWhile_sublist (l := mem.slice offset count) (· ≠ 0)).length_le
  rwa [Memory.length_slice] at taken

@[simp]
theorem notes_loadString (mem : Memory) (offset count : Nat) :
    (loadString mem offset count : Access ν Bytes).notes = [] := by
  induction count generalizing offset with
  | zero => rfl
  | succ count ih =>
      by_cases zero : mem offset = 0
      · simp [loadString, zero]
      · simp [loadString, zero, ih]

/-- Reading a string stops at the octet after it, which is NUL, or after
`count` octets. -/
@[simp]
theorem all_loadString (mem : Memory) (offset count : Nat) :
    (loadString mem offset count : Access ν Bytes).All holds ↔
      ∀ index < count, index ≤ ((mem.slice offset count).takeWhile (· ≠ 0)).length →
        holds (.read (offset + index)) := by
  induction count generalizing offset with
  | zero => simp [loadString]
  | succ count ih =>
      rw [Memory.slice_succ]
      by_cases zero : mem offset = 0
      · simp only [loadString, all_bind, all_load8, value_load8, zero, if_true, all_pure, and_true]
        constructor
        · intro first index _ bound
          rcases index with _ | index
          · exact first
          · simp at bound
        · intro reads
          exact reads 0 (by omega) (by omega)
      · simp only [loadString, all_bind, all_load8, value_load8, zero, if_false, all_pure,
          and_true, ih]
        constructor
        · rintro ⟨first, rest⟩ index bound within
          rcases index with _ | index
          · exact first
          · have read := rest index (by omega) (by simpa [zero] using within)
            rwa [Nat.add_assoc, Nat.add_comm 1] at read
        · intro reads
          refine ⟨reads 0 (by omega) (by omega), ?_⟩
          intro index bound within
          have read := reads (index + 1) (by omega) (by simpa [zero] using within)
          rwa [Nat.add_assoc, Nat.add_comm 1]

end

/-! ## The loop over the options -/

open Tlv

/-- Where the loop over the options stops, with the length it read last and the
number of octets left. -/
structure Stop where
  ending : End
  offset : Nat
  optlen : Nat
  len : Int
  deriving DecidableEq, Repr

def loadOptlen (mem : Memory) (offset : Nat) : Access ν Nat :=
  load (fun mem second => (mem second).toNat * 8) 1 mem (offset + 1)

@[simp]
theorem value_loadOptlen (mem : Memory) (offset : Nat) :
    (loadOptlen mem offset : Access ν Nat).value = optlen mem offset := (rfl)

@[simp]
theorem notes_loadOptlen (mem : Memory) (offset : Nat) :
    (loadOptlen mem offset : Access ν Nat).notes = [] :=
  notes_load _ _ _ _

@[simp]
theorem all_loadOptlen {holds : Event ν → Prop} (mem : Memory) (offset : Nat) :
    (loadOptlen mem offset : Access ν Nat).All holds ↔ holds (.read (offset + 1)) := by
  simp [loadOptlen]

/-- The loop of a receiver over the options from `offset` on; `body` tells
whether it returns from the loop. -/
def options (mem : Memory) (body : Visit → Access ν Bool) (offset : Nat) (len : Int) :
    Access ν Stop :=
  if len ≤ 0 then pure ⟨.finished, offset, 0, len⟩
  else if len < 2 then pure ⟨.trailingGarbage, offset, 0, len⟩
  else do
    let optlen ← loadOptlen mem offset
    if optlen = 0 then pure ⟨.zeroLength, offset, optlen, len⟩
    else if len < optlen then pure ⟨.overlong, offset, optlen, len⟩
    else
      let returned ← body ⟨offset, optlen, len⟩
      if returned then pure ⟨.returned, offset, optlen, len⟩
      else options mem body (offset + optlen) (len - optlen)
termination_by len.toNat
decreasing_by omega

section

variable {mem : Memory} {body : Visit → Access ν Bool} {offset : Nat} {len : Int}

theorem value_options (mem : Memory) (body : Visit → Access ν Bool) (offset : Nat) (len : Int) :
    (options mem body offset len).value.ending =
      (walk mem (fun visit => (body visit).value) offset len).2 := by
  fun_induction walk mem (fun visit => (body visit).value) offset len with
  | case1 offset len done => unfold options; simp [done]
  | case2 offset len notDone short => unfold options; simp [notDone, short]
  | case3 offset len notDone notShort zero => unfold options; simp [notDone, notShort, zero]
  | case4 offset len notDone notShort notZero overlong =>
      unfold options
      simp [notDone, notShort, notZero, overlong]
  | case5 offset len notDone notShort notZero fits returned =>
      unfold options
      simp [notDone, notShort, notZero, fits, returned]
  | case6 offset len notDone notShort notZero fits stays rest ih =>
      unfold options
      simp [notDone, notShort, notZero, fits, stays, ih, rest]

/-- Where the loop stops, what is left of the message starts there. -/
theorem stop_options (mem : Memory) (body : Visit → Access ν Bool) (offset : Nat) (len : Int) :
    (options mem body offset len).value.offset + (options mem body offset len).value.len =
        offset + len ∧
      ((options mem body offset len).value.ending = .overlong →
        2 ≤ (options mem body offset len).value.len) := by
  fun_induction walk mem (fun visit => (body visit).value) offset len with
  | case1 offset len done => unfold options; simp [done]
  | case2 offset len notDone short => unfold options; simp [notDone, short]
  | case3 offset len notDone notShort zero => unfold options; simp [notDone, notShort, zero]
  | case4 offset len notDone notShort notZero overlong =>
      unfold options
      simp [notDone, notShort, notZero, overlong]
      omega
  | case5 offset len notDone notShort notZero fits returned =>
      unfold options
      simp [notDone, notShort, notZero, fits, returned]
  | case6 offset len notDone notShort notZero fits stays rest ih =>
      unfold options
      simp [notDone, notShort, notZero, fits, stays]
      refine ⟨?_, ih.2⟩
      have total := ih.1
      omega

theorem notes_options (mem : Memory) (body : Visit → Access ν Bool) (offset : Nat) (len : Int) :
    (options mem body offset len).notes =
      (walk mem (fun visit => (body visit).value) offset len).1.flatMap
        fun visit => (body visit).notes := by
  fun_induction walk mem (fun visit => (body visit).value) offset len with
  | case1 offset len done => unfold options; simp [done]
  | case2 offset len notDone short => unfold options; simp [notDone, short]
  | case3 offset len notDone notShort zero => unfold options; simp [notDone, notShort, zero]
  | case4 offset len notDone notShort notZero overlong =>
      unfold options
      simp [notDone, notShort, notZero, overlong]
  | case5 offset len notDone notShort notZero fits returned =>
      unfold options
      simp [notDone, notShort, notZero, fits, returned]
  | case6 offset len notDone notShort notZero fits stays rest ih =>
      unfold options
      simp [notDone, notShort, notZero, fits, stays, ih, rest]

/-- If the message lies inside the octets that may be read, the events of the
loop are as allowed as those of its body. -/
theorem all_options {holds : Event ν → Prop} {limit : Nat} (inside : offset + len ≤ limit)
    (reads : ∀ offset < limit, holds (.read offset)) :
    (options mem body offset len).All holds ↔
      ∀ visit ∈ (walk mem (fun visit => (body visit).value) offset len).1,
        (body visit).All holds := by
  fun_induction walk mem (fun visit => (body visit).value) offset len with
  | case1 offset len done => unfold options; simp [done]
  | case2 offset len notDone short => unfold options; simp [notDone, short]
  | case3 offset len notDone notShort zero =>
      have second := reads (offset + 1) (by omega)
      unfold options
      simp [notDone, notShort, zero, second]
  | case4 offset len notDone notShort notZero overlong =>
      have second := reads (offset + 1) (by omega)
      unfold options
      simp [notDone, notShort, notZero, overlong, second]
  | case5 offset len notDone notShort notZero fits returned =>
      have second := reads (offset + 1) (by omega)
      unfold options
      simp [notDone, notShort, notZero, fits, returned, second]
  | case6 offset len notDone notShort notZero fits stays rest ih =>
      have second := reads (offset + 1) (by omega)
      have later := ih (by omega)
      unfold options
      simp [notDone, notShort, notZero, fits, stays, later, rest, second]

end

end Access

end Wire
