import Mathlib.Data.List.Forall2
import Radvd.SafeBuffer

/-!
# The storage of a growable buffer

`struct safe_buffer` as it lies in memory, with the arithmetic of `size_t` and
octets of the storage that nothing was written to. As long as no requested
capacity comes within 64 of the limit of `size_t`, every function does to the
storage what its counterpart does to a `SafeBuffer` (`refines_call`), and what
holds of the latter after a sequence of calls holds of the storage
(`safeBuffer_faithful`).
-/

namespace Radvd

open Wire

/-- `struct safe_buffer`. An octet of the storage that nothing was written to is
`none`. -/
structure RawBuffer where
  allocated : Nat
  used : Nat
  buffer : List (Option UInt8)
  deriving DecidableEq, Repr

namespace RawBuffer

def new : RawBuffer := ⟨0, 0, []⟩

/-- The arithmetic of `size_t`. -/
def sizeT (n : Nat) : Nat := n % 2 ^ 64

def realloc (buffer : List (Option UInt8)) (n : Nat) : List (Option UInt8) :=
  buffer.take n ++ List.replicate (n - buffer.length) none

/-- `memcpy` and `memset` at an offset of the storage. -/
def store (buffer : List (Option UInt8)) (offset : Nat) (octets : List (Option UInt8)) :
    List (Option UInt8) :=
  buffer.take offset ++ octets ++ buffer.drop (offset + octets.length)

/-- `safe_buffer_resize`. -/
def safeBufferResize (sb : RawBuffer) (n : Nat) : Except Exit RawBuffer :=
  if sb.allocated < n then
    let n := if n % 64 > 0 then sizeT ((n ||| 63) + 1) else n
    if n > 64 * 1024 then .error .safeBufferResize
    else .ok { sb with allocated := n, buffer := realloc sb.buffer n }
  else .ok sb

/-- `safe_buffer_pad`. -/
def safeBufferPad (sb : RawBuffer) (count : Nat) : Except Exit RawBuffer :=
  (sb.safeBufferResize (sizeT (sb.used + count))).map fun sb =>
    { sb with
      buffer := store sb.buffer sb.used (List.replicate count (some 0))
      used := sizeT (sb.used + count) }

/-- `safe_buffer_append`, with the octets it copies. -/
def safeBufferAppend (sb : RawBuffer) (octets : List (Option UInt8)) : Except Exit RawBuffer :=
  (sb.safeBufferResize (sizeT (sb.used + octets.length))).map fun sb =>
    { sb with
      buffer := store sb.buffer sb.used octets
      used := sizeT (sb.used + octets.length) }

/-- `safe_buffer_list_to_safe_buffer`. -/
def safeBufferListToSafeBuffer (sbl : List RawBuffer) (sb : RawBuffer) : Except Exit RawBuffer :=
  sbl.foldlM (fun sb cur => sb.safeBufferAppend (cur.buffer.take cur.used)) sb

end RawBuffer

/-! ## Sequences of calls -/

inductive BufferCall where
  | append (block : Bytes)
  | pad (count : Nat)
  | resize (n : Nat)
  deriving DecidableEq, Repr

namespace BufferCall

def octets : BufferCall → Bytes
  | .append block => block
  | .pad count => List.replicate count 0
  | .resize _ => []

/-- The capacity that a call requests of a buffer with `used` octets in use. -/
def capacity (used : Nat) : BufferCall → Nat
  | .append block => used + block.length
  | .pad count => used + count
  | .resize n => n

def contents (calls : List BufferCall) : Bytes :=
  calls.flatMap octets

/-- The capacities that a sequence of calls requests. -/
def requests (used : Nat) : List BufferCall → List Nat
  | [] => []
  | call :: rest => call.capacity used :: requests (used + call.octets.length) rest

/-- No capacity that is requested comes within 64 of the limit of `size_t`. After a
request of more than 64 KiB the program has exited. -/
def Apart (used : Nat) : List BufferCall → Prop
  | [] => True
  | call :: rest => call.capacity used + 64 ≤ 2 ^ 64 ∧
      (call.capacity used ≤ 64 * 1024 → Apart (used + call.octets.length) rest)

theorem apart_appends {used : Nat} {blocks : List Bytes} (inUse : used ≤ 64 * 1024)
    (small : ∀ block ∈ blocks, block.length ≤ 64 * 1024) : Apart used (blocks.map .append) := by
  induction blocks generalizing used with
  | nil => trivial
  | cons block rest ih =>
      have first := small block List.mem_cons_self
      constructor
      · change used + block.length + 64 ≤ 2 ^ 64
        omega
      · intro fits
        exact ih fits fun other listed => small other (List.mem_cons_of_mem _ listed)

theorem Apart.of_append {used : Nat} {before after : List BufferCall}
    (apart : Apart used (before ++ after)) : Apart used before := by
  induction before generalizing used with
  | nil => trivial
  | cons call rest ih => exact ⟨apart.1, fun fits => ih (apart.2 fits)⟩

end BufferCall

def RawBuffer.call (sb : RawBuffer) : BufferCall → Except Exit RawBuffer
  | .append block => sb.safeBufferAppend (block.map some)
  | .pad count => sb.safeBufferPad count
  | .resize n => sb.safeBufferResize n

def RawBuffer.calls (sb : RawBuffer) (calls : List BufferCall) : Except Exit RawBuffer :=
  calls.foldlM RawBuffer.call sb

def SafeBuffer.call (sb : SafeBuffer) : BufferCall → Except Exit SafeBuffer
  | .append block => sb.append block
  | .pad count => sb.pad count
  | .resize n => sb.resize n

def SafeBuffer.calls (sb : SafeBuffer) (calls : List BufferCall) : Except Exit SafeBuffer :=
  calls.foldlM SafeBuffer.call sb

/-! ## The storage of a `SafeBuffer` -/

/-- The storage holds the octets of the buffer at its beginning. -/
structure RawBuffer.Represents (raw : RawBuffer) (sb : SafeBuffer) : Prop where
  allocated_eq : raw.allocated = sb.allocated
  used_eq : raw.used = sb.used
  length_eq : raw.buffer.length = raw.allocated
  octets_eq : raw.buffer.take raw.used = sb.bytes.map some

inductive Refines : Except Exit RawBuffer → Except Exit SafeBuffer → Prop where
  | error (exit : Exit) : Refines (.error exit) (.error exit)
  | ok {raw : RawBuffer} {sb : SafeBuffer} (represents : raw.Represents sb) :
      Refines (.ok raw) (.ok sb)

theorem represents_new : RawBuffer.new.Represents SafeBuffer.new :=
  ⟨rfl, rfl, rfl, rfl⟩

section

variable {raw : RawBuffer} {sb : SafeBuffer}

theorem RawBuffer.sizeT_eq {n : Nat} (apart : n + 64 ≤ 2 ^ 64) : sizeT n = n :=
  Nat.mod_eq_of_lt (by omega)

theorem roundUp_sizeT {n : Nat} (apart : n + 64 ≤ 2 ^ 64) :
    (if n % 64 > 0 then RawBuffer.sizeT ((n ||| 63) + 1) else n) = SafeBuffer.roundUp n := by
  have rounded := SafeBuffer.roundUp_eq n
  unfold SafeBuffer.roundUp at rounded ⊢
  split
  · rename_i odd
    rw [if_pos odd] at rounded
    exact Nat.mod_eq_of_lt (by omega)
  · rfl

/-- Growing keeps what the storage holds. -/
theorem refines_resize {n : Nat} (represents : raw.Represents sb) (apart : n + 64 ≤ 2 ^ 64) :
    Refines (raw.safeBufferResize n) (sb.resize n) := by
  have used := sb.used_le
  unfold RawBuffer.safeBufferResize SafeBuffer.resize
  simp only [roundUp_sizeT apart, represents.allocated_eq]
  by_cases grows : sb.allocated < n
  · rw [if_pos grows, dif_pos grows]
    by_cases tooLarge : SafeBuffer.roundUp n > 64 * 1024
    · rw [if_pos tooLarge, dif_pos tooLarge]
      exact .error _
    · rw [if_neg tooLarge, dif_neg tooLarge]
      have room := SafeBuffer.le_roundUp n
      have length := represents.length_eq
      rw [represents.allocated_eq] at length
      refine .ok ⟨rfl, represents.used_eq, ?_, ?_⟩
      · simp only [RawBuffer.realloc, List.length_append, List.length_take, List.length_replicate]
        omega
      · have inUse : raw.used ≤ raw.buffer.length := by
          rw [represents.used_eq, length]
          exact used
        have whole : raw.buffer.take (SafeBuffer.roundUp n) = raw.buffer :=
          List.take_of_length_le (by omega)
        simp only [RawBuffer.realloc, whole]
        rw [List.take_append_of_le_length inUse]
        exact represents.octets_eq
  · rw [if_neg grows, dif_neg grows]
    exact .ok represents

/-- What is stored behind the octets in use extends them. -/
theorem take_store {buffer : List (Option UInt8)} {used : Nat} {octets : List (Option UInt8)}
    (inUse : used ≤ buffer.length) :
    (RawBuffer.store buffer used octets).take (used + octets.length) =
      buffer.take used ++ octets := by
  have length : (buffer.take used ++ octets).length = used + octets.length := by
    rw [List.length_append, List.length_take, Nat.min_eq_left inUse]
  unfold RawBuffer.store
  rw [← length]
  exact List.take_left

/-- Storing a block behind the octets in use, where there is room for it. -/
theorem RawBuffer.Represents.store {offset : Nat} {block : Bytes} {extended : SafeBuffer}
    (represents : raw.Represents sb) (behind : sb.used = offset)
    (room : offset + block.length ≤ sb.allocated) (allocated : extended.allocated = sb.allocated)
    (bytes : extended.bytes = sb.bytes ++ block) :
    RawBuffer.Represents
      { raw with
        buffer := RawBuffer.store raw.buffer offset (block.map some)
        used := offset + block.length } extended := by
  subst behind
  have used := represents.used_eq
  have length := represents.length_eq
  rw [represents.allocated_eq] at length
  have inUse : sb.used ≤ raw.buffer.length := by omega
  refine ⟨represents.allocated_eq.trans allocated.symm, ?_, ?_, ?_⟩
  · exact (SafeBuffer.used_of_bytes bytes).symm
  · simp only [RawBuffer.store, List.length_append, List.length_take, List.length_drop,
      List.length_map, represents.allocated_eq]
    omega
  · have stored := @take_store raw.buffer _ (block.map some) inUse
    rw [List.length_map] at stored
    have octets := represents.octets_eq
    rw [used] at octets
    rw [stored, octets, bytes, List.map_append]

theorem refines_append {block : Bytes} (represents : raw.Represents sb)
    (apart : sb.used + block.length + 64 ≤ 2 ^ 64) :
    Refines (raw.safeBufferAppend (block.map some)) (sb.append block) := by
  have grows := refines_resize represents apart
  unfold RawBuffer.safeBufferAppend
  simp only [List.length_map, represents.used_eq, RawBuffer.sizeT_eq apart]
  generalize raw.safeBufferResize (sb.used + block.length) = result at grows
  simp only [SafeBuffer.append]
  split
  · rename_i exit failed
    rw [failed] at grows
    cases grows
    exact .error exit
  · rename_i grown done
    have room := SafeBuffer.le_allocated_of_resize done
    rw [done] at grows
    cases grows with
    | ok kept =>
        have used : grown.used = sb.used := by
          unfold SafeBuffer.used
          rw [room.2]
        apply Refines.ok
        simp only [kept.used_eq, used, RawBuffer.sizeT_eq apart]
        exact kept.store used room.1 rfl rfl

/-- Setting `used` to 0 makes the storage that of the cleared buffer. -/
theorem RawBuffer.Represents.clear (represents : raw.Represents sb) :
    RawBuffer.Represents { raw with used := 0 } sb.clear :=
  ⟨represents.allocated_eq, rfl, represents.length_eq, rfl⟩

theorem safeBufferPad_eq (raw : RawBuffer) (count : Nat) :
    raw.safeBufferPad count = raw.safeBufferAppend ((List.replicate count 0).map some) := by
  simp only [RawBuffer.safeBufferPad, RawBuffer.safeBufferAppend, List.map_replicate,
    List.length_replicate]

/-- Every call does the same to the storage as to the buffer. -/
theorem refines_call {call : BufferCall} (represents : raw.Represents sb)
    (apart : call.capacity sb.used + 64 ≤ 2 ^ 64) : Refines (raw.call call) (sb.call call) := by
  cases call with
  | append block => exact refines_append represents apart
  | pad count =>
      change Refines (raw.safeBufferPad count) _
      rw [safeBufferPad_eq]
      apply refines_append represents
      rw [List.length_replicate]
      exact apart
  | resize n => exact refines_resize represents apart

end

/-! ## What a sequence of calls does to a `SafeBuffer` -/

namespace SafeBuffer

variable {sb last : SafeBuffer} {call : BufferCall} {calls : List BufferCall}

theorem allocated_le_of_resize {n : Nat} (done : sb.resize n = .ok last) :
    sb.allocated ≤ last.allocated := by
  simp only [resize] at done
  split at done
  · rename_i grows
    split at done
    · cases done
    · cases done
      exact grows.le.trans (le_roundUp n)
  · cases done
    exact le_rfl

theorem append_eq_ok {block : Bytes} (done : sb.append block = .ok last) :
    last.bytes = sb.bytes ++ block ∧ sb.allocated ≤ last.allocated ∧
      sb.used + block.length ≤ last.allocated := by
  simp only [append] at done
  split at done
  · cases done
  · rename_i grown resized
    cases done
    have room := le_allocated_of_resize resized
    have grew := allocated_le_of_resize resized
    refine ⟨?_, grew, room.1⟩
    dsimp only
    rw [room.2]

/-- What a call does that returns. -/
theorem call_eq_ok (done : sb.call call = .ok last) :
    last.bytes = sb.bytes ++ call.octets ∧ sb.allocated ≤ last.allocated ∧
      call.capacity sb.used ≤ last.allocated := by
  cases call with
  | append block => exact append_eq_ok done
  | pad count =>
      have padded := append_eq_ok done
      rw [List.length_replicate] at padded
      exact padded
  | resize n =>
      have room := le_allocated_of_resize done
      refine ⟨?_, allocated_le_of_resize done, room.1⟩
      rw [room.2]
      exact (List.append_nil _).symm

theorem exists_call (fits : call.capacity sb.used ≤ 64 * 1024) : ∃ last, sb.call call = .ok last := by
  cases call with
  | append block =>
      rcases append_ok sb block fits with ⟨last, done, -⟩
      exact ⟨last, done⟩
  | pad count =>
      have fitting : sb.used + (List.replicate count (0 : UInt8)).length ≤ 64 * 1024 := by
        rw [List.length_replicate]
        exact fits
      rcases append_ok sb _ fitting with ⟨last, done, -⟩
      exact ⟨last, done⟩
  | resize n =>
      rcases resize_ok sb fits with ⟨last, done, -⟩
      exact ⟨last, done⟩

/-- A call that requests more than 64 KiB ends the program. -/
theorem call_error (exceeds : 64 * 1024 < call.capacity sb.used) :
    sb.call call = .error .safeBufferResize := by
  cases call with
  | append block => exact append_error exceeds
  | pad count =>
      apply append_error
      rw [List.length_replicate]
      exact exceeds
  | resize n => exact resize_error sb exceeds

theorem calls_cons : sb.calls (call :: calls) = sb.call call >>= fun next => next.calls calls :=
  rfl

theorem calls_append (before after : List BufferCall) :
    sb.calls (before ++ after) = sb.calls before >>= fun next => next.calls after :=
  List.foldlM_append

theorem calls_eq_ok (done : sb.calls calls = .ok last) :
    last.bytes = sb.bytes ++ BufferCall.contents calls ∧ sb.allocated ≤ last.allocated ∧
      ∀ n ∈ BufferCall.requests sb.used calls, n ≤ last.allocated := by
  induction calls generalizing sb with
  | nil =>
      cases done
      exact ⟨(List.append_nil _).symm, le_rfl, by simp [BufferCall.requests]⟩
  | cons call rest ih =>
      rw [calls_cons] at done
      rcases first : sb.call call with exit | next
      · rw [first] at done
        cases done
      · rw [first] at done
        have step := call_eq_ok first
        have later := ih done
        rw [used_of_bytes step.1] at later
        refine ⟨?_, step.2.1.trans later.2.1, ?_⟩
        · rw [later.1, step.1, List.append_assoc]
          rfl
        · simp only [BufferCall.requests, List.mem_cons, forall_eq_or_imp]
          exact ⟨step.2.2.trans later.2.1, later.2.2⟩

/-- Either all calls return, or some call is the first to request more than
64 KiB. -/
theorem calls_cases (sb : SafeBuffer) (calls : List BufferCall) :
    (∃ last, sb.calls calls = .ok last) ∨
      ∃ before call after middle, calls = before ++ call :: after ∧
        sb.calls before = .ok middle ∧ 64 * 1024 < call.capacity middle.used := by
  induction calls generalizing sb with
  | nil => exact .inl ⟨sb, rfl⟩
  | cons call rest ih =>
      by_cases fits : call.capacity sb.used ≤ 64 * 1024
      · rcases exists_call fits with ⟨next, first⟩
        rcases ih next with ⟨last, done⟩ | ⟨before, later, after, middle, rfl, done, exceeds⟩
        · left
          exact ⟨last, by rw [calls_cons, first]; exact done⟩
        · right
          refine ⟨call :: before, later, after, middle, rfl, ?_, exceeds⟩
          rw [calls_cons, first]
          exact done
      · right
        exact ⟨[], call, rest, sb, rfl, rfl, by omega⟩

end SafeBuffer

/-! ## Appending blocks -/

namespace SafeBuffer

variable {sb last : SafeBuffer} {blocks : List Bytes}

theorem contents_appends (blocks : List Bytes) :
    BufferCall.contents (blocks.map .append) = blocks.flatten := by
  unfold BufferCall.contents
  rw [List.flatMap_map]
  exact List.flatMap_id

theorem calls_appends_ok (fits : sb.used + blocks.flatten.length ≤ 64 * 1024) :
    ∃ last, sb.calls (blocks.map .append) = .ok last ∧ last.bytes = sb.bytes ++ blocks.flatten := by
  rcases calls_cases sb (blocks.map .append) with
    ⟨last, done⟩ | ⟨before, call, after, middle, split, done, exceeds⟩
  · refine ⟨last, done, ?_⟩
    rw [(calls_eq_ok done).1, contents_appends]
  · have octets := contents_appends blocks
    have listed : call ∈ blocks.map BufferCall.append := by
      rw [split]
      simp
    rcases List.mem_map.mp listed with ⟨block, -, rfl⟩
    have used := used_of_bytes (calls_eq_ok done).1
    rw [split] at octets
    have length := congrArg List.length octets
    simp only [BufferCall.contents, List.flatMap_append, List.flatMap_cons, List.length_append,
      BufferCall.octets] at length
    simp only [BufferCall.capacity, BufferCall.contents] at exceeds used
    omega

theorem calls_appends_error (exceeds : 64 * 1024 < sb.used + blocks.flatten.length) :
    sb.calls (blocks.map .append) = .error .safeBufferResize := by
  rcases calls_cases sb (blocks.map .append) with
    ⟨last, done⟩ | ⟨before, call, after, middle, split, done, tooLarge⟩
  · have bytes := (calls_eq_ok done).1
    rw [contents_appends] at bytes
    have used := used_of_bytes bytes
    have bound := last.used_le_max
    omega
  · rw [split, calls_append, done]
    change middle.calls (call :: after) = _
    rw [calls_cons, call_error tooLarge]
    rfl

end SafeBuffer

/-! ## What it does to the storage -/

namespace RawBuffer

open BufferCall

variable {raw : RawBuffer} {sb : SafeBuffer} {calls : List BufferCall}

theorem calls_append (before after : List BufferCall) :
    raw.calls (before ++ after) = raw.calls before >>= fun next => next.calls after :=
  List.foldlM_append

theorem refines_calls (represents : raw.Represents sb)
    (apart : Apart sb.used calls) : Refines (raw.calls calls) (sb.calls calls) := by
  induction calls generalizing raw sb with
  | nil => exact .ok represents
  | cons call rest ih =>
      have first := refines_call represents apart.1
      change Refines (raw.call call >>= fun next => next.calls rest) _
      rw [SafeBuffer.calls_cons]
      rcases done : sb.call call with exit | next
      · rw [done] at first
        generalize raw.call call = result at first ⊢
        cases first
        exact .error exit
      · rw [done] at first
        generalize raw.call call = result at first ⊢
        cases first with
        | ok kept =>
            have spec := SafeBuffer.call_eq_ok done
            apply ih kept
            rw [SafeBuffer.used_of_bytes spec.1]
            exact apart.2 (spec.2.2.trans next.allocated_le)

theorem calls_eq_error {exit : Exit} (apart : Apart 0 calls)
    (failed : SafeBuffer.new.calls calls = .error exit) : new.calls calls = .error exit := by
  have refines := refines_calls represents_new apart
  rw [failed] at refines
  generalize new.calls calls = outcome at refines ⊢
  cases refines
  rfl

/-- The octets in use of the storage are those of `block`. -/
structure Holds (raw : RawBuffer) (block : Bytes) : Prop where
  used_eq : raw.used = block.length
  octets_eq : raw.buffer.take raw.used = block.map some

theorem Represents.holds (represents : raw.Represents sb) : raw.Holds sb.bytes :=
  ⟨represents.used_eq, represents.octets_eq⟩

/-- What holds of the storage after a sequence of calls on a new buffer. -/
structure Faithful (calls : List BufferCall) (raw : RawBuffer) : Prop where
  used_le : raw.used ≤ raw.allocated
  aligned : 64 ∣ raw.allocated
  requested_le : ∀ n ∈ requests 0 calls, n ≤ raw.allocated
  allocated_le : raw.allocated ≤ 64 * 1024
  holds : raw.Holds (contents calls)

theorem faithful_of_represents (represents : raw.Represents sb)
    (done : SafeBuffer.new.calls calls = .ok sb) : Faithful calls raw := by
  have spec := SafeBuffer.calls_eq_ok done
  constructor
  · rw [represents.used_eq, represents.allocated_eq]
    exact sb.used_le
  · rw [represents.allocated_eq]
    exact sb.aligned
  · rw [represents.allocated_eq]
    exact spec.2.2
  · rw [represents.allocated_eq]
    exact sb.allocated_le
  · have holds := represents.holds
    rw [spec.1] at holds
    exact holds

/-- A sequence of calls on new storage does the same as on a new buffer. -/
theorem represents_calls (apart : Apart 0 calls) (done : SafeBuffer.new.calls calls = .ok sb) :
    ∃ raw, new.calls calls = .ok raw ∧ raw.Represents sb := by
  have refines := refines_calls represents_new apart
  rw [done] at refines
  generalize result : new.calls calls = outcome at refines ⊢
  cases refines with
  | ok represents => exact ⟨_, rfl, represents⟩

theorem exists_of_calls (apart : Apart 0 calls) (done : new.calls calls = .ok raw) :
    ∃ sb, SafeBuffer.new.calls calls = .ok sb ∧ raw.Represents sb := by
  have refines := refines_calls represents_new apart
  rw [done] at refines
  generalize result : SafeBuffer.new.calls calls = outcome at refines ⊢
  cases refines with
  | ok represents => exact ⟨_, rfl, represents⟩

/-- The program exits at the first call that requests more than 64 KiB. -/
def ExitsAtFirst (calls : List BufferCall) : Prop :=
  ∃ before call after raw, calls = before ++ call :: after ∧ new.calls before = .ok raw ∧
    Faithful before raw ∧ 64 * 1024 < call.capacity raw.used ∧
    raw.call call = .error .safeBufferResize ∧ new.calls calls = .error .safeBufferResize

/-- After every call the storage is as it should be, and it never shrinks. -/
def FaithfulThroughout (calls : List BufferCall) : Prop :=
  ∀ before after, calls = before ++ after → ∃ raw, new.calls before = .ok raw ∧
    Faithful before raw ∧ ∀ earlier between previous, before = earlier ++ between →
      new.calls earlier = .ok previous → previous.allocated ≤ raw.allocated

theorem exits_or_faithful (apart : Apart 0 calls) :
    ExitsAtFirst calls ∨ FaithfulThroughout calls := by
  rcases SafeBuffer.calls_cases SafeBuffer.new calls with
    ⟨last, done⟩ | ⟨before, call, after, middle, rfl, done, exceeds⟩
  · right
    rintro before after rfl
    rw [SafeBuffer.calls_append] at done
    rcases reached : SafeBuffer.new.calls before with exit | sb
    · rw [reached] at done
      cases done
    rcases represents_calls apart.of_append reached with ⟨raw, rawReached, represents⟩
    refine ⟨raw, rawReached, faithful_of_represents represents reached, ?_⟩
    rintro earlier between previous rfl previousReached
    rcases exists_of_calls apart.of_append.of_append previousReached with
      ⟨first, firstReached, firstRepresents⟩
    rw [SafeBuffer.calls_append, firstReached] at reached
    rw [represents.allocated_eq, firstRepresents.allocated_eq]
    exact (SafeBuffer.calls_eq_ok reached).2.1
  · left
    have exits := SafeBuffer.call_error exceeds
    rcases represents_calls apart.of_append done with ⟨raw, reached, represents⟩
    have failed : ∀ later, SafeBuffer.new.calls (before ++ call :: later) =
        .error .safeBufferResize := by
      intro later
      rw [SafeBuffer.calls_append, done]
      change middle.calls (call :: later) = _
      rw [SafeBuffer.calls_cons, exits]
      rfl
    have upToCall : Apart 0 (before ++ [call]) := by
      rw [List.append_cons] at apart
      exact apart.of_append
    have last := calls_eq_error upToCall (failed [])
    rw [calls_append, reached] at last
    refine ⟨before, call, after, raw, rfl, reached, faithful_of_represents represents done, ?_, ?_,
      calls_eq_error apart (failed after)⟩
    · rw [represents.used_eq]
      exact exceeds
    · change (raw.call call >>= pure) = _ at last
      rw [bind_pure] at last
      exact last

/-! ## A list of buffers -/

theorem safeBufferListToSafeBuffer_eq {sbl : List RawBuffer} {blocks : List Bytes}
    (holds : List.Forall₂ Holds sbl blocks) (raw : RawBuffer) :
    safeBufferListToSafeBuffer sbl raw = raw.calls (blocks.map .append) := by
  induction holds generalizing raw with
  | nil => rfl
  | @cons cur block sbl blocks first _ ih =>
      have later : ∀ next : RawBuffer, safeBufferListToSafeBuffer sbl next =
          next.calls (blocks.map .append) := ih
      change (raw.safeBufferAppend (cur.buffer.take cur.used) >>=
        safeBufferListToSafeBuffer sbl) = _
      rw [first.octets_eq, funext later]
      rfl

/-- The storage is that of a new buffer after these calls. -/
def Built (calls : List BufferCall) (raw : RawBuffer) : Prop :=
  Apart 0 calls ∧ new.calls calls = .ok raw

theorem Built.holds (built : Built calls raw) :
    raw.Holds (contents calls) ∧ (contents calls).length ≤ 64 * 1024 := by
  rcases exists_of_calls built.1 built.2 with ⟨sb, done, represents⟩
  have bytes : sb.bytes = contents calls := (SafeBuffer.calls_eq_ok done).1
  rw [← bytes]
  exact ⟨represents.holds, sb.used_le_max⟩

theorem length_le_of_built {sources : List (List BufferCall)} {sbl : List RawBuffer}
    (built : List.Forall₂ Built sources sbl) :
    ∀ block ∈ sources.map contents, block.length ≤ 64 * 1024 := by
  induction built with
  | nil => simp
  | cons first _ ih =>
      simp only [List.map_cons, List.mem_cons, forall_eq_or_imp]
      exact ⟨first.holds.2, ih⟩

/-- The list is appended to the destination, unless that requests more than
64 KiB, where the program exits. -/
structure Collects (sbl : List RawBuffer) (dest : RawBuffer) (octets : Bytes) : Prop where
  fits : octets.length ≤ 64 * 1024 →
    ∃ raw, safeBufferListToSafeBuffer sbl dest = .ok raw ∧ raw.Holds octets
  exceeds : 64 * 1024 < octets.length →
    safeBufferListToSafeBuffer sbl dest = .error .safeBufferResize

theorem collects {dest : RawBuffer} (built : Built calls dest) {sources : List (List BufferCall)}
    {sbl : List RawBuffer} (sourcesBuilt : List.Forall₂ Built sources sbl) :
    Collects sbl dest (contents calls ++ (sources.map contents).flatten) := by
  have holds : List.Forall₂ Holds sbl (sources.map contents) := by
    rw [List.forall₂_map_right_iff]
    apply List.Forall₂.flip
    exact sourcesBuilt.imp fun _ _ source => source.holds.1
  have small := length_le_of_built sourcesBuilt
  rcases exists_of_calls built.1 built.2 with ⟨sb, done, represents⟩
  have bytes : sb.bytes = contents calls := (SafeBuffer.calls_eq_ok done).1
  have refines := refines_calls represents (apart_appends sb.used_le_max small)
  have used : sb.used = (contents calls).length := congrArg List.length bytes
  rw [← safeBufferListToSafeBuffer_eq holds] at refines
  constructor
  · intro fits
    rw [List.length_append, ← used] at fits
    rcases SafeBuffer.calls_appends_ok fits with ⟨last, appended, lastBytes⟩
    rw [appended] at refines
    generalize safeBufferListToSafeBuffer sbl dest = outcome at refines ⊢
    cases refines with
    | ok lastRepresents =>
        have lastHolds := lastRepresents.holds
        rw [lastBytes, bytes] at lastHolds
        exact ⟨_, rfl, lastHolds⟩
  · intro exceeds
    rw [List.length_append, ← used] at exceeds
    rw [SafeBuffer.calls_appends_error exceeds] at refines
    generalize safeBufferListToSafeBuffer sbl dest = outcome at refines ⊢
    cases refines
    rfl

/-- Either the program exits at the first call that requests more than 64 KiB, or
the storage is as it should be after every call, and a list of such buffers is
appended to it as a whole. -/
theorem safeBuffer_faithful (apart : Apart 0 calls) {sources : List (List BufferCall)}
    {sbl : List RawBuffer} (sourcesBuilt : List.Forall₂ Built sources sbl) :
    ExitsAtFirst calls ∨
      FaithfulThroughout calls ∧ ∃ dest, new.calls calls = .ok dest ∧
        Collects sbl dest (contents calls ++ (sources.map contents).flatten) := by
  rcases exits_or_faithful apart with exits | faithful
  · exact .inl exits
  · right
    rcases faithful calls [] (List.append_nil _).symm with ⟨dest, done, -⟩
    exact ⟨faithful, dest, done, collects ⟨apart, done⟩ sourcesBuilt⟩

def mixedCalls : List BufferCall :=
  [.append [1, 2], .resize 100, .pad 1]

theorem safeBuffer_mixedCalls :
    ExitsAtFirst mixedCalls ∨
      FaithfulThroughout mixedCalls ∧ ∃ dest, new.calls mixedCalls = .ok dest ∧
        Collects [⟨64, 1, some 7 :: List.replicate 63 none⟩] dest [1, 2, 0, 7] := by
  have apart : Apart 0 mixedCalls :=
    ⟨by decide, fun _ => ⟨by decide, fun _ => ⟨by decide, fun _ => trivial⟩⟩⟩
  have built : Built [.append [7]] ⟨64, 1, some 7 :: List.replicate 63 none⟩ :=
    ⟨⟨by decide, fun _ => trivial⟩, rfl⟩
  exact safeBuffer_faithful apart (.cons built .nil)

end RawBuffer

end Radvd
