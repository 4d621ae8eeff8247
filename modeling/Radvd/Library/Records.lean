import Radvd.Library.Wire

/-!
# Buffers of aligned records

A record begins with a header that gives its length, and the next one begins at the
next multiple of four octets. The walk is the loop of every reader of such a buffer,
which stops where what is left holds no whole record.

On a buffer into which a sequence of records was received, or as much of it as there
was room for, the walk visits exactly those that were received as a whole
(`visits_walk`).
-/

namespace Records

open Wire

/-- The size of the header, and the length that it gives. -/
structure Layout where
  header : Nat
  length : Memory → Nat → Nat
  header_pos : 0 < header

structure Record where
  offset : Nat
  length : Nat
  deriving DecidableEq, Repr

def align (length : Nat) : Nat :=
  (length + 3) / 4 * 4

theorem le_align (length : Nat) : length ≤ align length := by
  unfold align
  omega

/-- The records from `offset` on while `len` octets are left. -/
def Layout.walk (layout : Layout) (mem : Memory) (offset : Nat) (len : Int) : List Record :=
  let length := layout.length mem offset
  if layout.header ≤ len ∧ layout.header ≤ length ∧ length ≤ len then
    ⟨offset, length⟩ :: layout.walk mem (offset + align length) (len - align length)
  else []
termination_by len.toNat
decreasing_by
  have := layout.header_pos
  have := le_align (layout.length mem offset)
  omega

/-- The octets are those of a record: its header gives their number. -/
structure Layout.Formed (layout : Layout) (block : Bytes) : Prop where
  header_le : layout.header ≤ block.length
  length_eq : ∀ mem offset, Memory.Holds mem offset (block.take layout.header) →
    layout.length mem offset = block.length

/-- The record is followed by octets up to the next multiple of four. -/
def padded (block : Bytes) : Bytes :=
  block ++ List.replicate (align block.length - block.length) 0

@[simp]
theorem length_padded (block : Bytes) : (padded block).length = align block.length := by
  have := le_align block.length
  simp only [padded, List.length_append, List.length_replicate]
  omega

/-- The records one after the other. -/
def stream (blocks : List Bytes) : Bytes :=
  blocks.flatMap padded

theorem length_stream_cons (block : Bytes) (rest : List Bytes) :
    (stream (block :: rest)).length = align block.length + (stream rest).length := by
  simp [stream]

/-- The elements whose records are whole within the first `len` octets of the stream. -/
def whole {α : Type} (size : α → Nat) (len : Nat) : List α → List α
  | [] => []
  | element :: rest =>
      if size element ≤ len then element :: whole size (len - align (size element)) rest else []

theorem whole_map {α β : Type} {size : β → Nat} {encode : α → β} {len : Nat} {elements : List α} :
    whole size len (elements.map encode) = (whole (size ∘ encode) len elements).map encode := by
  induction elements generalizing len with
  | nil => rfl
  | cons element rest ih =>
      rw [List.map_cons]
      unfold whole
      split
      · rw [if_pos (by assumption), ih, List.map_cons]
        rfl
      · rw [if_neg (by assumption)]
        rfl

/-- Nothing is lost where there is room for all. -/
theorem whole_stream (blocks : List Bytes) :
    whole List.length (stream blocks).length blocks = blocks := by
  induction blocks with
  | nil => rfl
  | cons block rest ih =>
      have aligned := le_align block.length
      rw [length_stream_cons, whole, if_pos (by omega), Nat.add_sub_cancel_left, ih]

/-- What is beyond the end of the stream does not count. -/
theorem whole_min (len : Nat) (blocks : List Bytes) :
    whole List.length (min len (stream blocks).length) blocks = whole List.length len blocks := by
  induction blocks generalizing len with
  | nil => rfl
  | cons block rest ih =>
      have aligned := le_align block.length
      have left : min len (align block.length + (stream rest).length) - align block.length =
          min (len - align block.length) (stream rest).length := by
        omega
      rw [length_stream_cons]
      unfold whole
      rw [left, ih]
      apply if_congr _ rfl rfl
      omega

theorem mem_of_mem_whole {α : Type} {size : α → Nat} {len : Nat} {elements : List α} {element : α}
    (member : element ∈ whole size len elements) : element ∈ elements := by
  induction elements generalizing len with
  | nil => exact member
  | cons first rest ih =>
      unfold whole at member
      split at member
      · rcases List.mem_cons.mp member with rfl | later
        · exact List.mem_cons_self ..
        · exact List.mem_cons_of_mem _ (ih later)
      · cases member

/-- The record is at this place in the memory. -/
structure Visits (mem : Memory) (record : Record) (block : Bytes) : Prop where
  length : record.length = block.length
  stored : mem.Holds record.offset block

section

variable {layout : Layout} {mem : Memory} {offset : Nat}

theorem holds_take {block : Bytes} (stored : mem.Holds offset block) (count : Nat) :
    mem.Holds offset (block.take count) := by
  rw [← List.take_append_drop count block, Memory.holds_append] at stored
  exact stored.1

theorem holds_front {first rest : Bytes} {count : Nat}
    (stored : mem.Holds offset ((first ++ rest).take count)) (bound : first.length ≤ count) :
    mem.Holds offset first := by
  rw [List.take_append, List.take_of_length_le bound, Memory.holds_append] at stored
  exact stored.1

theorem walk_of_short {len : Int} (short : len < layout.header) :
    layout.walk mem offset len = [] := by
  rw [Layout.walk]
  apply if_neg
  omega

theorem whole_zero {blocks : List Bytes} (formed : ∀ block ∈ blocks, layout.Formed block) :
    whole List.length 0 blocks = [] := by
  cases blocks with
  | nil => rfl
  | cons block rest =>
      have headerPos := layout.header_pos
      have headerLe := (formed block (List.mem_cons_self ..)).header_le
      exact if_neg (by omega)

/-- The walk over the first octets of a stream. -/
theorem visits_walk {blocks : List Bytes} (formed : ∀ block ∈ blocks, layout.Formed block)
    {len : Nat} (bound : len ≤ (stream blocks).length)
    (stored : mem.Holds offset ((stream blocks).take len)) :
    List.Forall₂ (Visits mem) (layout.walk mem offset len) (whole List.length len blocks) := by
  have headerPos := layout.header_pos
  induction blocks generalizing offset len with
  | nil =>
      have none : len = 0 := by simpa [stream] using bound
      rw [none, walk_of_short (by omega)]
      exact .nil
  | cons block rest ih =>
      rw [List.forall_mem_cons] at formed
      have headerLe := formed.1.header_le
      have aligned := le_align block.length
      have split : stream (block :: rest) = padded block ++ stream rest := List.flatMap_cons
      rw [length_stream_cons] at bound
      rw [split] at stored
      unfold whole
      by_cases enough : layout.header ≤ len
      · have header : mem.Holds offset (block.take layout.header) := by
          have front := holds_take stored layout.header
          rw [List.take_take, min_eq_left enough, padded, List.append_assoc,
            List.take_append_of_le_length headerLe] at front
          exact front
        have length := formed.1.length_eq mem offset header
        rw [Layout.walk, length]
        by_cases fits : block.length ≤ len
        · have here : mem.Holds offset block := by
            rw [padded, List.append_assoc] at stored
            exact holds_front stored fits
          rw [if_pos ⟨by omega, headerLe, by omega⟩, if_pos fits]
          refine .cons ⟨rfl, here⟩ ?_
          by_cases more : align block.length ≤ len
          · have later : mem.Holds (offset + align block.length)
                ((stream rest).take (len - align block.length)) := by
              rw [List.take_append, length_padded, Memory.holds_append] at stored
              rw [List.take_of_length_le (by rw [length_padded]; exact more),
                length_padded] at stored
              exact stored.2
            have left : (len : Int) - align block.length = (len - align block.length : Nat) := by
              omega
            rw [left]
            exact ih formed.2 (by omega) later
          · rw [walk_of_short (by omega), Nat.sub_eq_zero_of_le (by omega), whole_zero formed.2]
            exact .nil
        · rw [if_neg (by omega), if_neg fits]
          exact .nil
      · rw [walk_of_short (by omega), if_neg (by omega)]
        exact .nil

end

end Records
