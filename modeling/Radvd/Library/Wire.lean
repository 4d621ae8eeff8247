import Mathlib.Algebra.Ring.Nat
import Mathlib.Data.List.Basic
import Mathlib.Tactic.Common

/-!
# Bytes on the wire

Octet strings, the two big-endian integer codecs, and octet strings stored in
a byte-addressed memory.

A message buffer is a total function from offsets to octets. The octets past
the end of a received message are whatever the buffer holds, so a decoder is
modelled on the whole memory together with the number of octets received, and
every round trip below only assumes that the encoded octets are stored where
the decoder looks for them.
-/

namespace Wire

abbrev Bytes := List UInt8

/-- A byte-addressed memory. -/
abbrev Memory := Nat → UInt8

/-- The two octets of a 16-bit integer in network byte order. -/
def be16 (value : UInt16) : Bytes :=
  [UInt8.ofNat (value.toNat / 2 ^ 8), UInt8.ofNat value.toNat]

def be32 (value : UInt32) : Bytes :=
  [UInt8.ofNat (value.toNat / 2 ^ 24), UInt8.ofNat (value.toNat / 2 ^ 16),
    UInt8.ofNat (value.toNat / 2 ^ 8), UInt8.ofNat value.toNat]

@[simp]
theorem length_be16 (value : UInt16) : (be16 value).length = 2 := rfl

@[simp]
theorem length_be32 (value : UInt32) : (be32 value).length = 4 := rfl

namespace Memory

def u16 (mem : Memory) (offset : Nat) : UInt16 :=
  UInt16.ofNat ((mem offset).toNat * 2 ^ 8 + (mem (offset + 1)).toNat)

def u32 (mem : Memory) (offset : Nat) : UInt32 :=
  UInt32.ofNat ((mem offset).toNat * 2 ^ 24 + (mem (offset + 1)).toNat * 2 ^ 16 +
    (mem (offset + 2)).toNat * 2 ^ 8 + (mem (offset + 3)).toNat)

def slice (mem : Memory) (offset count : Nat) : Bytes :=
  (List.range count).map fun index => mem (offset + index)

/-- The octet string `block` is stored from `offset` on. -/
def Holds (mem : Memory) (offset : Nat) (block : Bytes) : Prop :=
  ∀ index, index < block.length → block[index]? = some (mem (offset + index))

/-- A memory that starts with the octet string. -/
def ofBytes (bytes : Bytes) : Memory :=
  fun index => bytes.getD index 0

theorem holds_ofBytes (bytes : Bytes) : (ofBytes bytes).Holds 0 bytes := by
  intro index bound
  simp [ofBytes, bound]

variable {mem : Memory} {offset : Nat}

@[simp]
theorem length_slice (mem : Memory) (offset count : Nat) :
    (mem.slice offset count).length = count := by
  simp [slice]

theorem slice_succ (mem : Memory) (offset count : Nat) :
    mem.slice offset (count + 1) = mem offset :: mem.slice (offset + 1) count := by
  simp [slice, List.range_succ_eq_map, Nat.add_assoc, Nat.add_comm 1]

theorem holds_iff_slice {block : Bytes} :
    mem.Holds offset block ↔ mem.slice offset block.length = block := by
  constructor
  · intro stored
    apply List.ext_getElem?
    intro index
    rcases Nat.lt_or_ge index block.length with bound | bound
    · rw [stored index bound]
      simp [slice, bound]
    · rw [List.getElem?_eq_none bound, List.getElem?_eq_none (by simpa using bound)]
  · intro equal index bound
    rw [← equal]
    simp [slice, bound]

@[simp]
theorem holds_nil : mem.Holds offset [] := by
  intro index bound
  simp at bound

theorem holds_cons {head : UInt8} {tail : Bytes} :
    mem.Holds offset (head :: tail) ↔ mem offset = head ∧ mem.Holds (offset + 1) tail := by
  constructor
  · intro stored
    refine ⟨by simpa using (stored 0 (by simp)).symm, ?_⟩
    intro index bound
    simpa [Nat.add_assoc, Nat.add_comm, Nat.add_left_comm] using
      stored (index + 1) (by simpa using bound)
  · rintro ⟨headStored, tailStored⟩ index bound
    rcases index with _ | index
    · simpa using headStored.symm
    · simpa [Nat.add_assoc, Nat.add_comm, Nat.add_left_comm] using
        tailStored index (by simpa using bound)

theorem eq_of_holds_head? {head : UInt8} {block : Bytes} (stored : mem.Holds offset block)
    (first : block.head? = some head) : mem offset = head := by
  cases block with
  | nil => cases first
  | cons other tail =>
      cases first
      exact (holds_cons.mp stored).1

theorem holds_append {first second : Bytes} :
    mem.Holds offset (first ++ second) ↔
      mem.Holds offset first ∧ mem.Holds (offset + first.length) second := by
  induction first generalizing offset with
  | nil => simp
  | cons head tail ih =>
      simp only [List.cons_append, holds_cons, ih, List.length_cons, and_assoc,
        Nat.add_assoc, Nat.add_comm 1]

theorem u16_of_holds {value : UInt16} (stored : mem.Holds offset (be16 value)) :
    mem.u16 offset = value := by
  simp only [be16, holds_cons, holds_nil, and_true] at stored
  rcases stored with ⟨high, low⟩
  apply UInt16.toNat_inj.mp
  simp only [u16, high, low, UInt16.toNat_ofNat', UInt8.toNat_ofNat']
  have := value.toNat_lt
  omega

theorem u32_of_holds {value : UInt32} (stored : mem.Holds offset (be32 value)) :
    mem.u32 offset = value := by
  simp only [be32, holds_cons, holds_nil, and_true, Nat.add_assoc, Nat.reduceAdd] at stored
  rcases stored with ⟨first, second, third, fourth⟩
  apply UInt32.toNat_inj.mp
  simp only [u32, first, second, third, fourth, UInt32.toNat_ofNat', UInt8.toNat_ofNat']
  have := value.toNat_lt
  omega

theorem slice_of_holds {block : Bytes} (stored : mem.Holds offset block) :
    mem.slice offset block.length = block :=
  holds_iff_slice.mp stored

theorem eq_of_holds_replicate {count : Nat} {octet : UInt8}
    (stored : mem.Holds offset (List.replicate count octet)) {index : Nat}
    (bound : index < count) : mem (offset + index) = octet := by
  have found := stored index (by simpa using bound)
  simpa [bound] using found.symm

end Memory

end Wire
