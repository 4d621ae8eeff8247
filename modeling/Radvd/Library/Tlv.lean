import Radvd.Library.Wire

/-!
# Walking a sequence of type-length-value options

An option starts with a type octet and a length octet that counts the whole
option in units of eight octets. The walk below is the loop every receiver of
such options runs: it stops at the end of the message, at a trailing octet, at
a zero length, at an option longer than what is left, or where the receiver
itself decides to return.

The main result is `walk_of_holds`: on the concatenation of well-formed blocks
the walk visits exactly these blocks and comes to its regular end.
-/

namespace Tlv

open Wire

inductive End where
  | finished
  | trailingGarbage
  | zeroLength
  | overlong
  | returned
  deriving DecidableEq, Repr

/-- One option met by a walk: its offset, its length in octets, and the number
of octets left in the message when it is met. -/
structure Visit where
  offset : Nat
  optlen : Nat
  len : Int
  deriving DecidableEq, Repr

def optlen (mem : Memory) (offset : Nat) : Nat :=
  (mem (offset + 1)).toNat * 8

/-- Walk the options from `offset` while `len` octets are left; `returns` tells
at which options the receiver leaves the loop for good. -/
def walk (mem : Memory) (returns : Visit → Bool) (offset : Nat) (len : Int) :
    List Visit × End :=
  if len ≤ 0 then ([], .finished)
  else if len < 2 then ([], .trailingGarbage)
  else if optlen mem offset = 0 then ([], .zeroLength)
  else if len < optlen mem offset then ([], .overlong)
  else if returns ⟨offset, optlen mem offset, len⟩ then
    ([⟨offset, optlen mem offset, len⟩], .returned)
  else
    let rest := walk mem returns (offset + optlen mem offset) (len - optlen mem offset)
    (⟨offset, optlen mem offset, len⟩ :: rest.1, rest.2)
termination_by len.toNat

/-- A block that announces its own length: the length octet is not zero and
counts the block exactly. -/
structure WellFormed (block : Bytes) : Prop where
  octet_pos : 1 ≤ (block.getD 1 0).toNat
  length_eq : block.length = 8 * (block.getD 1 0).toNat

/-- The options at the start of `bytes`, at most `count` of them. -/
def optionsUpTo : Nat → Bytes → List Bytes
  | 0, _ => []
  | count + 1, bytes =>
      let length := 8 * (bytes.getD 1 0).toNat
      if length = 0 ∨ bytes.length < length then []
      else bytes.take length :: optionsUpTo count (bytes.drop length)

/-- The options of an octet string, up to one that does not announce its own
length. -/
def options (bytes : Bytes) : List Bytes :=
  optionsUpTo bytes.length bytes

def visits (offset : Nat) (len : Int) : List Bytes → List Visit
  | [] => []
  | block :: rest =>
      ⟨offset, block.length, len⟩ :: visits (offset + block.length) (len - block.length) rest

namespace WellFormed

variable {block : Bytes}

theorem octet_le (_wellFormed : WellFormed block) : (block.getD 1 0).toNat ≤ 255 := by
  have := (block.getD 1 0).toNat_lt
  omega

theorem length_pos (wellFormed : WellFormed block) : 0 < block.length := by
  have := wellFormed.octet_pos
  have := wellFormed.length_eq
  omega

theorem ne_nil (wellFormed : WellFormed block) : block ≠ [] :=
  List.length_pos_iff.mp wellFormed.length_pos

theorem octet_of_holds (wellFormed : WellFormed block) {mem : Memory} {offset : Nat}
    (stored : mem.Holds offset block) : mem (offset + 1) = block.getD 1 0 := by
  have pos := wellFormed.octet_pos
  have length := wellFormed.length_eq
  have second := stored 1 (by omega)
  simp [List.getD, second]

end WellFormed

theorem optionsUpTo_flatten {blocks : List Bytes} (wellFormed : ∀ block ∈ blocks, WellFormed block)
    {count : Nat} (enough : blocks.flatten.length ≤ count) :
    optionsUpTo count blocks.flatten = blocks := by
  induction blocks generalizing count with
  | nil => cases count <;> simp [optionsUpTo]
  | cons block rest ih =>
      have formed := wellFormed block (List.mem_cons_self ..)
      have pos := formed.octet_pos
      have length := formed.length_eq
      rw [List.flatten_cons, List.length_append] at enough
      rcases count with _ | count
      · omega
      have second : (block ++ rest.flatten).getD 1 0 = block.getD 1 0 := by
        simp only [List.getD_eq_getElem?_getD]
        rw [List.getElem?_append_left (by omega)]
      have next := @ih (fun other member => wellFormed other (List.mem_cons_of_mem _ member)) count
        (by omega)
      rw [List.flatten_cons, optionsUpTo, second, ← length]
      rw [if_neg (by rw [List.length_append]; omega), List.take_left, List.drop_left, next]

/-- Well-formed blocks are the options of their concatenation. -/
theorem options_flatten {blocks : List Bytes} (wellFormed : ∀ block ∈ blocks, WellFormed block) :
    options blocks.flatten = blocks :=
  optionsUpTo_flatten wellFormed le_rfl

theorem length_flatten_cons (block : Bytes) (rest : List Bytes) :
    ((block :: rest).flatten.length : Int) = block.length + rest.flatten.length := by
  rw [List.flatten_cons, List.length_append, Int.natCast_add]

/-- The walk over well-formed blocks visits these blocks in order and finishes
with nothing left, unless the receiver returns early. -/
theorem walk_of_holds {mem : Memory} {returns : Visit → Bool} {blocks : List Bytes}
    {offset : Nat} (wellFormed : ∀ block ∈ blocks, WellFormed block)
    (stored : mem.Holds offset blocks.flatten)
    (stays : ∀ visit ∈ visits offset blocks.flatten.length blocks, returns visit = false) :
    walk mem returns offset blocks.flatten.length =
      (visits offset blocks.flatten.length blocks, .finished) := by
  induction blocks generalizing offset with
  | nil =>
      rw [walk]
      simp [visits]
  | cons block rest ih =>
      have blockFormed := wellFormed block (by simp)
      have pos := blockFormed.octet_pos
      have length := blockFormed.length_eq
      rw [List.flatten_cons, Memory.holds_append] at stored
      have octet := blockFormed.octet_of_holds stored.1
      have announced : optlen mem offset = block.length := by
        rw [optlen, octet]
        omega
      have total : ((block :: rest).flatten.length : Int) - block.length =
          rest.flatten.length := by rw [length_flatten_cons]; omega
      have stays' : ∀ visit ∈ visits (offset + block.length) rest.flatten.length rest,
          returns visit = false := by
        intro visit visitMem
        apply stays
        rw [visits, total]
        exact List.mem_cons_of_mem _ visitMem
      have here : returns ⟨offset, block.length, (block :: rest).flatten.length⟩ = false := by
        apply stays
        simp [visits]
      have flattenLength := length_flatten_cons block rest
      rw [walk, announced, here]
      rw [if_neg (by omega), if_neg (by omega), if_neg (by omega), if_neg (by omega),
        if_neg (by simp)]
      have next := ih (fun other otherMem => wellFormed other (by simp [otherMem])) stored.2
        stays'
      rw [visits, total, next]

/-- An option inside a message that ends at `finish`: it has the length that its
length octet says, and that much of the message is left. -/
structure Inside (mem : Memory) (finish : Int) (visit : Visit) : Prop where
  announced : visit.optlen = (mem (visit.offset + 1)).toNat * 8
  filled : visit.optlen ≠ 0
  bounded : (visit.optlen : Int) ≤ visit.len
  total : visit.offset + visit.len = finish

theorem Inside.offset_add_le {mem : Memory} {finish : Nat} {visit : Visit}
    (inside : Inside mem finish visit) :
    visit.offset + visit.optlen ≤ finish ∧ 8 ≤ visit.optlen := by
  rcases inside with ⟨announced, filled, bounded, total⟩
  omega

/-- Every option a walk visits lies inside the message. -/
theorem inside_of_mem_walk {mem : Memory} {returns : Visit → Bool} {offset : Nat} {len : Int}
    {visit : Visit} (visitMem : visit ∈ (walk mem returns offset len).1) :
    Inside mem (offset + len) visit := by
  fun_induction walk mem returns offset len with
  | case1 => cases visitMem
  | case2 => cases visitMem
  | case3 => cases visitMem
  | case4 => cases visitMem
  | case5 offset len notDone notShort notZero fits returned =>
      cases List.mem_singleton.mp visitMem
      exact ⟨rfl, notZero, Int.not_lt.mp fits, rfl⟩
  | case6 offset len notDone notShort notZero fits stays rest ih =>
      rcases List.mem_cons.mp visitMem with rfl | later
      · exact ⟨rfl, notZero, Int.not_lt.mp fits, rfl⟩
      · rcases ih later with ⟨announced, filled, bounded, total⟩
        exact ⟨announced, filled, bounded, by omega⟩

theorem slice_visits {mem : Memory} {blocks : List Bytes} {offset : Nat} {len : Int}
    (stored : mem.Holds offset blocks.flatten) :
    (visits offset len blocks).map (fun visit => mem.slice visit.offset visit.optlen) =
      blocks := by
  induction blocks generalizing offset len with
  | nil => simp [visits]
  | cons block rest ih =>
      rw [List.flatten_cons, Memory.holds_append] at stored
      simp only [visits, List.map_cons, ih stored.2, Memory.slice_of_holds stored.1]

theorem sum_optlen_visits (offset : Nat) (len : Int) (blocks : List Bytes) :
    ((visits offset len blocks).map Visit.optlen).sum = blocks.flatten.length := by
  induction blocks generalizing offset len with
  | nil => simp [visits]
  | cons block rest ih =>
      simp only [visits, List.map_cons, List.sum_cons, List.flatten_cons, List.length_append, ih]

/-- Every visit meets one of the blocks, stored in full and followed by no
fewer octets than the walk still counts. -/
theorem exists_block_of_mem_visits {mem : Memory} {blocks : List Bytes} {offset : Nat}
    (stored : mem.Holds offset blocks.flatten) {visit : Visit}
    (visitMem : visit ∈ visits offset blocks.flatten.length blocks) :
    ∃ block ∈ blocks, mem.Holds visit.offset block ∧ visit.optlen = block.length ∧
      (block.length : Int) ≤ visit.len := by
  induction blocks generalizing offset with
  | nil => simp [visits] at visitMem
  | cons block rest ih =>
      rw [List.flatten_cons, Memory.holds_append] at stored
      have total : ((block :: rest).flatten.length : Int) - block.length =
          rest.flatten.length := by rw [length_flatten_cons]; omega
      rw [visits, total] at visitMem
      rcases List.mem_cons.mp visitMem with rfl | later
      · refine ⟨block, by simp, stored.1, rfl, ?_⟩
        simp only [length_flatten_cons]
        omega
      · rcases ih stored.2 later with ⟨other, otherMem, rest⟩
        exact ⟨other, List.mem_cons_of_mem _ otherMem, rest⟩

/-- What holds of the type octets at the visits holds of those of the blocks. -/
theorem forall_visits_iff {mem : Memory} {blocks : List Bytes} {offset : Nat} {len : Int}
    {holds : UInt8 → Prop} (wellFormed : ∀ block ∈ blocks, WellFormed block)
    (stored : mem.Holds offset blocks.flatten) :
    (∀ visit ∈ visits offset len blocks, holds (mem visit.offset)) ↔
      ∀ block ∈ blocks, holds (block.getD 0 0) := by
  induction blocks generalizing offset len with
  | nil => simp [visits]
  | cons block rest ih =>
      simp only [List.mem_cons, forall_eq_or_imp] at wellFormed
      rw [List.flatten_cons, Memory.holds_append] at stored
      have first : mem offset = block.getD 0 0 := by
        have zero := stored.1 0 wellFormed.1.length_pos
        simp [List.getD, zero]
      simp only [visits, List.mem_cons, forall_eq_or_imp, ih wellFormed.2 stored.2, first]

/-- What a walk that comes to its regular end leaves behind decomposes into
well-formed blocks. -/
theorem exists_blocks_of_walk {mem : Memory} {returns : Visit → Bool} {offset : Nat} {left : Int}
    (nonneg : 0 ≤ left) (finished : (walk mem returns offset left).2 = .finished) :
    ∃ blocks : List Bytes, (∀ block ∈ blocks, WellFormed block) ∧
      mem.Holds offset blocks.flatten ∧ (blocks.flatten.length : Int) = left ∧
      ∀ visit ∈ visits offset left blocks, returns visit = false := by
  fun_induction walk mem returns offset left with
  | case1 offset left done =>
      have empty : left = 0 := by omega
      exact ⟨[], by simp, by simp, by simp [empty], by simp [visits]⟩
  | case2 => cases finished
  | case3 => cases finished
  | case4 => cases finished
  | case5 => cases finished
  | case6 offset left notDone notShort notZero fits stays rest ih =>
      rcases ih (by omega) finished with ⟨blocks, wellFormed, stored, length, returnsNot⟩
      set block := mem.slice offset (optlen mem offset) with sliced
      have blockLength : block.length = optlen mem offset := Memory.length_slice _ _ _
      have blockStored : mem.Holds offset block := by
        rw [Memory.holds_iff_slice, blockLength]
      have octet : block.getD 1 0 = mem (offset + 1) := by
        have second := blockStored 1 (by rw [blockLength]; unfold optlen at notZero ⊢; omega)
        simp [List.getD, second]
      have blockFormed : WellFormed block := by
        constructor
        · rw [octet]
          unfold optlen at notZero
          omega
        · rw [octet, blockLength]
          unfold optlen
          omega
      refine ⟨block :: blocks, ?_, ?_, ?_, ?_⟩
      · simp only [List.mem_cons, forall_eq_or_imp]
        exact ⟨blockFormed, wellFormed⟩
      · rw [List.flatten_cons, Memory.holds_append, blockLength]
        exact ⟨blockStored, stored⟩
      · rw [length_flatten_cons, length, blockLength]
        omega
      · simp only [visits, List.mem_cons, forall_eq_or_imp, blockLength]
        exact ⟨by simpa using stays, returnsNot⟩

/-- The walk comes to its regular end if and only if what is left of the message
decomposes into well-formed blocks at none of which the receiver returns. -/
theorem walk_finished_iff {mem : Memory} {returns : Visit → Bool} {offset len : Nat} :
    (walk mem returns offset len).2 = .finished ↔
      ∃ blocks : List Bytes, (∀ block ∈ blocks, WellFormed block) ∧
        mem.slice offset len = blocks.flatten ∧
        ∀ visit ∈ visits offset len blocks, returns visit = false := by
  constructor
  · intro finished
    rcases exists_blocks_of_walk (Int.natCast_nonneg len) finished with
      ⟨blocks, wellFormed, stored, length, stays⟩
    refine ⟨blocks, wellFormed, ?_, stays⟩
    rw [← Int.natCast_inj.mp length]
    exact Memory.slice_of_holds stored
  · rintro ⟨blocks, wellFormed, sliced, stays⟩
    have length : blocks.flatten.length = len := by rw [← sliced, Memory.length_slice]
    subst length
    rw [walk_of_holds wellFormed (Memory.holds_iff_slice.mpr sliced) stays]

end Tlv
