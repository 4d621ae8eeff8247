import Radvd.Matching

/-!
# Matching the addresses of the kernel

`prefix_match` compares whole octets if the length is a multiple of eight. Else it
goes through the bits, but its mask is one place off: it looks at the bit before
the one it is at, and never at the last bit of an octet or of the prefix
(`prefixMatch_iff_looked`). So it finds the addresses that `addr_match` finds, those
that agree with the prefix, only if what it does not look at makes no difference
(`prefixMatch_correct_iff`).
-/

namespace Radvd

open Wire Access Dump

/-! ## Single bits -/

theorem testBit_and (first second : UInt8) (position : Nat) :
    (first &&& second).toNat.testBit position =
      (first.toNat.testBit position && second.toNat.testBit position) := by
  rw [UInt8.toNat_and, Nat.testBit_and]

theorem testBit_mask {place position : Nat} (low : place < 8) :
    (UInt8.ofNat (2 ^ place)).toNat.testBit position = decide (place = position) := by
  have small : 2 ^ place < 2 ^ 8 := Nat.pow_lt_pow_right (by decide) low
  rw [UInt8.toNat_ofNat', Nat.mod_eq_of_lt small, Nat.testBit_two_pow]

/-- Two octets are the same under the mask of one bit. -/
theorem and_mask_eq_iff {first second : UInt8} {place : Nat} (low : place < 8) :
    first &&& UInt8.ofNat (2 ^ place) = second &&& UInt8.ofNat (2 ^ place) ↔
      first.toNat.testBit place = second.toNat.testBit place := by
  constructor
  · intro same
    have bits := congrArg (fun octet : UInt8 => octet.toNat.testBit place) same
    simpa only [testBit_and, testBit_mask low, decide_true, Bool.and_true] using bits
  · intro same
    apply eq_of_testBit
    intro position _
    rw [testBit_and, testBit_and, testBit_mask low]
    by_cases here : place = position
    · subst here
      rw [same]
    · simp [here]

/-! ## The comparison -/

section

variable {entry : AdvPrefix} {addr : In6Addr}

theorem take_eq_take_iff {own : In6Addr} {count : Nat} (bound : count ≤ 16) :
    own.toList.take count = addr.toList.take count ↔ AgreeOn (8 * count) own addr := by
  have stored := Memory.holds_ofBytes addr.toList
  rw [← slice_eq_take_iff stored bound, eq_comm]
  have front : (Memory.ofBytes addr.toList).slice 0 count = addr.toList.take count := by
    have held := Memory.holds_append.mp ((List.take_append_drop count addr.toList).symm ▸ stored)
    have sliced := Memory.slice_of_holds held.1
    rwa [List.length_take, Vector.length_toList, Nat.min_eq_left bound,
      List.take_append_drop] at sliced
  rw [front]

/-- A turn of the loop looks at the bit before, and at none in the first turn of
an octet. -/
theorem turn_iff (index : Nat) :
    (entry.prefixAddr.toList.getD (index / 8) 0 &&& UInt8.ofNat (2 ^ (8 - index % 8)) =
        addr.toList.getD (index / 8) 0 &&& UInt8.ofNat (2 ^ (8 - index % 8))) ↔
      (index % 8 ≠ 0 → addrBit entry.prefixAddr (index - 1) = addrBit addr (index - 1)) := by
  by_cases start : index % 8 = 0
  · simp [start]
  · have quotient : (index - 1) / 8 = index / 8 := by omega
    have remainder : 7 - (index - 1) % 8 = 8 - index % 8 := by omega
    rw [and_mask_eq_iff (by omega)]
    simp only [addrBit, quotient, remainder, ne_eq, start, not_false_iff, true_implies]

/-- Away from whole octets the last bit of each octet and the last bit of the
prefix are not looked at. -/
theorem prefixMatch_iff_looked (partly : entry.prefixLen.toNat % 8 ≠ 0) :
    prefixMatch entry addr = true ↔
      ∀ index, index + 1 < entry.prefixLen.toNat → index % 8 ≠ 7 →
        addrBit entry.prefixAddr index = addrBit addr index := by
  have notWhole : entry.prefixLen % 8 ≠ 0 := by
    intro whole
    apply partly
    have same := congrArg UInt8.toNat whole
    rwa [UInt8.toNat_mod] at same
  simp only [prefixMatch, notWhole, if_false, List.all_eq_true, List.mem_range, decide_eq_true_eq,
    turn_iff]
  constructor
  · intro turns index inside middle
    have turn := turns (index + 1) inside (by omega)
    rwa [Nat.add_sub_cancel] at turn
  · intro looked index inside inner
    exact looked (index - 1) (by omega) (by omega)

theorem prefixMatch_iff_of_whole (whole : entry.prefixLen.toNat % 8 = 0)
    (short : entry.prefixLen.toNat ≤ 128) :
    prefixMatch entry addr = true ↔ AgreeOn entry.prefixLen.toNat entry.prefixAddr addr := by
  have octets : entry.prefixLen % 8 = 0 := by
    apply UInt8.toNat_inj.mp
    rwa [UInt8.toNat_mod]
  have bits : 8 * (entry.prefixLen.toNat / 8) = entry.prefixLen.toNat := by omega
  have taken := @take_eq_take_iff addr entry.prefixAddr (entry.prefixLen.toNat / 8) (by omega)
  rw [bits] at taken
  rw [← taken]
  simp only [prefixMatch, octets, if_true, decide_eq_true_eq]

/-- `prefix_match` finds exactly the addresses that agree with the prefix, and it
answers as `addr_match` does, wherever the address is stored. -/
structure MatchesPrefix (entry : AdvPrefix) (addr : In6Addr) : Prop where
  iff_agree : prefixMatch entry addr = true ↔
    AgreeOn entry.prefixLen.toNat entry.prefixAddr addr
  eq_addrMatch : ∀ (mem : Memory) (offset : Nat), mem.Holds offset addr.toList →
    (addrMatch mem entry.prefixAddr offset entry.prefixLen.toNat).value = prefixMatch entry addr

theorem matchesPrefix_iff (short : entry.prefixLen.toNat ≤ 128) :
    MatchesPrefix entry addr ↔
      (prefixMatch entry addr = true ↔
        AgreeOn entry.prefixLen.toNat entry.prefixAddr addr) := by
  constructor
  · exact MatchesPrefix.iff_agree
  · intro agree
    refine ⟨agree, ?_⟩
    intro mem offset stored
    rw [Bool.eq_iff_iff, agree]
    exact value_addrMatch_iff stored short

/-- The two matchers agree on the prefixes of whole octets, and on the addresses
that differ from the prefix in a bit that is looked at or agree in those that are
not. -/
theorem prefixMatch_correct_iff (short : entry.prefixLen.toNat ≤ 128) :
    MatchesPrefix entry addr ↔
      entry.prefixLen.toNat % 8 = 0 ∨
        (∃ index, index + 1 < entry.prefixLen.toNat ∧ index % 8 ≠ 7 ∧
          addrBit entry.prefixAddr index ≠ addrBit addr index) ∨
        ∀ index < entry.prefixLen.toNat, index % 8 = 7 ∨ index + 1 = entry.prefixLen.toNat →
          addrBit entry.prefixAddr index = addrBit addr index := by
  rw [matchesPrefix_iff short]
  by_cases whole : entry.prefixLen.toNat % 8 = 0
  · simp only [whole, true_or, iff_true]
    exact prefixMatch_iff_of_whole whole short
  · rw [prefixMatch_iff_looked whole]
    simp only [whole, false_or]
    constructor
    · intro agree
      by_cases differs : ∃ index, index + 1 < entry.prefixLen.toNat ∧ index % 8 ≠ 7 ∧
          addrBit entry.prefixAddr index ≠ addrBit addr index
      · exact .inl differs
      · right
        intro index inside _
        apply agree.mp _ index inside
        intro other early middle
        by_contra unequal
        exact differs ⟨other, early, middle, unequal⟩
    · intro condition
      constructor
      · intro looked index inside
        by_cases skipped : index % 8 = 7 ∨ index + 1 = entry.prefixLen.toNat
        · rcases condition with ⟨other, early, middle, unequal⟩ | rest
          · exact absurd (looked other early middle) unequal
          · exact rest index inside skipped
        · rw [not_or] at skipped
          exact looked index (by omega) skipped.1
      · intro agree index inside _
        exact agree index (by omega)

end

/-- `2001:db8:0:2::/63`, whose last bit is set. -/
def oddPrefix : AdvPrefix :=
  { prefixInitDefaults with
    prefixAddr := ⟨#[0x20, 0x01, 0x0d, 0xb8, 0, 0, 0, 2, 0, 0, 0, 0, 0, 0, 0, 0], rfl⟩
    prefixLen := 63 }

/-- `2001:db8:0:2::1` -/
def onOddPrefix : In6Addr :=
  ⟨#[0x20, 0x01, 0x0d, 0xb8, 0, 0, 0, 2, 0, 0, 0, 0, 0, 0, 0, 1], rfl⟩

theorem matchesPrefix_oddPrefix : MatchesPrefix oddPrefix onOddPrefix := by
  apply (prefixMatch_correct_iff (by decide)).mpr
  refine .inr (.inr ?_)
  decide

/-- An address without the last bit of the prefix is found. -/
theorem not_matchesPrefix_oddPrefix :
    prefixMatch oddPrefix globalAddr = true ∧ ¬MatchesPrefix oddPrefix globalAddr := by
  have found : prefixMatch oddPrefix globalAddr = true := by decide
  refine ⟨found, ?_⟩
  intro correct
  have bit := correct.iff_agree.mp found 62 (by decide)
  revert bit
  decide

end Radvd
