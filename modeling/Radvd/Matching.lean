import Radvd.Dump.Values
import Radvd.Receive

/-!
# Matching prefixes

`addr_match` compares whole words and then the leading bits of the next one. It
finds exactly the addresses that agree on the leading bits
(`value_addrMatch_iff`).
-/

namespace Radvd

open Wire Access Dump

theorem div_u32_mod (mem : Memory) (offset : Nat) {index : Nat} (bound : index < 4) :
    (mem.u32 offset).toNat / 2 ^ (8 * (3 - index)) % 2 ^ 8 = (mem (offset + index)).toNat := by
  have first := (mem offset).toNat_lt
  have second := (mem (offset + 1)).toNat_lt
  have third := (mem (offset + 2)).toNat_lt
  have fourth := (mem (offset + 3)).toNat_lt
  simp only [Memory.u32, UInt32.toNat_ofNat']
  rcases index with _ | _ | _ | _ | index
  · simp only [Nat.reduceSub, Nat.reduceMul, Nat.reducePow, Nat.add_zero]
    omega
  · simp only [Nat.reduceSub, Nat.reduceMul, Nat.reducePow, Nat.zero_add]
    omega
  · simp only [Nat.reduceSub, Nat.reduceMul, Nat.reducePow, Nat.zero_add, Nat.reduceAdd]
    omega
  · simp only [Nat.reduceSub, Nat.reduceMul, Nat.reducePow, Nat.zero_add, Nat.reduceAdd]
    omega
  · omega

/-- The bits of a word, counted from the front, are those of its octets. -/
theorem testBit_u32 (mem : Memory) (offset : Nat) {index : Nat} (bound : index < 32) :
    (mem.u32 offset).toNat.testBit (31 - index) =
      (mem (offset + index / 8)).toNat.testBit (7 - index % 8) := by
  rw [← div_u32_mod mem offset (by omega : index / 8 < 4)]
  simp only [Nat.testBit_mod_two_pow, Nat.testBit_div_two_pow]
  have low : 7 - index % 8 < 8 := by omega
  have position : 7 - index % 8 + 8 * (3 - index / 8) = 31 - index := by omega
  rw [position]
  simp [low]

/-- Two words have the same leading bits. -/
theorem div_eq_div_iff {first second count : Nat} (firstBound : first < 2 ^ 32)
    (secondBound : second < 2 ^ 32) (few : count ≤ 32) :
    first / 2 ^ (32 - count) = second / 2 ^ (32 - count) ↔
      ∀ index < count, first.testBit (31 - index) = second.testBit (31 - index) := by
  constructor
  · intro same index bound
    have bits := congrArg (Nat.testBit · (count - 1 - index)) same
    simp only [Nat.testBit_div_two_pow] at bits
    have position : count - 1 - index + (32 - count) = 31 - index := by omega
    rwa [position] at bits
  · intro same
    apply Nat.eq_of_testBit_eq
    intro index
    simp only [Nat.testBit_div_two_pow]
    by_cases inside : index < count
    · have bits := same (count - 1 - index) (by omega)
      have position : 31 - (count - 1 - index) = index + (32 - count) := by omega
      rwa [position] at bits
    · have beyond : ∀ value < 2 ^ 32, value.testBit (index + (32 - count)) = false := by
        intro value bound
        apply Nat.testBit_lt_two_pow
        exact bound.trans_le (Nat.pow_le_pow_right (by decide) (by omega))
      rw [beyond _ firstBound, beyond _ secondBound]

theorem eq_of_testBit {first second : UInt8}
    (bits : ∀ position < 8, first.toNat.testBit position = second.toNat.testBit position) :
    first = second := by
  apply UInt8.toNat_inj.mp
  apply Nat.eq_of_testBit_eq
  intro position
  by_cases low : position < 8
  · exact bits position low
  · have beyond : ∀ octet : UInt8, octet.toNat.testBit position = false := by
      intro octet
      apply Nat.testBit_lt_two_pow
      exact octet.toNat_lt.trans_le (Nat.pow_le_pow_right (by decide) (by omega) : 2 ^ 8 ≤ _)
    rw [beyond, beyond]

section

variable {mem : Memory} {offset : Nat} {own addr : In6Addr}

theorem toNat_octet_of_holds (stored : mem.Holds offset addr.toList) {index : Nat}
    (bound : index < 16) : mem (offset + index) = addr.toList.getD index 0 := by
  have octet := stored index (by simpa using bound)
  rw [List.getD, octet]
  rfl

theorem addrMatch_word (stored : mem.Holds offset addr.toList) {words count : Nat}
    (inside : words < 4) (few : count ≤ 32) :
    (Memory.u32 (fun index => own.toList.getD index 0) (4 * words)).toNat / 2 ^ (32 - count) =
        (mem.u32 (offset + 4 * words)).toNat / 2 ^ (32 - count) ↔
      ∀ index < count, addrBit own (32 * words + index) = addrBit addr (32 * words + index) := by
  rw [div_eq_div_iff (UInt32.toNat_lt _) (UInt32.toNat_lt _) few]
  apply forall_congr'
  intro index
  apply imp_congr_right
  intro bound
  have quotient : (32 * words + index) / 8 = 4 * words + index / 8 := by omega
  have remainder : (32 * words + index) % 8 = index % 8 := by omega
  rw [testBit_u32 _ _ (by omega), testBit_u32 _ _ (by omega), Nat.add_assoc,
    toNat_octet_of_holds stored (by omega)]
  simp only [addrBit, quotient, remainder]

theorem eq_of_addrBit {first second : In6Addr} {index : Nat}
    (bits : ∀ bit < 8, addrBit first (8 * index + bit) = addrBit second (8 * index + bit)) :
    first.toList.getD index 0 = second.toList.getD index 0 := by
  apply eq_of_testBit
  intro position low
  have bit := bits (7 - position) (by omega)
  have quotient : (8 * index + (7 - position)) / 8 = index := by omega
  have remainder : 7 - (8 * index + (7 - position)) % 8 = position := by omega
  simpa only [addrBit, quotient, remainder] using bit

/-- The first `count` octets are those of the address. -/
theorem slice_eq_take_iff (stored : mem.Holds offset addr.toList) {count : Nat}
    (bound : count ≤ 16) :
    mem.slice offset count = own.toList.take count ↔ AgreeOn (8 * count) own addr := by
  have octets : ∀ index < count, ((mem.slice offset count)[index]? = (own.toList.take count)[index]? ↔
      own.toList.getD index 0 = addr.toList.getD index 0) := by
    intro index inside
    have inOwn : index < own.toList.length := by rw [Vector.length_toList]; omega
    have inAddr : index < addr.toList.length := by rw [Vector.length_toList]; omega
    have inSlice : index < (mem.slice offset count).length := by rw [Memory.length_slice]; omega
    rw [List.getElem?_take_of_lt inside, List.getElem?_eq_getElem inOwn,
      List.getElem?_eq_getElem inSlice, Option.some_inj]
    simp only [Memory.slice, List.getElem_map, List.getElem_range,
      toNat_octet_of_holds stored (by omega : index < 16), List.getD,
      List.getElem?_eq_getElem inOwn, List.getElem?_eq_getElem inAddr, Option.getD_some]
    exact eq_comm
  constructor
  · intro same index inside
    have octet := (octets (index / 8) (by omega)).mp (by rw [same])
    simp only [addrBit, octet]
  · intro agree
    apply List.ext_getElem?
    intro index
    by_cases inside : index < count
    · rw [octets index inside]
      exact eq_of_addrBit fun bit low => agree _ (by omega)
    · rw [List.getElem?_eq_none (by rw [Memory.length_slice]; omega),
        List.getElem?_eq_none (by rw [List.length_take]; omega)]

theorem agreeOn_iff {bits fewer : Nat} (bound : fewer ≤ bits) :
    AgreeOn bits own addr ↔ AgreeOn fewer own addr ∧
      ∀ index < bits - fewer, addrBit own (fewer + index) = addrBit addr (fewer + index) := by
  constructor
  · exact fun agree => ⟨agree.mono bound, fun index inside => agree _ (by omega)⟩
  · rintro ⟨front, back⟩ index inside
    by_cases low : index < fewer
    · exact front index low
    · have bit := back (index - fewer) (by omega)
      rwa [Nat.add_sub_cancel' (by omega)] at bit

theorem value_addrMatch_iff (stored : mem.Holds offset addr.toList) {prefixlen : Nat}
    (short : prefixlen ≤ 128) :
    (addrMatch mem own offset prefixlen).value = true ↔ AgreeOn prefixlen own addr := by
  have words : 8 * (4 * (prefixlen / 32)) = 32 * (prefixlen / 32) := by omega
  have rest : prefixlen - 32 * (prefixlen / 32) = prefixlen % 32 := by omega
  have whole := @slice_eq_take_iff _ _ own _ stored (4 * (prefixlen / 32)) (by omega)
  rw [words] at whole
  rw [agreeOn_iff (by omega : 32 * (prefixlen / 32) ≤ prefixlen), rest, ← whole]
  simp only [addrMatch, value_bind, value_loadSlice, value_ite, value_load32, value_pure]
  by_cases same : mem.slice offset (4 * (prefixlen / 32)) =
      own.toList.take (4 * (prefixlen / 32))
  · by_cases none : prefixlen % 32 = 0
    · simp [same, none]
    · have word := @addrMatch_word _ _ own _ stored (prefixlen / 32) (prefixlen % 32) (by omega)
        (by omega)
      simp only [same, none, ne_eq, not_true_eq_false, if_false, true_and, decide_eq_true_eq]
      exact word
  · simp [same]

end

end Radvd
