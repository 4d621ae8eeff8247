import Radvd.Grammar.Blocks
import Radvd.IfaceRuns
import Radvd.KernelMatching

/-!
# Ignored prefixes

The parser makes the mask of an ignored prefix without a check of the length. It
has the leading bits set (`leadingBits_ignoreMask`), but the stores stay in its
array only for lengths below 136 (`writesInside_iff`).

With the lengths that a prefix can have, an address of an interface is left out
exactly if one of the prefixes is its own (`ignoresListed_iff`).
-/

namespace Radvd

open Wire Runs Grammar Dump

/-! ## Masks -/

/-- The leading bits are set and the others are not. -/
def LeadingBits (mask : In6Addr) (count : Nat) : Prop :=
  ∀ index < 128, addrBit mask index = decide (index < count)

theorem eq_iff_agreeOn {first second : In6Addr} :
    first = second ↔ AgreeOn 128 first second := by
  constructor
  · rintro rfl index _
    rfl
  · intro agree
    apply Vector.toList_inj.mp
    apply List.ext_getElem (by simp)
    intro index firstBound secondBound
    rw [Vector.length_toList] at firstBound
    have octet := eq_of_addrBit fun bit low => agree (8 * index + bit) (by omega)
    simpa [List.getD, firstBound] using octet

theorem LeadingBits.eq {first second : In6Addr} {count : Nat} (one : LeadingBits first count)
    (two : LeadingBits second count) : first = second := by
  apply eq_iff_agreeOn.mpr
  intro index inside
  rw [one index inside, two index inside]

theorem LeadingBits.count_eq {mask : In6Addr} {first second : Nat} (one : LeadingBits mask first)
    (two : LeadingBits mask second) (firstBound : first ≤ 128) (secondBound : second ≤ 128) :
    first = second := by
  have same : ∀ index < 128, (index < first ↔ index < second) := by
    intro index inside
    rw [← decide_eq_decide, ← one index inside, ← two index inside]
  by_contra differ
  rcases Nat.lt_or_gt_of_ne differ with less | less
  · have bit := same first (by omega)
    omega
  · have bit := same second (by omega)
    omega

theorem addrBit_getPrefix6 (addr mask : In6Addr) {index : Nat} (inside : index < 128) :
    addrBit (getPrefix6 addr mask) index = (addrBit addr index && addrBit mask index) := by
  have bound : index / 8 < 16 := by omega
  have octet : (getPrefix6 addr mask).toList.getD (index / 8) 0 =
      addr.toList.getD (index / 8) 0 &&& mask.toList.getD (index / 8) 0 := by
    simp [getPrefix6, List.getD, bound]
  rw [addrBit, octet, testBit_and]
  rfl

/-- Under one mask two addresses are the same exactly if they agree on its bits. -/
theorem getPrefix6_eq_iff {first second mask : In6Addr} {count : Nat}
    (leading : LeadingBits mask count) (bound : count ≤ 128) :
    getPrefix6 first mask = getPrefix6 second mask ↔ AgreeOn count first second := by
  rw [eq_iff_agreeOn]
  constructor
  · intro agree index inside
    have bit := agree index (by omega)
    rw [addrBit_getPrefix6 _ _ (by omega), addrBit_getPrefix6 _ _ (by omega),
      leading index (by omega)] at bit
    simpa [inside] using bit
  · intro agree index inside
    rw [addrBit_getPrefix6 _ _ inside, addrBit_getPrefix6 _ _ inside, leading index inside]
    by_cases low : index < count
    · rw [agree index low]
    · simp [low]

/-! ## Counting the bits -/

/-- An octet with so many leading bits. -/
def leadingOctet (count : Nat) : UInt8 :=
  UInt8.ofInt (-(2 ^ (8 - count)))

theorem testBit_leadingOctet :
    ∀ count < 8, ∀ position < 8,
      (leadingOctet count).toNat.testBit position = decide (8 - count ≤ position) := by
  decide

theorem countbits_leadingOctet : ∀ count < 8, countbits (leadingOctet count).toNat = count := by
  with_unfolding_all decide

theorem testBit_octet {mask : In6Addr} {count index position : Nat}
    (leading : LeadingBits mask count) (inside : index < 16) (low : position < 8) :
    (mask.toList.getD index 0).toNat.testBit position = decide (8 * index + 7 < count + position) := by
  have bit := leading (8 * index + (7 - position)) (by omega)
  have quotient : (8 * index + (7 - position)) / 8 = index := by omega
  have remainder : 7 - (8 * index + (7 - position)) % 8 = position := by omega
  simp only [addrBit, quotient, remainder] at bit
  rw [bit, decide_eq_decide]
  omega

theorem countbits_octet {mask : In6Addr} {count index : Nat} (leading : LeadingBits mask count)
    (inside : index < 16) :
    countbits (mask.toList.getD index 0).toNat = min 8 (count - 8 * index) := by
  by_cases full : 8 * index + 8 ≤ count
  · have all : mask.toList.getD index 0 = 255 := by
      apply eq_of_testBit
      intro position low
      have set : ∀ position < 8, (255 : UInt8).toNat.testBit position = true := by decide
      rw [testBit_octet leading inside low, set position low, decide_eq_true_eq]
      omega
    have eight : countbits (255 : UInt8).toNat = 8 := by with_unfolding_all decide
    rw [all, eight]
    omega
  · have some : mask.toList.getD index 0 = leadingOctet (count - 8 * index) := by
      apply eq_of_testBit
      intro position low
      rw [testBit_octet leading inside low, testBit_leadingOctet _ (by omega) _ low,
        decide_eq_decide]
      omega
    rw [some, countbits_leadingOctet _ (by omega)]
    omega

theorem sum_range_min (total count : Nat) :
    ((List.range count).map fun index => min 8 (total - 8 * index)).sum = min total (8 * count) := by
  induction count with
  | zero => simp
  | succ count ih =>
      rw [List.range_succ, List.map_append, List.sum_append, ih, List.map_singleton,
        List.sum_singleton]
      omega

theorem countMask_of_leadingBits {mask : In6Addr} {count : Nat} (leading : LeadingBits mask count)
    (bound : count ≤ 128) : countMask mask = count := by
  have octets : (mask.toList.map fun octet => countbits octet.toNat) =
      (List.range 16).map fun index => min 8 (count - 8 * index) := by
    apply List.ext_getElem (by simp)
    intro index firstBound _
    have inside : index < 16 := by simpa using firstBound
    have octet := countbits_octet leading inside
    simpa [List.getD, inside] using octet
  rw [countMask, octets, sum_range_min]
  omega

/-! ## The mask of the parser -/

/-- The stores of the action, in the order in which they are made. -/
def maskWrites (len : UInt32) : List (Nat × UInt8) :=
  (List.range (len.toNat / 8)).map (fun i => (i, 0xff)) ++
    if len.toNat / 8 ≠ 16 then [(len.toNat / 8, leadingOctet (len.toNat % 8))] else []

/-- They stay in the array of the mask. -/
def WritesInside (len : UInt32) : Prop :=
  ∀ write ∈ maskWrites len, write.1 < 16

/-- A store, if it is one into the array. -/
def storeOctet (mask : In6Addr) (write : Nat × UInt8) : In6Addr :=
  mask.setIfInBounds write.1 write.2

theorem getElem_stores (count : Nat) (mask : In6Addr) {index : Nat} (inside : index < 16) :
    (((List.range count).map fun i => (i, (0xff : UInt8))).foldl storeOctet mask)[index] =
      if index < count then 0xff else mask[index] := by
  induction count with
  | zero => rfl
  | succ count ih =>
      rw [List.range_succ, List.map_append, List.foldl_append, List.map_singleton, List.foldl_cons,
        List.foldl_nil]
      simp only [storeOctet, Vector.getElem_setIfInBounds] at ih ⊢
      rw [ih]
      split_ifs <;> first | rfl | omega

/-- The mask of the parser is made by these stores. -/
theorem ignoreMask_eq_stores (len : UInt32) :
    ignoreMask len = (maskWrites len).foldl storeOctet In6Addr.unspecified := by
  apply Vector.ext
  intro index inside
  have first := getElem_stores (len.toNat / 8) In6Addr.unspecified inside
  have zero : In6Addr.unspecified[index] = 0 := by simp [In6Addr.unspecified]
  rw [zero] at first
  unfold maskWrites
  rw [List.foldl_append]
  split_ifs with partly
  · simp only [List.foldl_cons, List.foldl_nil, storeOctet, Vector.getElem_setIfInBounds,
      ignoreMask, Vector.getElem_ofFn, leadingOctet] at first ⊢
    rw [first]
    split_ifs <;> first | rfl | omega
  · simp only [List.foldl_nil, ignoreMask, Vector.getElem_ofFn]
    rw [first, if_pos (by omega), if_pos (by omega)]

theorem writesInside_iff (len : UInt32) : WritesInside len ↔ len.toNat < 136 := by
  unfold WritesInside maskWrites
  constructor
  · intro inside
    by_contra large
    have last := inside (16, 0xff) (by
      apply List.mem_append_left
      exact List.mem_map.mpr ⟨16, List.mem_range.mpr (by omega), rfl⟩)
    exact absurd last (by decide)
  · intro small write member
    rcases List.mem_append.mp member with loop | last
    · rcases List.mem_map.mp loop with ⟨i, listed, rfl⟩
      rw [List.mem_range] at listed
      dsimp only
      omega
    · split_ifs at last with partly
      · rw [List.mem_singleton.mp last]
        dsimp only
        omega
      · cases last

theorem leadingBits_ignoreMask (len : UInt32) : LeadingBits (ignoreMask len) len.toNat := by
  intro index inside
  have bound : index / 8 < 16 := by omega
  have octet : (ignoreMask len).toList.getD (index / 8) 0 =
      if index / 8 < len.toNat / 8 then 0xff
      else if index / 8 = len.toNat / 8 then leadingOctet (len.toNat % 8) else 0 := by
    simp [ignoreMask, List.getD, bound, leadingOctet]
  rw [addrBit, octet]
  split_ifs with whole partly
  · have set : ∀ position < 8, (255 : UInt8).toNat.testBit position = true := by decide
    rw [set _ (by omega), eq_comm, decide_eq_true_eq]
    omega
  · rw [testBit_leadingOctet _ (by omega) _ (by omega), decide_eq_decide]
    omega
  · rw [eq_comm]
    simp only [UInt8.toNat_zero, Nat.zero_testBit, decide_eq_false_iff_not]
    omega

/-! ## The addresses -/

/-- One of the prefixes is that of the address, for the length of its netmask. -/
def IsListed (written : List IgnoreprefixText) (addr : In6Addr) (count : Nat) : Prop :=
  ∃ text ∈ written, text.len.written = count ∧ AgreeOn count text.addr addr

/-- What the entry of an ignored prefix is made of. -/
structure Masked (text : IgnoreprefixText) (entry : AutogenIgnorePrefix) : Prop where
  addr_eq : entry.prefixAddr = text.addr
  mask_eq : ∃ len, text.len.num = some len ∧ WritesInside len ∧
    entry.mask = (maskWrites len).foldl storeOctet In6Addr.unspecified
  short : text.len.written ≤ 128
  leading : LeadingBits entry.mask text.len.written

/-- The prefix that is advertised for an address. -/
structure PrefixOf (addr : In6Addr) (count : Nat) (entry xprefix : AdvPrefix) : Prop where
  eq_entry : xprefix =
    { entry with prefixAddr := xprefix.prefixAddr, prefixLen := xprefix.prefixLen }
  addrBit_eq : ∀ index < 128,
    addrBit xprefix.prefixAddr index = (addrBit addr index && decide (index < count))
  prefixLen_eq : xprefix.prefixLen.toNat = count

/-- Exactly the listed prefixes are ignored. -/
structure IgnoresListed (written : List IgnoreprefixText) (iface : Interface) : Prop where
  masks : ∀ text ∈ written, ∃ entry ∈ iface.ignorePrefixList, Masked text entry
  ignores : ∀ ifname entry ifa addr mask count, ifa.ifaName.take 16 = ifname.take 16 →
    ifa.ifaAddr = some (.inet6 addr mask) → count ≤ 128 → LeadingBits mask count →
    (autoPrefix iface ifname entry ifa = none ↔
      addr.isLinklocal = true ∨ IsListed written addr count)
  advertises : ∀ ifname entry ifa addr mask count xprefix, ifa.ifaAddr = some (.inet6 addr mask) →
    count ≤ 128 → LeadingBits mask count → autoPrefix iface ifname entry ifa = some xprefix →
    PrefixOf addr count entry xprefix

section

variable {iface : Interface}

theorem masked_of_ignoreprefix {text : IgnoreprefixText} {entry : AutogenIgnorePrefix}
    (read : ignoreprefix text = .ok entry) (short : text.len.written ≤ 128) :
    Masked text entry := by
  simp only [bind_eq_ok, token_eq_ok, pure_eq_ok, ignoreprefix] at read
  rcases read with ⟨len, number, rfl⟩
  have written := NumberText.num_eq_some_iff.mp number
  rw [written] at short
  constructor
  · rfl
  · refine ⟨len, number, ?_, ignoreMask_eq_stores len⟩
    apply (writesInside_iff len).mpr
    omega
  · rwa [written]
  · rw [written]
    exact leadingBits_ignoreMask len

theorem isIgnored_iff {written : List IgnoreprefixText} {addr mask : In6Addr} {count : Nat}
    (entries : List.Forall₂ Masked written iface.ignorePrefixList) (bound : count ≤ 128)
    (leading : LeadingBits mask count) :
    isIgnored iface (getPrefix6 addr mask) mask = true ↔ IsListed written addr count := by
  unfold isIgnored IsListed
  generalize iface.ignorePrefixList = ignored at entries
  induction entries with
  | nil => simp
  | @cons text entry _ _ masked _ ih =>
      have one : (getPrefix6 addr mask = getPrefix6 entry.prefixAddr entry.mask ∧
          mask = entry.mask) ↔ text.len.written = count ∧ AgreeOn count text.addr addr := by
        rw [masked.addr_eq]
        constructor
        · rintro ⟨same, rfl⟩
          refine ⟨masked.leading.count_eq leading masked.short bound, ?_⟩
          exact (getPrefix6_eq_iff leading bound).mp same.symm
        · rintro ⟨length, agree⟩
          have masks : mask = entry.mask := leading.eq (length ▸ masked.leading)
          rw [← masks]
          exact ⟨((getPrefix6_eq_iff leading bound).mpr agree).symm, rfl⟩
      rw [List.any_cons, Bool.or_eq_true, ih, Bool.and_eq_true, decide_eq_true_eq,
        decide_eq_true_eq, one]
      simp only [List.mem_cons, exists_eq_or_imp]

theorem prefixOf_autoPrefix {ifname : Bytes} {entry xprefix : AdvPrefix} {ifa : Ifaddrs}
    {addr mask : In6Addr} {count : Nat} (inet6 : ifa.ifaAddr = some (.inet6 addr mask))
    (bound : count ≤ 128) (leading : LeadingBits mask count)
    (found : autoPrefix iface ifname entry ifa = some xprefix) :
    PrefixOf addr count entry xprefix := by
  unfold autoPrefix at found
  simp only [inet6] at found
  split_ifs at found
  cases found
  constructor
  · rfl
  · intro index inside
    rw [addrBit_getPrefix6 _ _ inside, leading index inside]
  · dsimp only
    rw [countMask_of_leadingBits leading bound, UInt8.toNat_ofNat']
    omega

end

/-- The entries of the blocks, in the order of the list. -/
theorem ignorePrefixList_of_config {definition : Ifacedef} {parsed iface : Interface}
    {events : List IfaceEvent} (gives : definition.Gives parsed)
    (run : Run IfaceStep parsed events iface) :
    List.Forall₂ (fun text entry => ignoreprefix text = .ok entry)
      ((ignoreprefixlists definition.params).flatMap List.reverse) iface.ignorePrefixList := by
  have same := congrArg Interface.ignorePrefixList (config_of_gives gives run)
  replace same : iface.ignorePrefixList = parsed.ignorePrefixList := same
  rw [same]
  exact gives.ignoreprefixlist

theorem mem_flatMap_reverse {α : Type} {blocks : List (List α)} {value : α} :
    value ∈ blocks.flatMap List.reverse ↔ value ∈ blocks.flatten := by
  simp

/-- Whatever happens to a configured interface, exactly the listed prefixes are
ignored if and only if none of them is longer than an address. -/
theorem ignoresListed_iff {definition : Ifacedef} {parsed iface : Interface}
    {events : List IfaceEvent} (gives : definition.Gives parsed)
    (run : Run IfaceStep parsed events iface) :
    IgnoresListed (ignoreprefixlists definition.params).flatten iface ↔
      ∀ text ∈ (ignoreprefixlists definition.params).flatten, text.len.written ≤ 128 := by
  constructor
  · intro listed text member
    rcases listed.masks text member with ⟨entry, -, masked⟩
    exact masked.short
  · intro short
    have lengths : ∀ text ∈ (ignoreprefixlists definition.params).flatMap List.reverse,
        text.len.written ≤ 128 := fun text member => short text (mem_flatMap_reverse.mp member)
    have entries := List.Forall₂.imp (fun _ _ made => masked_of_ignoreprefix made.2 made.1)
      ((List.forall₂_and_left _ _).mpr ⟨lengths, ignorePrefixList_of_config gives run⟩)
    constructor
    · intro text member
      have flipped : List.Forall₂ (flip Masked) _ _ := entries.flip
      exact forall₂_mem_right flipped (mem_flatMap_reverse.mpr member)
    · intro ifname entry ifa addr mask count name inet6 bound leading
      have ignored := @isIgnored_iff iface _ addr mask count entries bound leading
      have same : IsListed ((ignoreprefixlists definition.params).flatMap List.reverse) addr count ↔
          IsListed (ignoreprefixlists definition.params).flatten addr count := by
        simp only [IsListed, mem_flatMap_reverse]
      rw [same] at ignored
      rw [← ignored]
      unfold autoPrefix
      simp only [name, inet6, ne_eq, not_true_eq_false, if_false]
      split_ifs with linkLocal listed
      · simp [linkLocal]
      · simp [listed]
      · simp [linkLocal, listed]
    · intro ifname entry ifa addr mask count xprefix inet6 bound leading found
      exact prefixOf_autoPrefix inet6 bound leading found

/-- `autoignoreprefixes` with the documentation prefix and this length. -/
def ignoring (len : NumberText) : Ifacedef :=
  ⟨eth0, [.ignoreprefixlist ⟨documentationPrefix.prefixAddr, len⟩ []]⟩

theorem ignoresListed_ignoring :
    ∃ parsed, readinConfig (ignoring ⟨6, [4]⟩) [] = .ok [parsed] ∧
      IgnoresListed (ignoreprefixlists (ignoring ⟨6, [4]⟩).params).flatten parsed := by
  have read : ∃ parsed, readinConfig (ignoring ⟨6, [4]⟩) [] = .ok [parsed] := ⟨_, rfl⟩
  rcases read with ⟨parsed, read⟩
  rcases gives_of_readinConfig read (List.mem_singleton_self _) with ⟨other, listed, gives⟩
  rw [List.mem_singleton.mp listed] at gives
  exact ⟨parsed, read, (ignoresListed_iff gives (.nil parsed)).mpr (by decide)⟩

/-- A length of 136 is accepted, and sets an octet behind the mask. -/
theorem not_ignoresListed_ignoring :
    ∃ parsed, readinConfig (ignoring ⟨1, [3, 6]⟩) [] = .ok [parsed] ∧
      (16, 0xff) ∈ maskWrites 136 ∧
      ¬IgnoresListed (ignoreprefixlists (ignoring ⟨1, [3, 6]⟩).params).flatten parsed := by
  refine ⟨_, rfl, by decide, ?_⟩
  intro listed
  rcases listed.masks _ List.mem_cons_self with ⟨entry, -, masked⟩
  exact absurd masked.short (by decide)

end Radvd
