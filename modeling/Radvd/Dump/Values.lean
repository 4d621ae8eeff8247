import Radvd.Dump.PrintFf
import Radvd.Send.WellFormed

/-!
# The values in a router advertisement, on the wire and back

The encoders of `send.c` and the decoder of `radvdump.c` pack and unpack bits by
hand: flags that share an octet with a preference, a scaled lifetime that shares
16 bits with a length code, addresses of which only the front is sent, and text
that is escaped when it is printed. Each lemma here says that one of these
encodings loses nothing.
-/

namespace Radvd.Dump

open Wire Tlv

/-! ## Values -/

def addrBit (addr : In6Addr) (index : Nat) : Bool :=
  (addr.toList.getD (index / 8) 0).toNat.testBit (7 - index % 8)

def AgreeOn (bits : Nat) (first second : In6Addr) : Prop :=
  ∀ index, index < bits → addrBit first index = addrBit second index

def front (addr : In6Addr) (count : Nat) : In6Addr :=
  Vector.ofFn fun index => if index.val < count then addr[index] else 0

theorem front_all (addr : In6Addr) : front addr 16 = addr := by
  apply Vector.ext
  intro index bound
  simp [front]

theorem front_zero (addr : In6Addr) : front addr 0 = In6Addr.unspecified := by
  apply Vector.ext
  intro index bound
  simp [front, In6Addr.unspecified]

theorem agreeOn_front (addr : In6Addr) (count : Nat) :
    AgreeOn (8 * count) (front addr count) addr := by
  intro index inside
  have octet : index / 8 < count := by omega
  have same : (front addr count).toList.getD (index / 8) 0 = addr.toList.getD (index / 8) 0 := by
    rcases Nat.lt_or_ge (index / 8) 16 with bound | bound
    · simp [front, List.getD, bound, octet]
    · simp [List.getD, bound]
  simp only [addrBit, same]

/-- The octets that are stored make up the front of the address. -/
theorem addrAt_eq_front {mem : Memory} {offset count : Nat} {addr : In6Addr}
    (stored : mem.Holds offset (addr.toList.take count)) :
    addrAt mem offset count = front addr count := by
  apply Vector.ext
  intro index bound
  simp only [addrAt, front, Vector.getElem_ofFn]
  split
  · rename_i inside
    have octet := stored index (by simp; omega)
    simp only [List.getElem?_take_of_lt inside, List.getElem?_eq_getElem
      (by simpa using bound : index < addr.toList.length), Option.some.injEq,
      Vector.getElem_toList] at octet
    exact octet.symm
  · rfl

theorem addrAt_of_holds {mem : Memory} {offset : Nat} {addr : In6Addr}
    (stored : mem.Holds offset addr.toList) : addrAt mem offset 16 = addr := by
  have taken : addr.toList.take 16 = addr.toList := List.take_of_length_le (by simp)
  have read := @addrAt_eq_front mem offset 16 addr (by simpa only [taken] using stored)
  simpa only [front_all] using read

theorem addrsAt_of_holds {mem : Memory} {offset : Nat} {addrs : List In6Addr}
    (stored : mem.Holds offset (addrs.flatMap (·.toList))) :
    (List.range addrs.length).map (fun i => addrAt mem (offset + 16 * i) 16) = addrs := by
  induction addrs generalizing offset with
  | nil => rfl
  | cons addr rest ih =>
      simp only [List.flatMap_cons, Memory.holds_append, Vector.length_toList] at stored
      have first := addrAt_of_holds stored.1
      have later := ih stored.2
      simp only [List.length_cons, List.range_succ_eq_map, List.map_cons, List.map_map,
        Nat.mul_zero, Nat.add_zero, first, List.cons.injEq, true_and]
      have shifted : (fun i => addrAt mem (offset + 16 * i) 16) ∘ Nat.succ =
          fun i => addrAt mem (offset + 16 + 16 * i) 16 := by
        funext i
        simp only [Function.comp_apply, Nat.succ_eq_add_one]
        congr 1
        omega
      simpa only [shifted] using later

theorem AgreeOn.mono {bits fewer : Nat} {first second : In6Addr}
    (agree : AgreeOn bits first second) (bound : fewer ≤ bits) : AgreeOn fewer first second :=
  fun index inside => agree index (by omega)

def preferenceShown (preference : Int) : Preference :=
  if preference = 1 then .high else if preference = -1 then .low else .medium

def IsPreference (preference : Int) : Prop :=
  preference = -1 ∨ preference = 0 ∨ preference = 1

theorem preferenceOf_preferenceBits {preference : Int} (valid : IsPreference preference) :
    preferenceOf (preferenceBits preference) = preferenceShown preference := by
  rcases valid with rfl | rfl | rfl <;> decide

theorem raFlagsReserved_shown {info : RaHeaderInfo}
    (valid : IsPreference info.advDefaultPreference) :
    (raFlagsReserved info &&& ndRaFlagManaged ≠ 0 ↔ info.advManagedFlag = true) ∧
      (raFlagsReserved info &&& ndRaFlagOther ≠ 0 ↔ info.advOtherConfigFlag = true) ∧
      (raFlagsReserved info &&& ndRaFlagHomeAgent ≠ 0 ↔ info.advHomeAgentFlag = true) ∧
      (raFlagsReserved info &&& ndRaFlagSnacRouter ≠ 0 ↔ info.advSNACRouterFlag = true) ∧
      preferenceOf (raFlagsReserved info) = preferenceShown info.advDefaultPreference := by
  simp only [raFlagsReserved]
  generalize info.advManagedFlag = managed, info.advOtherConfigFlag = other,
    info.advHomeAgentFlag = homeAgent, info.advSNACRouterFlag = snacRouter
  rcases valid with equal | equal | equal <;>
    · simp only [equal]
      revert managed other homeAgent snacRouter
      decide

theorem piFlagsReserved_shown (entry : AdvPrefix) :
    (piFlagsReserved entry &&& ndOptPiFlagOnlink ≠ 0 ↔ entry.advOnLinkFlag = true) ∧
      (piFlagsReserved entry &&& ndOptPiFlagAuto ≠ 0 ↔ entry.advAutonomousFlag = true) ∧
      (piFlagsReserved entry &&& ndOptPiFlagRaddr ≠ 0 ↔ entry.advRouterAddr = true) ∧
      (piFlagsReserved entry &&& ndOptPiFlagDhcpv6PdPref ≠ 0 ↔
        entry.advDHCPv6PDPreferredFlag = true) := by
  simp only [piFlagsReserved]
  generalize entry.advOnLinkFlag = onLink, entry.advAutonomousFlag = autonomous,
    entry.advRouterAddr = routerAddr, entry.advDHCPv6PDPreferredFlag = pdPreferred
  revert onLink autonomous routerAddr pdPreferred
  decide

/-! ## Scaled lifetimes -/

theorem and_0xFFF8 {value : Nat} (bound : value < 65536) : value &&& 0xFFF8 = value / 8 * 8 := by
  have shifted : value / 8 * 8 = (value >>> 3) <<< 3 := by
    simp only [Nat.shiftRight_eq_div_pow, Nat.shiftLeft_eq, Nat.reducePow]
  have mask : (0xFFF8 : Nat) = (2 ^ 13 - 1) <<< 3 := by decide
  rw [shifted, mask]
  apply Nat.eq_of_testBit_eq
  intro index
  simp only [Nat.testBit_and, Nat.testBit_shiftLeft, Nat.testBit_shiftRight,
    Nat.testBit_two_pow_sub_one]
  by_cases low : 3 ≤ index
  · have position : 3 + (index - 3) = index := by omega
    by_cases high : index < 16
    · have inside : index - 3 < 13 := by omega
      simp [low, inside, position]
    · have beyond : value.testBit index = false := by
        apply Nat.testBit_lt_two_pow
        exact Nat.lt_of_lt_of_le bound (Nat.pow_le_pow_right (by decide) (by omega) : 2 ^ 16 ≤ _)
      simp [position, beyond]
  · simp [low]

theorem and_seven (value : Nat) : value &&& 7 = value % 8 :=
  Nat.and_two_pow_sub_one_eq_mod value 3

theorem toNat_prefixLengthCode_lt (prefixLen : UInt8) :
    (prefixLengthCode prefixLen).toNat < 8 := by
  simp only [prefixLengthCode]
  split_ifs <;> decide

/-- Lifetime and length code share 16 bits and can be told apart. -/
theorem toNat_nat64LifetimePreflen {entry : NAT64Prefix}
    (bound : entry.currValidlft.toNat ≤ 65528) :
    (nat64LifetimePreflen entry).toNat =
      (entry.currValidlft.toNat + 7) / 8 * 8 + (prefixLengthCode entry.prefixLen).toNat := by
  have code := toNat_prefixLengthCode_lt entry.prefixLen
  have sum : (entry.currValidlft + 7).toNat = entry.currValidlft.toNat + 7 := by
    simp only [UInt32.toNat_add, UInt32.reduceToNat]
    omega
  have masked : (prefixLengthCode entry.prefixLen &&& 7).toNat =
      (prefixLengthCode entry.prefixLen).toNat := by
    simp only [UInt8.toNat_and, UInt8.reduceToNat, and_seven]
    omega
  have rounded : (entry.currValidlft.toNat + 7) / 8 * 8 ||| (prefixLengthCode entry.prefixLen).toNat =
      (entry.currValidlft.toNat + 7) / 8 * 8 + (prefixLengthCode entry.prefixLen).toNat := by
    have disjoint := Nat.two_pow_add_eq_or_of_lt (i := 3) code ((entry.currValidlft.toNat + 7) / 8)
    simp only [Nat.reducePow] at disjoint
    rw [Nat.mul_comm, disjoint]
  simp only [nat64LifetimePreflen, UInt32.toNat_toUInt16, UInt32.toNat_or, UInt32.toNat_and,
    UInt8.toNat_toUInt32, sum, masked, UInt32.reduceToNat]
  rw [and_0xFFF8 (by omega), rounded]
  omega

/-! ## Escaped text -/

theorem hexDigit_injective {first second : Nat} (firstBound : first < 16)
    (secondBound : second < 16) (equal : hexDigit first = hexDigit second) : first = second := by
  have digits := congrArg UInt8.toNat equal
  simp only [hexDigit, UInt8.toNat_ofNat'] at digits
  split at digits <;> split at digits <;> omega

theorem sanitizedOctet_cases (octet : UInt8) :
    (octet ≠ 120 ∧ sanitizedOctet octet = [backslash, octet]) ∨
      (octet ≠ backslash ∧ sanitizedOctet octet = [octet]) ∨
      sanitizedOctet octet =
        [backslash, 120, hexDigit (octet.toNat / 16), hexDigit (octet.toNat % 16)] := by
  simp only [sanitizedOctet, Bool.or_eq_true, decide_eq_true_eq]
  split
  · rename_i special
    refine .inl ⟨?_, rfl⟩
    rcases special with rfl | rfl <;> decide
  · rename_i notSpecial
    split
    · exact .inr (.inl ⟨fun equal => notSpecial (.inl equal), rfl⟩)
    · exact .inr (.inr rfl)

/-- No escape is the beginning of another one. -/
theorem sanitizedOctet_append_inj {first second : UInt8} {rest others : Bytes}
    (equal : sanitizedOctet first ++ rest = sanitizedOctet second ++ others) :
    first = second ∧ rest = others := by
  rcases sanitizedOctet_cases first with ⟨notX, shown⟩ | ⟨notEscape, shown⟩ | shown <;>
    rcases sanitizedOctet_cases second with ⟨notX', shown'⟩ | ⟨notEscape', shown'⟩ | shown' <;>
    simp only [shown, shown', List.cons_append, List.nil_append, List.cons.injEq, true_and] at equal
  · exact equal
  · exact absurd equal.1.symm notEscape'
  · exact absurd equal.1 notX
  · exact absurd equal.1 notEscape
  · exact equal
  · exact absurd equal.1 notEscape
  · exact absurd equal.1.symm notX'
  · exact absurd equal.1.symm notEscape'
  · have high := hexDigit_injective (by have := first.toNat_lt; omega)
      (by have := second.toNat_lt; omega) equal.1
    have low := hexDigit_injective (by omega) (by omega) equal.2.1
    refine ⟨UInt8.toNat_inj.mp ?_, equal.2.2⟩
    omega

theorem sanitizedOctet_ne_nil (octet : UInt8) : sanitizedOctet octet ≠ [] := by
  rcases sanitizedOctet_cases octet with ⟨-, shown⟩ | ⟨-, shown⟩ | shown <;> simp [shown]

/-- The printed text determines the octets. -/
theorem sanitized_injective : Function.Injective sanitized := by
  intro first second equal
  induction first generalizing second with
  | nil =>
      cases second with
      | nil => rfl
      | cons octet rest => simp [sanitized, sanitizedOctet_ne_nil] at equal
  | cons octet rest ih =>
      cases second with
      | nil => simp [sanitized, sanitizedOctet_ne_nil] at equal
      | cons other others =>
          simp only [sanitized, List.flatMap_cons] at equal
          rcases sanitizedOctet_append_inj equal with ⟨rfl, same⟩
          rw [ih same]

end Radvd.Dump
