import Mathlib.Data.List.TakeWhile
import Radvd.Grammar.Words

/-!
# Addresses as text

An address is written as its groups of 16 bits in hexadecimal. A text of this form
matches the pattern `addr`, and `inet_pton` reads the address from it, whether all
groups are written out (`inetPton_fields`) or some zeros are left out between two
colons (`inetPton_gapFields`).

So the scanner reads what `inet_ntop` makes of an address that does not begin with a
group of zero (`inetNtop_mem`, `inetPton_inetNtop`). The pattern has no text that
begins with two colons but `::` alone.
-/

namespace Radvd.Grammar

open Wire Dump
open RegularExpression hiding plus
open Flex

/-! ## Groups -/

/-- The octets of an address two by two. -/
def addrGroups (addr : In6Addr) : List (UInt8 × UInt8) :=
  (List.finRange 8).map fun index =>
    (addr.get ⟨2 * index.val, by omega⟩, addr.get ⟨2 * index.val + 1, by omega⟩)

@[simp]
theorem length_addrGroups (addr : In6Addr) : (addrGroups addr).length = 8 := by
  simp [addrGroups]

theorem addrGroups_ne_nil (addr : In6Addr) : addrGroups addr ≠ [] :=
  List.ne_nil_of_length_pos (by simp)

def groupValue (group : UInt8 × UInt8) : Nat :=
  256 * group.1.toNat + group.2.toNat

theorem addrOfGroups_addrGroups (addr : In6Addr) :
    addrOfGroups ((addrGroups addr).map groupValue) = addr := by
  apply Vector.ext
  intro index bound
  have high := (addr[2 * (index / 2)]).toNat_lt
  have low := (addr[2 * (index / 2) + 1]).toNat_lt
  have group : ((addrGroups addr).map groupValue).getD (index / 2) 0 =
      256 * (addr[2 * (index / 2)]).toNat + (addr[2 * (index / 2) + 1]).toNat := by
    rw [List.getD_eq_getElem?_getD, List.getElem?_eq_getElem (by simp; omega)]
    simp only [addrGroups, List.getElem_map, List.getElem_finRange, Option.getD_some]
    rfl
  simp only [addrOfGroups, Vector.getElem_ofFn]
  rw [group]
  apply UInt8.toNat_inj.mp
  split
  · have place : 2 * (index / 2) = index := by omega
    simp only [place] at high low ⊢
    rw [UInt8.toNat_ofNat_of_lt' (by simp only [UInt8.size]; omega)]
    omega
  · have place : 2 * (index / 2) + 1 = index := by omega
    simp only [place] at low ⊢
    rw [UInt8.toNat_ofNat']
    omega

/-! ## Digits -/

def groupDigits (group : UInt8 × UInt8) : List Nat :=
  [group.1.toNat / 16, group.1.toNat % 16, group.2.toNat / 16, group.2.toNat % 16]

theorem groupDigits_lt (group : UInt8 × UInt8) : ∀ digit ∈ groupDigits group, digit < 16 := by
  have := group.1.toNat_lt
  have := group.2.toNat_lt
  simp only [groupDigits, List.forall_mem_cons]
  exact ⟨by omega, by omega, by omega, by omega, by simp⟩

theorem foldl_groupDigits (group : UInt8 × UInt8) :
    (groupDigits group).foldl (fun value digit => 16 * value + digit) 0 = groupValue group := by
  simp only [groupDigits, groupValue, List.foldl_cons, List.foldl_nil]
  omega

theorem hexValue_hexDigit {value : Nat} (small : value < 16) :
    hexValue (hexDigit value) = some value := by
  have all : ∀ digit : Fin 16, hexValue (hexDigit digit.val) = some digit.val := by decide
  exact all ⟨value, small⟩

theorem hexDigit_mem {value : Nat} (small : value < 16) :
    hexDigit value ∈ ascii "abcdefABCDEF0123456789" := by
  have all : ∀ digit : Fin 16, hexDigit digit.val ∈ ascii "abcdefABCDEF0123456789" := by decide
  exact all ⟨value, small⟩

/-- The text is one for the group. -/
structure Spells (field : Bytes) (group : UInt8 × UInt8) : Prop where
  matched : field ∈ hexdigits.matches'
  value : hexGroup field = some (groupValue group)

theorem Spells.filled {field : Bytes} {group : UInt8 × UInt8} (spelled : Spells field group) :
    field ≠ [] := by
  rintro rfl
  cases spelled.value

theorem Spells.colon_notMem {field : Bytes} {group : UInt8 × UInt8}
    (spelled : Spells field group) : colon ∉ field := by
  have digits : Over (· ∈ ascii "abcdefABCDEF0123456789") hexdigit :=
    over_oneOf fun _ member => member
  have within : Over (· ∈ ascii "abcdefABCDEF0123456789") hexdigits :=
    ⟨⟨⟨digits.pow 1, digits.pow 2⟩, digits.pow 3⟩, digits.pow 4⟩
  intro inside
  exact absurd (within.of_mem spelled.matched colon inside) (by decide)

theorem spells_digits {digits : List Nat} {group : UInt8 × UInt8} (filled : digits ≠ [])
    (short : digits.length ≤ 4) (small : ∀ digit ∈ digits, digit < 16)
    (value : digits.foldl (fun value digit => 16 * value + digit) 0 = groupValue group) :
    Spells (digits.map hexDigit) group := by
  constructor
  · have octets : ∀ octet ∈ digits.map hexDigit, octet ∈ ascii "abcdefABCDEF0123456789" := by
      intro octet member
      rcases List.mem_map.mp member with ⟨digit, inDigits, rfl⟩
      exact hexDigit_mem (small digit inDigits)
    have counted : (digits.map hexDigit).length = 1 ∨ (digits.map hexDigit).length = 2 ∨
        (digits.map hexDigit).length = 3 ∨ (digits.map hexDigit).length = 4 := by
      have := List.length_pos_iff.mpr filled
      simp only [List.length_map]
      omega
    rcases counted with one | two | three | four
    · exact .inl (.inl (.inl (mem_pow_oneOf.mpr ⟨one, octets⟩)))
    · exact .inl (.inl (.inr (mem_pow_oneOf.mpr ⟨two, octets⟩)))
    · exact .inl (.inr (mem_pow_oneOf.mpr ⟨three, octets⟩))
    · exact .inr (mem_pow_oneOf.mpr ⟨four, octets⟩)
  · have read : (digits.map hexDigit).mapM hexValue = some digits := by
      clear filled short value
      induction digits with
      | nil => rfl
      | cons digit digits ih =>
          rw [List.forall_mem_cons] at small
          simp [hexValue_hexDigit small.1, ih small.2]
    have shown : ¬(digits.map hexDigit = [] ∨ 4 < (digits.map hexDigit).length) := by
      simp [filled, short]
    rw [hexGroup, if_neg shown, read, Option.map_some, value]

/-- Four digits for 16 bits. -/
def hexText (group : UInt8 × UInt8) : Bytes :=
  (groupDigits group).map hexDigit

theorem spells_hexText (group : UInt8 × UInt8) : Spells (hexText group) group :=
  spells_digits (by simp [groupDigits]) (by simp [groupDigits]) (groupDigits_lt group)
    (foldl_groupDigits group)

/-- The conversion `%x`. -/
def shortHex (group : UInt8 × UInt8) : Bytes :=
  if group = (0, 0) then ascii "0"
  else ((groupDigits group).dropWhile (· = 0)).map hexDigit

theorem foldl_dropWhile (digits : List Nat) :
    (digits.dropWhile (· = 0)).foldl (fun value digit => 16 * value + digit) 0 =
      digits.foldl (fun value digit => 16 * value + digit) 0 := by
  induction digits with
  | nil => rfl
  | cons digit digits ih =>
      by_cases zero : digit = 0
      · rw [List.dropWhile_cons_of_pos (by simpa using zero), ih, List.foldl_cons, zero]
      · rw [List.dropWhile_cons_of_neg (by simpa using zero)]

theorem spells_shortHex (group : UInt8 × UInt8) : Spells (shortHex group) group := by
  unfold shortHex
  split
  · rename_i zero
    have digit := @spells_digits [0] group (by simp) (by simp) (by simp) (by rw [zero]; rfl)
    exact digit
  · rename_i nonzero
    have value := (foldl_dropWhile (groupDigits group)).trans (foldl_groupDigits group)
    have sub := List.dropWhile_sublist (fun digit => decide (digit = 0)) (l := groupDigits group)
    refine spells_digits ?_ sub.length_le
      (fun digit member => groupDigits_lt group digit (sub.subset member)) value
    intro empty
    rw [empty] at value
    simp only [groupValue, List.foldl_nil] at value
    apply nonzero
    apply Prod.ext
    · exact UInt8.toNat_inj.mp (by simpa using (by omega : group.1.toNat = 0))
    · exact UInt8.toNat_inj.mp (by simpa using (by omega : group.2.toNat = 0))

/-! ## Fields -/

section

variable {fields front back : List Bytes} {groups before after : List (UInt8 × UInt8)}

theorem mapM_hexGroup (spelled : List.Forall₂ Spells fields groups) :
    fields.mapM hexGroup = some (groups.map groupValue) := by
  induction spelled with
  | nil => rfl
  | cons first _ ih => simp [first.value, ih]

theorem forall_field (spelled : List.Forall₂ Spells fields groups) :
    ∀ field ∈ fields, ∃ group, Spells field group := by
  induction spelled with
  | nil => simp
  | cons first _ ih =>
      rw [List.forall_mem_cons]
      exact ⟨⟨_, first⟩, ih⟩

theorem forall₂_spells {write : UInt8 × UInt8 → Bytes}
    (spells : ∀ group, Spells (write group) group) (groups : List (UInt8 × UInt8)) :
    List.Forall₂ Spells (groups.map write) groups := by
  induction groups with
  | nil => exact .nil
  | cons group groups ih => exact .cons (spells group) ih

theorem colon_notMem_fields (spelled : List.Forall₂ Spells fields groups) :
    ∀ field ∈ fields, colon ∉ field := by
  intro field member
  rcases forall_field spelled field member with ⟨group, spells⟩
  exact spells.colon_notMem

theorem filled_fields (spelled : List.Forall₂ Spells fields groups) :
    ∀ field ∈ fields, decide (field ≠ []) = true := by
  intro field member
  rcases forall_field spelled field member with ⟨group, spells⟩
  exact decide_eq_true spells.filled

/-- All groups. -/
theorem inetPton_fields {addr : In6Addr} (spelled : List.Forall₂ Spells fields (addrGroups addr)) :
    inetPton ([colon].intercalate fields) = some addr := by
  have count := spelled.length_eq
  rw [length_addrGroups] at count
  have split : ([colon].intercalate fields).splitOn colon = fields := by
    apply List.splitOn_intercalate
    · exact colon_notMem_fields spelled
    · exact List.ne_nil_of_length_pos (by omega)
  have inFront : fields.takeWhile (· ≠ []) = fields :=
    List.takeWhile_eq_self_iff.mpr (filled_fields spelled)
  have none : fields.dropWhile (· ≠ []) = [] :=
    List.dropWhile_eq_nil_iff.mpr (filled_fields spelled)
  unfold inetPton
  simp only [split, inFront, none, mapM_hexGroup spelled, Option.bind_eq_bind, Option.bind_some]
  rw [if_pos (by simp), addrOfGroups_addrGroups]

def orEmpty (fields : List Bytes) : List Bytes :=
  if fields = [] then [[]] else fields

/-- What stands between the colons where zeros are left out. -/
def gapFields (front back : List Bytes) : List Bytes :=
  orEmpty front ++ [] :: orEmpty back

theorem eq_nil_or_mem_of_mem_gapFields {field : Bytes} (member : field ∈ gapFields front back) :
    field = [] ∨ field ∈ front ∨ field ∈ back := by
  unfold gapFields orEmpty at member
  split_ifs at member <;> simp at member <;> tauto

theorem orEmpty_ne_nil (fields : List Bytes) : orEmpty fields ≠ [] := by
  unfold orEmpty
  split <;> simp_all

/-- What `inet_pton` makes of a field that stands for no group. -/
theorem eq_of_orEmpty (spelled : List.Forall₂ Spells fields groups) :
    (if orEmpty fields = [[]] then [] else orEmpty fields) = fields := by
  unfold orEmpty
  by_cases none : fields = []
  · simp [none]
  · have single : fields ≠ [[]] := by
      rintro rfl
      exact absurd (filled_fields spelled [] (by simp)) (by simp)
    simp [none, single]

theorem splitOn_gapFields (inFront : List.Forall₂ Spells front before)
    (inBack : List.Forall₂ Spells back after) :
    ([colon].intercalate (gapFields front back)).splitOn colon = gapFields front back := by
  apply List.splitOn_intercalate
  · intro field member
    rcases eq_nil_or_mem_of_mem_gapFields member with rfl | member | member
    · simp
    · exact colon_notMem_fields inFront field member
    · exact colon_notMem_fields inBack field member
  · simp [gapFields]

/-- All groups but some zeros that are not at the beginning. -/
theorem inetPton_gapFields {addr : In6Addr} {count : Nat} (gap : 0 < count) (begins : before ≠ [])
    (same : addrGroups addr = before ++ List.replicate count (0, 0) ++ after)
    (inFront : List.Forall₂ Spells front before) (inBack : List.Forall₂ Spells back after) :
    inetPton ([colon].intercalate (gapFields front back)) = some addr := by
  have filled : front ≠ [] := by
    rintro rfl
    cases inFront
    exact begins rfl
  have fields : gapFields front back = front ++ [] :: orEmpty back := by
    rw [gapFields, orEmpty, if_neg filled]
  have ahead : (gapFields front back).takeWhile (· ≠ []) = front := by
    rw [fields, List.takeWhile_append_of_pos (filled_fields inFront),
      List.takeWhile_cons_of_neg (by simp), List.append_nil]
  have behind : (gapFields front back).dropWhile (· ≠ []) = [] :: orEmpty back := by
    rw [fields, List.dropWhile_append_of_pos (filled_fields inFront),
      List.dropWhile_cons_of_neg (by simp)]
  have missing : 8 - ((before.map groupValue).length + (after.map groupValue).length) = count := by
    have lengths := congrArg List.length same
    simp only [length_addrGroups, List.length_append, List.length_replicate] at lengths
    simp only [List.length_map]
    omega
  unfold inetPton
  simp only [splitOn_gapFields inFront inBack, ahead, behind, if_neg filled,
    if_neg (orEmpty_ne_nil back), eq_of_orEmpty inBack, mapM_hexGroup inFront,
    mapM_hexGroup inBack, Option.bind_eq_bind, Option.bind_some, missing, if_neg gap.ne']
  have zeros : List.replicate count 0 = (List.replicate count ((0, 0) : UInt8 × UInt8)).map
      groupValue := by
    simp [groupValue]
  rw [zeros, ← List.map_append, ← List.map_append, ← same, addrOfGroups_addrGroups]

/-! ### The pattern -/

theorem matches'_of_spells (spelled : List.Forall₂ Spells fields groups) :
    ∀ field ∈ fields, field ∈ hexdigits.matches' := by
  intro field member
  rcases forall_field spelled field member with ⟨group, spells⟩
  exact spells.matched

theorem fields_mem {last : Bytes} (lastMatched : last ∈ hexdigits.matches')
    (matched : ∀ field ∈ fields, field ∈ hexdigits.matches') :
    [colon].intercalate (fields ++ [last]) ∈
      ((hexdigits * char colon) ^ fields.length * hexdigits).matches' := by
  induction fields with
  | nil =>
      rw [matches'_mul]
      exact ⟨[], rfl, last, lastMatched, by simp⟩
  | cons field fields ih =>
      rw [List.forall_mem_cons] at matched
      have later := ih matched.2
      rw [matches'_mul, matches'_pow] at later
      rcases later with ⟨front, inFront, back, inBack, same⟩
      rw [matches'_mul, matches'_pow, List.length_cons, pow_succ', matches'_mul]
      refine ⟨field ++ [colon] ++ front,
        ⟨field ++ [colon], ⟨field, matched.1, [colon], rfl, rfl⟩, front, inFront, rfl⟩, back,
        inBack, ?_⟩
      dsimp only at same ⊢
      rw [List.append_assoc, same, List.cons_append,
        List.intercalate_cons_of_ne_nil (by simp)]

theorem fields_mem_addr (count : fields.length = 8) (spelled : List.Forall₂ Spells fields groups) :
    [colon].intercalate fields ∈ Grammar.addr.matches' := by
  have nonempty : fields ≠ [] := List.ne_nil_of_length_pos (by omega)
  have all := matches'_of_spells spelled
  have matched := fields_mem (all _ (List.getLast_mem nonempty))
    fun field member => all field (List.mem_of_mem_dropLast member)
  rw [List.dropLast_concat_getLast nonempty, List.length_dropLast, count] at matched
  exact .inl (.inr matched)

theorem intercalate_cons_eq (first : Bytes) (rest : List Bytes) :
    [colon].intercalate (first :: rest) = first ++ rest.flatMap (colon :: ·) := by
  induction rest generalizing first with
  | nil => simp
  | cons next rest ih =>
      rw [List.intercalate_cons_cons, ih]
      simp

theorem intercalate_append_eq (front : List Bytes) {rest : List Bytes} (filled : rest ≠ []) :
    [colon].intercalate (front ++ rest) =
      front.flatMap (· ++ [colon]) ++ [colon].intercalate rest := by
  induction front with
  | nil => rfl
  | cons field front ih =>
      rw [List.cons_append, List.intercalate_cons_of_ne_nil (by simp [filled]), ih]
      simp

/-- A field and a mark, as many times as there are fields. -/
theorem flatMap_mem_star {pattern : RegularExpression UInt8} {write : Bytes → Bytes}
    (matched : ∀ field ∈ fields, write field ∈ pattern.matches') :
    fields.flatMap write ∈ pattern.star.matches' := by
  rw [matches'_star, Language.mem_kstar]
  refine ⟨fields.map write, List.flatMap_def, ?_⟩
  intro part member
  rcases List.mem_map.mp member with ⟨field, inFields, rfl⟩
  exact matched field inFields

theorem gapFields_mem_addr (begins : before ≠ []) (inFront : List.Forall₂ Spells front before)
    (inBack : List.Forall₂ Spells back after) :
    [colon].intercalate (gapFields front back) ∈ Grammar.addr.matches' := by
  rcases inFront with _ | ⟨first, others⟩
  · exact absurd rfl begins
  rename_i field group fields groups
  have ends : ∀ other ∈ fields, other ++ [colon] ∈ (hexdigits * char colon).matches' :=
    fun other member => ⟨other, matches'_of_spells others other member, [colon], rfl, rfl⟩
  have opens : ∀ {others : List Bytes}, (∀ other ∈ others, other ∈ hexdigits.matches') →
      ∀ other ∈ others, colon :: other ∈ (char colon * hexdigits).matches' :=
    fun all other member => ⟨[colon], rfl, other, all other member, rfl⟩
  rcases inBack with _ | ⟨next, later⟩
  · have text : [colon].intercalate (gapFields (field :: fields) []) =
        field ++ fields.flatMap (colon :: ·) ++ [colon, colon] := by
      have unfolded : gapFields (field :: fields) [] = field :: (fields ++ [[], []]) := rfl
      rw [unfolded, intercalate_cons_eq]
      simp
    rw [text]
    refine .inl (.inl (.inr ⟨_, ⟨field, first.matched, _, ?_, rfl⟩, _, ⟨[colon], rfl, [colon], rfl,
      rfl⟩, rfl⟩))
    exact flatMap_mem_star (opens (matches'_of_spells others))
  · rename_i follower _ followers _
    have text : [colon].intercalate (gapFields (field :: fields) (follower :: followers)) =
        field ++ [colon] ++ fields.flatMap (· ++ [colon]) ++
          (colon :: follower ++ followers.flatMap (colon :: ·)) := by
      have unfolded : gapFields (field :: fields) (follower :: followers) =
        (field :: fields) ++ [] :: follower :: followers := rfl
      rw [unfolded, intercalate_append_eq _ (by simp), intercalate_cons_eq]
      simp
    rw [text]
    refine .inl (.inl (.inl ⟨_, ⟨_, ⟨field, first.matched, [colon], rfl, rfl⟩, _,
      flatMap_mem_star ends, rfl⟩, _, ⟨colon :: follower,
      ⟨[colon], rfl, follower, next.matched, rfl⟩, _, ?_, rfl⟩, rfl⟩))
    exact flatMap_mem_star (opens (matches'_of_spells later))

end

/-! ## Texts -/

/-- An address in full. -/
def fullText (addr : In6Addr) : Bytes :=
  [colon].intercalate ((addrGroups addr).map hexText)

theorem inetPton_fullText (addr : In6Addr) : inetPton (fullText addr) = some addr :=
  inetPton_fields (forall₂_spells spells_hexText _)

theorem fullText_mem (addr : In6Addr) : fullText addr ∈ Grammar.addr.matches' :=
  fields_mem_addr (by simp) (forall₂_spells spells_hexText _)

theorem addr_octets_ne_hash :
    ∀ octet ∈ colon :: ascii "abcdefABCDEF0123456789", octet ≠ hash := by
  intro octet member
  have differ := List.all_eq_true.mp
    (by decide : (colon :: ascii "abcdefABCDEF0123456789").all (· ≠ hash) = true) octet member
  rwa [decide_eq_true_eq] at differ

/-! ## What `inet_ntop` writes -/

/-- The number of zeros at the beginning. -/
def leadingZeros (groups : List (UInt8 × UInt8)) : Nat :=
  (groups.takeWhile (· = (0, 0))).length

/-- The place and the length of the first of the longest runs of zeros. -/
def longestZeros (groups : List (UInt8 × UInt8)) : Nat × Nat :=
  (List.range groups.length).foldl
    (fun best place =>
      let count := leadingZeros (groups.drop place)
      if best.2 < count then (place, count) else best) (0, 0)

def dottedQuad (addr : In6Addr) : Bytes :=
  [dot].intercalate ((addr.toList.drop 12).map fun octet => decimal octet.toNat)

/-- `inet_ntop` for `AF_INET6`. The first of the longest runs of zeros is left out if
it has two of them at least. After six zeros, or five and `ffff`, the rest is written
as an IPv4 address. -/
def inetNtop (addr : In6Addr) : Bytes :=
  let groups := addrGroups addr
  let (place, count) := longestZeros groups
  let front := (groups.take place).map shortHex
  let back := (groups.drop (place + count)).map shortHex
  if count < 2 then [colon].intercalate (groups.map shortHex)
  else if place = 0 ∧ (count = 6 ∨ count = 5 ∧ back.head? = some (ascii "ffff")) then
    [colon].intercalate (gapFields front (back.take (6 - count) ++ [dottedQuad addr]))
  else [colon].intercalate (gapFields front back)

theorem take_eq_replicate {groups : List (UInt8 × UInt8)} {count : Nat}
    (zeros : count ≤ leadingZeros groups) : groups.take count = List.replicate count (0, 0) := by
  have begins : groups.take count = (groups.takeWhile (· = (0, 0))).take count := by
    conv_lhs => rw [← List.takeWhile_append_dropWhile (p := (· = (0, 0))) (l := groups)]
    exact List.take_append_of_le_length zeros
  rw [begins, List.eq_replicate_iff, List.length_take]
  refine ⟨Nat.min_eq_left zeros, ?_⟩
  intro group member
  simpa using List.mem_takeWhile_imp (List.mem_of_mem_take member)

theorem longestZeros_le (groups : List (UInt8 × UInt8)) :
    (longestZeros groups).2 ≤ leadingZeros (groups.drop (longestZeros groups).1) := by
  refine List.foldlRecOn
    (motive := fun best : Nat × Nat => best.2 ≤ leadingZeros (groups.drop best.1)) _ _ ?_ ?_
  · exact Nat.zero_le _
  · intro best kept place _
    dsimp only
    split
    · exact le_rfl
    · exact kept

/-- The address does not begin with a group of zero. -/
def BeginsNonzero (addr : In6Addr) : Prop :=
  (addrGroups addr).head? ≠ some (0, 0)

instance (addr : In6Addr) : Decidable (BeginsNonzero addr) :=
  inferInstanceAs (Decidable (_ ≠ _))

/-- The zeros that are left out are not at the beginning. -/
theorem longestZeros_of_beginsNonzero {addr : In6Addr} (begins : BeginsNonzero addr)
    (long : 2 ≤ (longestZeros (addrGroups addr)).2) :
    (longestZeros (addrGroups addr)).1 ≠ 0 ∧
      addrGroups addr = (addrGroups addr).take (longestZeros (addrGroups addr)).1 ++
        List.replicate (longestZeros (addrGroups addr)).2 (0, 0) ++
        (addrGroups addr).drop ((longestZeros (addrGroups addr)).1 +
          (longestZeros (addrGroups addr)).2) := by
  have zeros := longestZeros_le (addrGroups addr)
  generalize longestZeros (addrGroups addr) = run at long zeros ⊢
  constructor
  · intro first
    rw [first, List.drop_zero] at zeros
    rcases shape : addrGroups addr with _ | ⟨group, groups⟩
    · exact addrGroups_ne_nil addr shape
    · have nonzero : group ≠ (0, 0) := by
        intro zero
        rw [BeginsNonzero, shape, zero] at begins
        exact begins rfl
      rw [shape, leadingZeros, List.takeWhile_cons_of_neg (by simpa using nonzero)] at zeros
      simp only [List.length_nil] at zeros
      omega
  · rw [← take_eq_replicate zeros, List.append_assoc, ← List.drop_drop,
      List.take_append_drop, List.take_append_drop]

theorem inetNtop_of_beginsNonzero {addr : In6Addr} (begins : BeginsNonzero addr) :
    inetNtop addr = [colon].intercalate ((addrGroups addr).map shortHex) ∨
      ∃ before count after, before ≠ [] ∧ 0 < count ∧
        addrGroups addr = before ++ List.replicate count (0, 0) ++ after ∧
        inetNtop addr =
          [colon].intercalate (gapFields (before.map shortHex) (after.map shortHex)) := by
  unfold inetNtop
  dsimp only
  split
  · exact .inl rfl
  · rename_i long
    rcases longestZeros_of_beginsNonzero begins (by omega) with ⟨later, same⟩
    rw [if_neg fun dotted => later dotted.1]
    refine .inr ⟨_, _, _, ?_, by omega, same, rfl⟩
    intro none
    rw [List.take_eq_nil_iff] at none
    exact none.elim later (addrGroups_ne_nil addr)

theorem inetNtop_mem {addr : In6Addr} (begins : BeginsNonzero addr) :
    inetNtop addr ∈ Grammar.addr.matches' := by
  rcases inetNtop_of_beginsNonzero begins with all | ⟨before, count, after, filled, -, -, text⟩
  · rw [all]
    exact fields_mem_addr (by simp) (forall₂_spells spells_shortHex _)
  · rw [text]
    exact gapFields_mem_addr filled (forall₂_spells spells_shortHex _)
      (forall₂_spells spells_shortHex _)

/-- `inet_pton` reads what `inet_ntop` makes of the address. -/
theorem inetPton_inetNtop {addr : In6Addr} (begins : BeginsNonzero addr) :
    inetPton (inetNtop addr) = some addr := by
  rcases inetNtop_of_beginsNonzero begins with all | ⟨before, count, after, filled, gap, same, text⟩
  · rw [all]
    exact inetPton_fields (forall₂_spells spells_shortHex _)
  · rw [text]
    exact inetPton_gapFields gap filled same (forall₂_spells spells_shortHex _)
      (forall₂_spells spells_shortHex _)

theorem isAddrOctet_hexDigit {value : Nat} (small : value < 16) :
    isAddrOctet (hexDigit value) = true := by
  have all : ∀ digit : Fin 16, isAddrOctet (hexDigit digit.val) = true := by decide
  exact all ⟨value, small⟩

theorem isAddrOctet_shortHex (group : UInt8 × UInt8) :
    ∀ octet ∈ shortHex group, isAddrOctet octet = true := by
  intro octet member
  unfold shortHex at member
  split at member
  · rw [List.mem_singleton.mp (member : octet ∈ [48])]
    decide
  · rcases List.mem_map.mp member with ⟨digit, inDigits, rfl⟩
    exact isAddrOctet_hexDigit
      (groupDigits_lt group digit ((List.dropWhile_sublist _).subset inDigits))

theorem isAddrOctet_dottedQuad (addr : In6Addr) :
    ∀ octet ∈ dottedQuad addr, isAddrOctet octet = true := by
  intro octet member
  rcases mem_intercalate member with rfl | ⟨field, fieldMem, inField⟩
  · decide
  · rcases List.mem_map.mp fieldMem with ⟨value, -, rfl⟩
    rcases List.mem_map.mp inField with ⟨character, inDigits, rfl⟩
    have digits : ∀ number : Fin 58, 48 ≤ number.val →
        isAddrOctet (UInt8.ofNat number.val) = true := by decide
    have bounds := digit_bounds inDigits
    exact digits ⟨character.toNat, by omega⟩ bounds.1

theorem isAddrOctet_inetNtop (addr : In6Addr) :
    ∀ octet ∈ inetNtop addr, isAddrOctet octet = true := by
  have groups : ∀ groups : List (UInt8 × UInt8), ∀ field ∈ groups.map shortHex,
      ∀ octet ∈ field, isAddrOctet octet = true := by
    intro groups field member
    rcases List.mem_map.mp member with ⟨group, -, rfl⟩
    exact isAddrOctet_shortHex group
  have joined : ∀ fields : List Bytes,
      (∀ field ∈ fields, ∀ octet ∈ field, isAddrOctet octet = true) →
      ∀ octet ∈ [colon].intercalate fields, isAddrOctet octet = true := by
    intro fields all octet member
    rcases mem_intercalate member with rfl | ⟨field, fieldMem, inField⟩
    · decide
    · exact all field fieldMem octet inField
  have gaps : ∀ front back : List Bytes,
      (∀ field ∈ front, ∀ octet ∈ field, isAddrOctet octet = true) →
      (∀ field ∈ back, ∀ octet ∈ field, isAddrOctet octet = true) →
      ∀ octet ∈ [colon].intercalate (gapFields front back), isAddrOctet octet = true := by
    intro front back inFront inBack
    apply joined
    intro field member
    rcases eq_nil_or_mem_of_mem_gapFields member with rfl | known | known
    · simp
    · exact inFront field known
    · exact inBack field known
  unfold inetNtop
  dsimp only
  split_ifs
  · exact joined _ (groups _)
  · apply gaps _ _ (groups _)
    intro field member
    rcases List.mem_append.mp member with inBack | last
    · exact groups _ field (List.mem_of_mem_take inBack)
    · rw [List.mem_singleton.mp last]
      exact isAddrOctet_dottedQuad addr
  · exact gaps _ _ (groups _) (groups _)

/-- The text of the address that the test of `addrtostr` expects. -/
example : inetNtop ⟨#[0xfe, 0x80, 0xfe, 0x80, 0, 0, 0, 0, 0, 0, 0, 0, 0xff, 0, 0x12, 0x34], rfl⟩ =
    ascii "fe80:fe80::ff00:1234" := by
  with_unfolding_all decide

end Radvd.Grammar
