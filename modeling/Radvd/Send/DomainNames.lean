import Mathlib.Algebra.BigOperators.Group.List.Basic
import Radvd.SafeBuffer

/-!
# `serialize_domain_names`

The loop of `send.c` that writes the suffixes of a DNSSL block as sequences of
labels, and the octets it writes.

The loop reserves eight octets more than the label it is about to write, so it
gives up seven octets before the 64 KiB limit of the buffer. The two theorems
`serializeDomainNames_ok` and `serializeDomainNames_error` draw this line.
-/

namespace Radvd

open Wire SafeBuffer

def firstLabel (label : Bytes) : Bytes :=
  label.takeWhile (· ≠ dot)

/-- `label_len`, an `unsigned char`. -/
def labelLen (label : Bytes) : UInt8 :=
  UInt8.ofNat (firstLabel label).length

/-- The position of `label` after a label of `count` octets and a following dot. -/
def skipLabel (count : Nat) (label : Bytes) : Bytes :=
  let label := label.drop count
  if label.head? = some dot then label.tail else label

def appendLabel (sb : SafeBuffer) (label : Bytes) : Except Exit SafeBuffer := do
  let sb ← sb.append [labelLen label]
  let sb ← sb.append (label.take (labelLen label).toNat)
  if skipLabel (labelLen label).toNat label = [] then sb.append [0] else pure sb

def serializeLabel (sb : SafeBuffer) (label : Bytes) : Except Exit SafeBuffer := do
  let sb ← sb.resize (sb.used + 1 + (labelLen label).toNat + 8)
  appendLabel sb label

def labelBytes (label : Bytes) : Bytes :=
  [labelLen label] ++ (label.take (labelLen label).toNat ++
    if skipLabel (labelLen label).toNat label = [] then [0] else [])

theorem length_firstLabel_le (label : Bytes) : (firstLabel label).length ≤ label.length :=
  (List.takeWhile_prefix _).length_le

theorem toNat_labelLen_le (label : Bytes) : (labelLen label).toNat ≤ label.length := by
  have := length_firstLabel_le label
  simp only [labelLen, UInt8.toNat_ofNat']
  omega

theorem length_labelBytes (label : Bytes) :
    (labelBytes label).length = 1 + (labelLen label).toNat +
      if skipLabel (labelLen label).toNat label = [] then 1 else 0 := by
  have := toNat_labelLen_le label
  simp only [labelBytes, List.length_append, List.length_singleton, List.length_take]
  split <;> simp <;> omega

theorem appends_appendLabel (label : Bytes) : Appends (appendLabel · label) (labelBytes label) := by
  apply (appends_append _).bind
  apply (appends_append _).bind
  split
  · exact appends_append _
  · exact appends_pure

theorem serializeLabel_ok {sb : SafeBuffer} {label : Bytes}
    (fits : sb.used + (labelLen label).toNat + 9 ≤ 64 * 1024) :
    ∃ sb', serializeLabel sb label = .ok sb' ∧ sb'.bytes = sb.bytes ++ labelBytes label := by
  rcases resize_ok sb (n := sb.used + 1 + (labelLen label).toNat + 8) (by omega) with
    ⟨grown, grownEq, grownBytes⟩
  have room : grown.used + (labelBytes label).length ≤ 64 * 1024 := by
    rw [length_labelBytes, used, grownBytes]
    rw [used] at fits
    split <;> omega
  rcases appends_appendLabel label grown room with ⟨last, lastEq, lastBytes⟩
  refine ⟨last, ?_, by rw [lastBytes, grownBytes]⟩
  rw [serializeLabel, grownEq]
  exact lastEq

theorem serializeLabel_error {sb : SafeBuffer} {label : Bytes}
    (exceeds : 64 * 1024 < sb.used + (labelLen label).toNat + 9) :
    serializeLabel sb label = .error .safeBufferResize := by
  rw [serializeLabel, resize_error sb (by omega)]
  rfl

theorem bytes_serializeLabel {sb sb' : SafeBuffer} {label : Bytes}
    (done : serializeLabel sb label = .ok sb') : sb'.bytes = sb.bytes ++ labelBytes label := by
  by_cases fits : sb.used + (labelLen label).toNat + 9 ≤ 64 * 1024
  · rcases serializeLabel_ok fits with ⟨last, lastEq, lastBytes⟩
    rw [lastEq] at done
    cases done
    exact lastBytes
  · rw [serializeLabel_error (by omega)] at done
    cases done

theorem used_lt_of_serializeLabel {sb sb' : SafeBuffer} {label : Bytes}
    (done : serializeLabel sb label = .ok sb') : sb.used < sb'.used := by
  have bytes := bytes_serializeLabel done
  have length := length_labelBytes label
  simp only [used, bytes, List.length_append]
  omega

/-- The `while` loop over one suffix, with the octets appended so far in `len`. A
turn that does not advance in the suffix still fills the buffer, so the loop
ends at the latest where the buffer does. -/
def serializeName (sb : SafeBuffer) (len : Nat) (label : Bytes) :
    Except Exit (SafeBuffer × Nat) :=
  if label = [] then .ok (sb, len)
  else
    match done : serializeLabel sb label with
    | .error exit => .error exit
    | .ok sb' =>
        serializeName sb'
          (len + (1 + (labelLen label).toNat +
            if skipLabel (labelLen label).toNat label = [] then 1 else 0))
          (skipLabel (labelLen label).toNat label)
termination_by 64 * 1024 - sb.used
decreasing_by
  have := used_lt_of_serializeLabel done
  have := used_le_max sb'
  omega

def serializeNames (sb : SafeBuffer) (len : Nat) : List Bytes → Except Exit (SafeBuffer × Nat)
  | [] => .ok (sb, len)
  | suffix :: rest => do
      let (sb, len) ← serializeName sb len suffix
      serializeNames sb len rest

def serializeDomainNames (sb : SafeBuffer) (dnssl : AdvDNSSL) : Except Exit (SafeBuffer × Nat) :=
  serializeNames sb 0 dnssl.advDNSSLSuffixes

/-! ## The octets of a name -/

theorem exists_label (label : Bytes) :
    dot ∉ label ∨ ∃ first rest, dot ∉ first ∧ label = first ++ dot :: rest := by
  by_cases dotMem : dot ∈ label
  · right
    rcases List.eq_append_cons_of_mem dotMem with ⟨first, rest, split, notMem⟩
    exact ⟨first, rest, notMem, split⟩
  · exact .inl dotMem

theorem firstLabel_of_notMem {label : Bytes} (notMem : dot ∉ label) :
    firstLabel label = label := by
  induction label with
  | nil => rfl
  | cons octet rest ih =>
      simp only [List.mem_cons, not_or] at notMem
      have taken := ih notMem.2
      rw [firstLabel] at taken
      rw [firstLabel, List.takeWhile_cons_of_pos (by simpa using Ne.symm notMem.1), taken]

theorem firstLabel_append {first rest : Bytes} (notMem : dot ∉ first) :
    firstLabel (first ++ dot :: rest) = first := by
  have taken := firstLabel_of_notMem notMem
  rw [firstLabel] at taken
  rw [firstLabel, List.takeWhile_append, taken]
  simp

theorem skipLabel_length (label : Bytes) : skipLabel label.length label = [] := by
  simp [skipLabel]

theorem skipLabel_append (first rest : Bytes) :
    skipLabel first.length (first ++ dot :: rest) = rest := by
  simp [skipLabel]

theorem length_skipLabel_lt {label : Bytes} (nonempty : label ≠ []) :
    (skipLabel (firstLabel label).length label).length < label.length := by
  rcases exists_label label with notMem | ⟨first, rest, notMem, rfl⟩
  · rw [firstLabel_of_notMem notMem, skipLabel_length]
    exact List.length_pos_iff.mpr nonempty
  · rw [firstLabel_append notMem, skipLabel_append]
    simp
    omega

/-- The labels of a name, each after its length, and the terminating zero. -/
def encodeName (label : Bytes) : Bytes :=
  if label = [] then []
  else labelBytes label ++ encodeName (skipLabel (firstLabel label).length label)
termination_by label.length
decreasing_by exact length_skipLabel_lt ‹_›

@[simp]
theorem encodeName_nil : encodeName [] = [] := by
  rw [encodeName, if_pos rfl]

theorem toNat_labelLen {label : Bytes} (bound : label.length ≤ 255) :
    (labelLen label).toNat = (firstLabel label).length := by
  have := length_firstLabel_le label
  simp only [labelLen, UInt8.toNat_ofNat']
  omega

theorem encodeName_of_notMem {label : Bytes} (nonempty : label ≠ []) (notMem : dot ∉ label)
    (bound : label.length ≤ 255) :
    encodeName label = UInt8.ofNat label.length :: label ++ [0] := by
  have octet := toNat_labelLen bound
  rw [firstLabel_of_notMem notMem] at octet
  rw [encodeName, if_neg nonempty, labelBytes, octet, firstLabel_of_notMem notMem,
    skipLabel_length, labelLen, firstLabel_of_notMem notMem]
  simp

theorem encodeName_append {first rest : Bytes} (notMem : dot ∉ first)
    (bound : (first ++ dot :: rest).length ≤ 255) :
    encodeName (first ++ dot :: rest) =
      UInt8.ofNat first.length :: first ++ if rest = [] then [0] else encodeName rest := by
  have octet := toNat_labelLen bound
  rw [firstLabel_append notMem] at octet
  rw [encodeName, if_neg (by simp), labelBytes, octet, firstLabel_append notMem,
    skipLabel_append, labelLen, firstLabel_append notMem]
  by_cases atEnd : rest = []
  · simp [atEnd]
  · simp [atEnd]

/-- Dots are replaced by length octets, and the first length and the terminator
come on top; a trailing dot is the terminator's. -/
theorem length_encodeName {label : Bytes} (nonempty : label ≠ []) (bound : label.length ≤ 255) :
    (encodeName label).length = label.length + if label.getLast? = some dot then 1 else 2 := by
  induction length : label.length using Nat.strong_induction_on generalizing label with
  | _ count ih =>
      subst length
      rcases exists_label label with notMem | ⟨first, rest, notMem, rfl⟩
      · have notLast : label.getLast? ≠ some dot := fun last =>
          notMem (List.mem_of_getLast? last)
        rw [encodeName_of_notMem nonempty notMem bound, if_neg notLast]
        simp
      · rw [encodeName_append notMem bound]
        rcases rest with _ | ⟨next, others⟩
        · simp
        · have last : (first ++ dot :: next :: others).getLast? = (next :: others).getLast? := by
            rw [List.getLast?_append_of_ne_nil _ (by simp), List.getLast?_cons_cons]
          have shorter : (next :: others).length < (first ++ dot :: next :: others).length := by
            simp
            omega
          have inner := ih _ shorter (by simp) (by omega) rfl
          rw [last, if_neg (by simp)]
          simp only [List.length_append, List.length_cons] at inner ⊢
          omega

theorem length_encodeName_pos {label : Bytes} (nonempty : label ≠ [])
    (bound : label.length ≤ 255) : 2 ≤ (encodeName label).length := by
  have pos := List.length_pos_iff.mpr nonempty
  rw [length_encodeName nonempty bound]
  split <;> omega

/-! ## The loop writes these octets -/

theorem serializeName_nil (sb : SafeBuffer) (len : Nat) :
    serializeName sb len [] = .ok (sb, len) := by
  rw [serializeName, if_pos rfl]

theorem serializeName_of_error {sb : SafeBuffer} {len : Nat} {label : Bytes} {exit : Exit}
    (nonempty : label ≠ []) (failed : serializeLabel sb label = .error exit) :
    serializeName sb len label = .error exit := by
  rw [serializeName, if_neg nonempty]
  split
  · rename_i other otherEq
    rw [failed] at otherEq
    cases otherEq
    rfl
  · rename_i sb' succeeded
    rw [failed] at succeeded
    cases succeeded

theorem serializeName_of_ok {sb sb' : SafeBuffer} {len : Nat} {label : Bytes}
    (nonempty : label ≠ []) (bound : label.length ≤ 255)
    (done : serializeLabel sb label = .ok sb') :
    serializeName sb len label =
      serializeName sb' (len + (labelBytes label).length)
        (skipLabel (firstLabel label).length label) := by
  rw [serializeName, if_neg nonempty, length_labelBytes, toNat_labelLen bound]
  split
  · rename_i exit failed
    rw [failed] at done
    cases done
  · rename_i other otherEq
    rw [otherEq] at done
    cases done
    rfl

/-- A name that leaves room for seven more octets is written. -/
theorem serializeName_ok (sb : SafeBuffer) (len : Nat) {label : Bytes}
    (bound : label.length ≤ 255)
    (fits : label ≠ [] → sb.used + (encodeName label).length + 7 ≤ 64 * 1024) :
    ∃ sb', serializeName sb len label = .ok (sb', len + (encodeName label).length) ∧
      sb'.bytes = sb.bytes ++ encodeName label := by
  induction label using encodeName.induct generalizing sb len with
  | case1 => exact ⟨sb, by rw [serializeName_nil, encodeName_nil]; rfl, by simp⟩
  | case2 label nonempty ih =>
      have shorter := length_skipLabel_lt nonempty
      have fitsAll := fits nonempty
      rw [encodeName, if_neg nonempty, List.length_append] at fitsAll
      have octets := length_labelBytes label
      have restLong : skipLabel (labelLen label).toNat label ≠ [] →
          2 ≤ (encodeName (skipLabel (firstLabel label).length label)).length := by
        rw [toNat_labelLen bound]
        intro more
        exact length_encodeName_pos more (by omega)
      have fitsHere : sb.used + (labelLen label).toNat + 9 ≤ 64 * 1024 := by
        by_cases atEnd : skipLabel (labelLen label).toNat label = []
        · rw [if_pos atEnd] at octets
          omega
        · rw [if_neg atEnd] at octets
          have := restLong atEnd
          omega
      rcases serializeLabel_ok fitsHere with ⟨next, nextEq, nextBytes⟩
      have nextUsed : next.used = sb.used + (labelBytes label).length :=
        used_of_bytes nextBytes
      rcases @ih next (len + (labelBytes label).length) (by omega)
        (fun _ => by omega) with ⟨last, lastEq, lastBytes⟩
      refine ⟨last, ?_, ?_⟩
      · rw [serializeName_of_ok nonempty bound nextEq, lastEq]
        conv_rhs => rw [encodeName, if_neg nonempty, List.length_append]
        rw [Nat.add_assoc]
      · conv_rhs => rw [encodeName, if_neg nonempty]
        rw [lastBytes, nextBytes, List.append_assoc]

/-- A name that does not leave room for seven more octets ends the program. -/
theorem serializeName_error {sb : SafeBuffer} {len : Nat} {label : Bytes}
    (nonempty : label ≠ []) (bound : label.length ≤ 255)
    (exceeds : 64 * 1024 < sb.used + (encodeName label).length + 7) :
    serializeName sb len label = .error .safeBufferResize := by
  induction label using encodeName.induct generalizing sb len with
  | case1 => exact absurd rfl nonempty
  | case2 label _ ih =>
      by_cases fitsHere : sb.used + (labelLen label).toNat + 9 ≤ 64 * 1024
      · rcases serializeLabel_ok fitsHere with ⟨next, nextEq, nextBytes⟩
        have shorter := length_skipLabel_lt nonempty
        have octets := length_labelBytes label
        have nextUsed : next.used = sb.used + (labelBytes label).length :=
        used_of_bytes nextBytes
        rw [encodeName, if_neg nonempty, List.length_append] at exceeds
        rw [serializeName_of_ok nonempty bound nextEq]
        rw [toNat_labelLen bound] at octets fitsHere
        by_cases atEnd : skipLabel (firstLabel label).length label = []
        · rw [if_pos atEnd] at octets
          rw [atEnd, encodeName_nil, List.length_nil] at exceeds
          omega
        · exact ih atEnd (by omega) (by omega)
      · exact serializeName_of_error nonempty (serializeLabel_error (by omega))

def encodeNames (suffixes : List Bytes) : Bytes :=
  suffixes.flatMap encodeName

theorem serializeNames_ok (sb : SafeBuffer) (len : Nat) {suffixes : List Bytes}
    (bound : ∀ suffix ∈ suffixes, suffix.length ≤ 255)
    (fits : sb.used + (encodeNames suffixes).length + 7 ≤ 64 * 1024) :
    ∃ sb', serializeNames sb len suffixes = .ok (sb', len + (encodeNames suffixes).length) ∧
      sb'.bytes = sb.bytes ++ encodeNames suffixes := by
  induction suffixes generalizing sb len with
  | nil => exact ⟨sb, rfl, by simp [encodeNames]⟩
  | cons suffix rest ih =>
      have cons : encodeNames (suffix :: rest) = encodeName suffix ++ encodeNames rest := rfl
      rw [cons, List.length_append] at fits
      rcases serializeName_ok sb len (bound suffix (by simp))
        (fun _ => by omega) with ⟨next, nextEq, nextBytes⟩
      have nextUsed : next.used = sb.used + (encodeName suffix).length :=
        used_of_bytes nextBytes
      rcases @ih next (len + (encodeName suffix).length)
        (fun other otherMem => bound other (by simp [otherMem])) (by omega) with
        ⟨last, lastEq, lastBytes⟩
      refine ⟨last, ?_, ?_⟩
      · rw [serializeNames, nextEq, cons, List.length_append, ← Nat.add_assoc]
        exact lastEq
      · rw [lastBytes, nextBytes, cons, List.append_assoc]

theorem serializeNames_error {sb : SafeBuffer} {len : Nat} {suffixes : List Bytes}
    (nonempty : ∀ suffix ∈ suffixes, suffix ≠ [])
    (bound : ∀ suffix ∈ suffixes, suffix.length ≤ 255) (start : sb.used + 7 ≤ 64 * 1024)
    (exceeds : 64 * 1024 < sb.used + (encodeNames suffixes).length + 7) :
    serializeNames sb len suffixes = .error .safeBufferResize := by
  induction suffixes generalizing sb len with
  | nil =>
      simp only [encodeNames, List.flatMap_nil, List.length_nil] at exceeds
      omega
  | cons suffix rest ih =>
      have cons : encodeNames (suffix :: rest) = encodeName suffix ++ encodeNames rest := rfl
      rw [cons, List.length_append] at exceeds
      rw [serializeNames]
      by_cases fitsHere : sb.used + (encodeName suffix).length + 7 ≤ 64 * 1024
      · rcases serializeName_ok sb len (bound suffix (by simp))
          (fun _ => fitsHere) with ⟨next, nextEq, nextBytes⟩
        have nextUsed : next.used = sb.used + (encodeName suffix).length :=
        used_of_bytes nextBytes
        rw [nextEq]
        exact ih (fun other otherMem => nonempty other (by simp [otherMem]))
          (fun other otherMem => bound other (by simp [otherMem])) (by omega) (by omega)
      · rw [serializeName_error (nonempty suffix (by simp)) (bound suffix (by simp)) (by omega)]
        rfl

end Radvd
