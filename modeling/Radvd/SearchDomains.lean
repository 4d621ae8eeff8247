import Radvd.Grammar.Results
import Radvd.Library.Names
import Radvd.Send.Limits

/-!
# The names of a search list

The octets for a suffix are those of its parts between the dots, and the parser
only looks at the characters. So a block is written as a sequence of domain names
exactly if every suffix is made of labels that a name may have, and the names fit
in the buffer (`encodesNames_iff`).
-/

namespace Radvd

open Wire Names Grammar

/-- A dot at the end stands for the root. -/
def withoutRoot (suffix : Bytes) : Bytes :=
  if suffix.getLast? = some dot then suffix.dropLast else suffix

/-- The parts between the dots. -/
def suffixLabels (suffix : Bytes) : List Bytes :=
  (withoutRoot suffix).splitOn dot

/-- The text of a domain name. -/
structure ProperSuffix (suffix : Bytes) : Prop where
  label_pos : ∀ label ∈ suffixLabels suffix, 1 ≤ label.length
  label_le : ∀ label ∈ suffixLabels suffix, label.length ≤ 63
  short : (withoutRoot suffix).length ≤ 253

instance (suffix : Bytes) : Decidable (ProperSuffix suffix) :=
  decidable_of_iff ((∀ label ∈ suffixLabels suffix, 1 ≤ label.length) ∧
      (∀ label ∈ suffixLabels suffix, label.length ≤ 63) ∧ (withoutRoot suffix).length ≤ 253)
    ⟨fun all => ⟨all.1, all.2.1, all.2.2⟩,
      fun proper => ⟨proper.label_pos, proper.label_le, proper.short⟩⟩

/-! ## The octets of a suffix -/

theorem withoutRoot_of_notMem {suffix : Bytes} (notMem : dot ∉ suffix) :
    withoutRoot suffix = suffix := by
  unfold withoutRoot
  rw [if_neg]
  intro last
  exact notMem (List.mem_of_getLast? last)

theorem suffixLabels_of_notMem {suffix : Bytes} (notMem : dot ∉ suffix) :
    suffixLabels suffix = [suffix] := by
  rw [suffixLabels, withoutRoot_of_notMem notMem, List.splitOn_eq_singleton notMem]

theorem suffixLabels_append {first rest : Bytes} (notMem : dot ∉ first) :
    suffixLabels (first ++ dot :: rest) =
      first :: if rest = [] then [] else suffixLabels rest := by
  unfold suffixLabels withoutRoot
  rcases rest with _ | ⟨next, others⟩
  · simp [List.splitOn_eq_singleton notMem]
  · have last : (first ++ dot :: next :: others).getLast? = (next :: others).getLast? := by
      rw [List.getLast?_append_of_ne_nil _ (by simp), List.getLast?_cons_cons]
    have front : (first ++ dot :: next :: others).dropLast =
        first ++ dot :: (next :: others).dropLast := by
      rw [List.dropLast_append_of_ne_nil (by simp), List.dropLast_cons_cons]
    rw [last, front, if_neg (List.cons_ne_nil next others)]
    split_ifs <;> exact List.splitOn_append_cons_self_of_not_mem notMem _

/-- The octets of a suffix are those of its labels. -/
theorem encodeName_eq_nameOctets {suffix : Bytes} (nonempty : suffix ≠ [])
    (bound : suffix.length ≤ 255) : encodeName suffix = nameOctets (suffixLabels suffix) := by
  induction length : suffix.length using Nat.strong_induction_on generalizing suffix with
  | _ count ih =>
      subst length
      rcases exists_label suffix with notMem | ⟨first, rest, notMem, rfl⟩
      · rw [encodeName_of_notMem nonempty notMem bound, suffixLabels_of_notMem notMem,
          nameOctets, List.flatMap_singleton]
        rfl
      · rw [encodeName_append notMem bound, suffixLabels_append notMem, nameOctets_cons]
        split_ifs with atEnd
        · rfl
        · have shorter : rest.length < (first ++ dot :: rest).length := by
            simp
            omega
          rw [ih _ shorter atEnd (by omega) rfl]
          rfl

theorem length_label_le {suffix label : Bytes} (nonempty : suffix ≠ [])
    (bound : suffix.length ≤ 255) (member : label ∈ suffixLabels suffix) :
    label.length ≤ suffix.length := by
  have total := length_encodeName nonempty bound
  rw [encodeName_eq_nameOctets nonempty bound, nameOctets, List.flatMap_def, List.length_append,
    List.length_singleton] at total
  have part := (List.sublist_flatten_of_mem (List.mem_map_of_mem (f := labelOctets) member)).length_le
  rw [labelOctets, List.length_cons] at part
  split_ifs at total <;> omega

/-- The text of a name is the text of a domain name. -/
theorem isName_suffixLabels_iff {suffix : Bytes} (nonempty : suffix ≠ [])
    (bound : suffix.length ≤ 255) : IsName (suffixLabels suffix) ↔ ProperSuffix suffix := by
  have total := length_encodeName nonempty bound
  rw [encodeName_eq_nameOctets nonempty bound] at total
  have short : (nameOctets (suffixLabels suffix)).length ≤ 255 ↔
      (withoutRoot suffix).length ≤ 253 := by
    rw [total]
    unfold withoutRoot
    have positive := List.length_pos_iff.mpr nonempty
    split_ifs
    · rw [List.length_dropLast]
      omega
    · omega
  constructor
  · intro name
    exact ⟨name.label_pos, name.label_le, short.mp name.short⟩
  · intro proper
    exact ⟨List.splitOn_ne_nil _ _, proper.label_pos, proper.label_le, short.mpr proper.short⟩

/-! ## Blocks -/

/-- What is written for the block is a sequence of as many domain names as it has
suffixes. -/
def EncodesNames (dnssl : AdvDNSSL) : Prop :=
  ∀ sb : SafeBuffer, ∃ (sb' : SafeBuffer) (len : Nat) (names : List (List Bytes)),
    serializeDomainNames sb.clear dnssl = .ok (sb', len) ∧
    len = sb'.bytes.length ∧ sb'.bytes = names.flatMap nameOctets ∧
    names.length = dnssl.advDNSSLSuffixes.length ∧ ∀ labels ∈ names, IsName labels

theorem encodeNames_eq {suffixes : List Bytes}
    (parsed : ∀ suffix ∈ suffixes, suffix ≠ [] ∧ suffix.length ≤ 255) :
    encodeNames suffixes = (suffixes.map suffixLabels).flatMap nameOctets := by
  unfold encodeNames
  induction suffixes with
  | nil => rfl
  | cons suffix rest ih =>
      rw [List.forall_mem_cons] at parsed
      rw [List.flatMap_cons, List.map_cons, List.flatMap_cons, ih parsed.2,
        encodeName_eq_nameOctets parsed.1.1 parsed.1.2]

theorem fits_iff_suffixSize {dnssl : AdvDNSSL} (parsed : dnssl.Parsed) :
    dnssl.Fits ↔ (dnssl.advDNSSLSuffixes.map suffixSize).sum + 7 ≤ 64 * 1024 := by
  rw [AdvDNSSL.Fits, dnsslBytes, length_encodeNames parsed]

theorem encodesNames_of_parsed {dnssl : AdvDNSSL} (parsed : dnssl.Parsed) :
    EncodesNames dnssl ↔
      (∀ suffix ∈ dnssl.advDNSSLSuffixes, ProperSuffix suffix) ∧ dnssl.Fits := by
  have octets := encodeNames_eq parsed
  constructor
  · intro encodes
    rcases encodes SafeBuffer.new with ⟨sb, len, names, done, -, bytes, count, isName⟩
    have fits : dnssl.Fits := by
      by_contra exceeds
      rw [serializeDomainNames_error _ parsed exceeds] at done
      cases done
    refine ⟨?_, fits⟩
    rcases serializeDomainNames_ok SafeBuffer.new parsed fits with ⟨other, otherEq, otherBytes⟩
    rw [otherEq] at done
    cases done
    have groups : dnssl.advDNSSLSuffixes.map suffixLabels = names := by
      apply groups_unique _ isName (by rw [List.length_map, count])
      · rw [← octets, ← otherBytes, bytes]
      · intro group member label own
        rcases List.mem_map.mp member with ⟨suffix, listed, rfl⟩
        have text := parsed suffix listed
        exact (length_label_le text.1 text.2 own).trans text.2
    intro suffix member
    have text := parsed suffix member
    apply (isName_suffixLabels_iff text.1 text.2).mp
    apply isName
    rw [← groups]
    exact List.mem_map_of_mem member
  · rintro ⟨proper, fits⟩ sb
    rcases serializeDomainNames_ok sb parsed fits with ⟨sb', done, bytes⟩
    refine ⟨sb', _, dnssl.advDNSSLSuffixes.map suffixLabels, done, ?_, ?_, ?_, ?_⟩
    · rw [bytes, dnsslBytes]
    · rw [bytes, octets]
    · rw [List.length_map]
    · intro labels member
      rcases List.mem_map.mp member with ⟨suffix, listed, rfl⟩
      have text := parsed suffix listed
      exact (isName_suffixLabels_iff text.1 text.2).mpr (proper suffix listed)

/-- Of the blocks that the parser accepts, those are written as domain names whose
suffixes are, and whose names fit in the buffer. -/
theorem encodesNames_iff {iface : Interface} {definition : DnsslDef} {dnssl : AdvDNSSL}
    (read : dnssldef iface definition = .ok dnssl) :
    EncodesNames dnssl ↔ (∀ suffix ∈ definition.suffixes, ProperSuffix suffix) ∧
      (definition.suffixes.map suffixSize).sum + 7 ≤ 64 * 1024 := by
  have parsed := parsed_of_dnssldef read
  rw [encodesNames_of_parsed parsed, fits_iff_suffixSize parsed, suffixes_of_dnssldef read]

/-- A block with this suffix alone. -/
def searchFor (suffix : StringText) : DnsslDef :=
  ⟨suffix, [], []⟩

/-- `example.com` -/
def exampleCom : StringText :=
  .word [101, 120, 97, 109, 112, 108, 101, 46, 99, 111, 109] (by decide)
    (List.all_eq_true.mp (by decide))

theorem encodesNames_exampleCom :
    ∃ dnssl, dnssldef ifaceInitDefaults (searchFor exampleCom) = .ok dnssl ∧
      EncodesNames dnssl := by
  have read : ∃ dnssl, dnssldef ifaceInitDefaults (searchFor exampleCom) = .ok dnssl := ⟨_, rfl⟩
  rcases read with ⟨dnssl, read⟩
  exact ⟨dnssl, read, (encodesNames_iff read).mpr ⟨by decide, by decide⟩⟩

/-- A lone dot. -/
def loneDot : StringText :=
  .word [46] (by decide) (List.all_eq_true.mp (by decide))

/-- A lone dot is written as two zero octets. -/
theorem not_encodesNames_loneDot :
    ∃ dnssl, dnssldef ifaceInitDefaults (searchFor loneDot) = .ok dnssl ∧
      encodeNames dnssl.advDNSSLSuffixes = [0, 0] ∧ ¬EncodesNames dnssl := by
  refine ⟨_, rfl, by with_unfolding_all decide, ?_⟩
  intro encodes
  have parsed := parsed_of_dnssldef (rfl : dnssldef ifaceInitDefaults (searchFor loneDot) = .ok _)
  have proper := ((encodesNames_of_parsed parsed).mp encodes).1 [46] (List.mem_singleton_self _)
  exact absurd proper (by decide)

end Radvd
