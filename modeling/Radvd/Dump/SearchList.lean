import Mathlib.Data.List.TakeWhile
import Radvd.Dump.Text
import Radvd.Send.WellFormed

/-!
# DNS search lists on the wire and back

`serialize_domain_names` writes a domain name as its labels, each after its
length, and a terminating zero (`encodeName_text`). The loop of `print_ff` reads
labels into a buffer of 256 octets and prints the buffer at a zero, unless it is
empty, as it is in the padding.

The proof follows the loop: a label extends the buffer (`dnsslLoop_label`), the
labels of a name leave the name in it (`dnsslLoop_labels`), the zero prints it
(`dnsslLoop_name`), and zeros after the last name print nothing
(`dnsslLoop_padding`).
-/

namespace Radvd.Dump

open Wire Tlv SafeBufferList

/-! ## Domain names -/

def isLdh (octet : UInt8) : Bool :=
  (65 ≤ octet && octet ≤ 90) || (97 ≤ octet && octet ≤ 122) || (48 ≤ octet && octet ≤ 57) ||
    octet = 45

/-- A domain name: labels of 1 to 63 letters, digits and hyphens, which with the
dots between them make at most 253 characters. -/
structure DomainName where
  labels : List Bytes
  labels_ne_nil : labels ≠ []
  length_label : ∀ label ∈ labels, 1 ≤ label.length ∧ label.length ≤ 63
  isLdh_label : ∀ label ∈ labels, ∀ octet ∈ label, isLdh octet = true
  length_text : ([dot].intercalate labels).length ≤ 253

def DomainName.text (name : DomainName) : Bytes :=
  [dot].intercalate name.labels

/-- A suffix of a DNSSL block is a domain name, maybe with a trailing dot. -/
structure Suffix where
  name : DomainName
  trailingDot : Bool

def Suffix.text (suffix : Suffix) : Bytes :=
  suffix.name.text ++ if suffix.trailingDot then [dot] else []

def labelOctets (labels : List Bytes) : Bytes :=
  labels.flatMap fun label => UInt8.ofNat label.length :: label

theorem dot_notMem_of_isLdh {label : Bytes} (ldh : ∀ octet ∈ label, isLdh octet = true) :
    dot ∉ label := by
  intro dotMem
  have impossible := ldh dot dotMem
  revert impossible
  decide

theorem intercalate_ne_nil {label : Bytes} (nonempty : label ≠ []) (rest : List Bytes) :
    [dot].intercalate (label :: rest) ≠ [] := by
  cases rest <;> simp [List.intercalate_cons_cons, nonempty]

/-- The octets of a suffix do not depend on a trailing dot. -/
theorem encodeName_intercalate {labels : List Bytes} (nonempty : labels ≠ [])
    (length : ∀ label ∈ labels, 1 ≤ label.length)
    (ldh : ∀ label ∈ labels, ∀ octet ∈ label, isLdh octet = true) (trailingDot : Bool)
    (bound : ([dot].intercalate labels).length ≤ 254) :
    encodeName ([dot].intercalate labels ++ if trailingDot then [dot] else []) =
      labelOctets labels ++ [0] := by
  induction labels with
  | nil => exact absurd rfl nonempty
  | cons label rest ih =>
      have notMem := dot_notMem_of_isLdh (ldh label (by simp))
      have labelNonempty : label ≠ [] := List.length_pos_iff.mp (length label (by simp))
      rcases rest with _ | ⟨next, others⟩
      · simp only [List.intercalate_singleton] at bound ⊢
        cases trailingDot with
        | false =>
            simpa [labelOctets] using encodeName_of_notMem labelNonempty notMem (by omega)
        | true =>
            have encoded := @encodeName_append label [] notMem (by simp; omega)
            simpa [labelOctets] using encoded
      · simp only [List.intercalate_cons_cons, List.append_assoc, List.singleton_append,
          List.length_append, List.length_cons] at bound ⊢
        have tailBound : ([dot].intercalate (next :: others)).length ≤ 254 := by omega
        have tail := ih (by simp) (fun other mem => length other (by simp [mem]))
          (fun other mem => ldh other (by simp [mem])) tailBound
        have nextNonempty : next ≠ [] := List.length_pos_iff.mp (length next (by simp))
        have tailNonempty : [dot].intercalate (next :: others) ++
            (if trailingDot then [dot] else []) ≠ [] := by
          simp [intercalate_ne_nil nextNonempty]
        have long : (label ++ dot :: ([dot].intercalate (next :: others) ++
            if trailingDot then [dot] else [])).length ≤ 255 := by
          cases trailingDot <;> simp <;> omega
        simp only [List.cons_append, encodeName_append notMem long, tailNonempty, if_false, tail]
        simp [labelOctets]

theorem encodeName_text (suffix : Suffix) :
    encodeName suffix.text = labelOctets suffix.name.labels ++ [0] := by
  have bound := suffix.name.length_text
  exact encodeName_intercalate suffix.name.labels_ne_nil
    (fun label mem => (suffix.name.length_label label mem).1) suffix.name.isLdh_label
    suffix.trailingDot (by omega)

/-! ## Reading names -/

theorem ne_zero_of_isLdh {octet : UInt8} (ldh : isLdh octet = true) : octet ≠ 0 := by
  intro zero
  subst zero
  revert ldh
  decide

theorem cString_of_isLdh {label : Bytes} (ldh : ∀ octet ∈ label, isLdh octet = true) :
    cString label = label := by
  apply List.takeWhile_eq_self_iff.mpr
  intro octet mem
  simpa using ne_zero_of_isLdh (ldh octet mem)

theorem sanitized_eq_self {octets : Bytes}
    (plain : ∀ octet ∈ octets, isLdh octet = true ∨ octet = dot) : sanitized octets = octets := by
  have perOctet : ∀ octet : UInt8, isLdh octet = true ∨ octet = dot →
      sanitizedOctet octet = [octet] := by
    intro octet allowed
    have bounds : 0x20 ≤ octet ∧ octet ≤ 0x7e ∧ octet ≠ backslash ∧ octet ≠ doubleQuote := by
      rcases allowed with ldh | rfl
      · simp only [isLdh, Bool.or_eq_true, Bool.and_eq_true, decide_eq_true_eq] at ldh
        simp only [UInt8.le_iff_toNat_le, ne_eq, ← UInt8.toNat_inj, backslash, doubleQuote,
          UInt8.reduceToNat] at ldh ⊢
        omega
      · decide
    rcases bounds with ⟨low, high, notBackslash, notQuote⟩
    simp [sanitizedOctet, isprint, low, high, notBackslash, notQuote]
  induction octets with
  | nil => rfl
  | cons octet rest ih =>
      simp only [sanitized, List.flatMap_cons] at ih ⊢
      simp only [perOctet octet (plain octet (by simp)), List.singleton_append,
        ih fun other mem => plain other (by simp [mem])]

theorem DomainName.sanitized_text (name : DomainName) : sanitized name.text = name.text := by
  apply sanitized_eq_self
  intro octet mem
  rcases mem_intercalate mem with isDot | ⟨label, labelMem, inLabel⟩
  · exact .inr isDot
  · exact .inl (name.isLdh_label label labelMem octet inLabel)

theorem intercalate_snoc (suffix label : Bytes) (rest : List Bytes) :
    [dot].intercalate (suffix :: label :: rest) =
      [dot].intercalate ((suffix ++ dot :: label) :: rest) := by
  cases rest <;> simp [List.intercalate_cons_cons]

section Loop

variable {mem : Memory} {suffixes limit offset : Nat}

/-- A label extends the buffer. -/
theorem dnsslLoop_label {suffix label : Bytes} (inside : offset < limit)
    (stored : mem.Holds (suffixes + offset) (UInt8.ofNat label.length :: label))
    (length : 1 ≤ label.length ∧ label.length ≤ 63)
    (ldh : ∀ octet ∈ label, isLdh octet = true) (room : suffix.length + label.length ≤ 254) :
    dnsslLoop mem suffixes limit offset suffix =
      dnsslLoop mem suffixes limit (offset + 1 + label.length)
        (if suffix ≠ [] then suffix ++ dot :: label else label) := by
  simp only [Memory.holds_cons, Nat.add_assoc] at stored
  have octet : (mem (suffixes + offset)).toNat = label.length := by
    simp only [stored.1, UInt8.toNat_ofNat']
    omega
  have read : cString (mem.slice (suffixes + (offset + 1)) label.length) = label := by
    simp only [Memory.slice_of_holds stored.2, cString_of_isLdh ldh]
  have notZero : ¬label.length = 0 := by omega
  have fits : ¬256 - suffix.length < label.length + 2 := by omega
  conv_lhs => rw [dnsslLoop]
  simp only [inside, if_true, octet, notZero, if_false, fits, read]
  rfl

theorem dnsslLoop_labels {labels : List Bytes} {suffix : Bytes} (nonempty : suffix ≠ [])
    (length : ∀ label ∈ labels, 1 ≤ label.length ∧ label.length ≤ 63)
    (ldh : ∀ label ∈ labels, ∀ octet ∈ label, isLdh octet = true)
    (room : ([dot].intercalate (suffix :: labels)).length ≤ 253)
    (inside : offset + (labelOctets labels).length < limit)
    (stored : mem.Holds (suffixes + offset) (labelOctets labels)) :
    dnsslLoop mem suffixes limit offset suffix =
      dnsslLoop mem suffixes limit (offset + (labelOctets labels).length)
        ([dot].intercalate (suffix :: labels)) := by
  induction labels generalizing offset suffix with
  | nil => simp [labelOctets]
  | cons label rest ih =>
      have split : labelOctets (label :: rest) =
          (UInt8.ofNat label.length :: label) ++ labelOctets rest := rfl
      simp only [split, Memory.holds_append, List.length_append, List.length_cons] at stored inside ⊢
      simp only [intercalate_snoc] at room ⊢
      have labelRoom : suffix.length + label.length ≤ 254 := by
        cases rest <;>
          simp only [List.intercalate_singleton, List.intercalate_cons_cons, List.length_append,
            List.length_cons] at room <;> omega
      have step := dnsslLoop_label (by omega : offset < limit) stored.1 (length label (by simp))
        (ldh label (by simp)) labelRoom
      simp only [nonempty, ne_eq, not_false_eq_true, if_true] at step
      have later := @ih (offset + 1 + label.length) (suffix ++ dot :: label) (by simp)
        (fun other mem => length other (by simp [mem]))
        (fun other mem => ldh other (by simp [mem])) room (by omega)
        (by simpa [Nat.add_assoc, Nat.add_comm, Nat.add_left_comm] using stored.2)
      simp only [step, later]
      congr 1
      omega

/-- A name is printed at its terminating zero. -/
theorem dnsslLoop_name (name : DomainName)
    (inside : offset + (labelOctets name.labels).length + 1 ≤ limit)
    (stored : mem.Holds (suffixes + offset) (labelOctets name.labels ++ [0])) :
    dnsslLoop mem suffixes limit offset [] =
      (name.text :: (dnsslLoop mem suffixes limit
          (offset + (labelOctets name.labels).length + 1) []).1,
        (dnsslLoop mem suffixes limit
          (offset + (labelOctets name.labels).length + 1) []).2) := by
  have text := name.sanitized_text
  rcases name with ⟨labels, nonempty, length, ldh, bound⟩
  simp only [DomainName.text] at text inside stored ⊢
  rcases labels with _ | ⟨label, rest⟩
  · exact absurd rfl nonempty
  have split : labelOctets (label :: rest) =
      (UInt8.ofNat label.length :: label) ++ labelOctets rest := rfl
  simp only [split, Memory.holds_append, List.length_append, List.length_cons] at stored inside ⊢
  rcases stored with ⟨⟨labelStored, restStored⟩, zeroStored⟩
  simp only [Memory.holds_cons, Memory.holds_nil, and_true] at zeroStored
  have labelNonempty : label ≠ [] := List.length_pos_iff.mp (length label (by simp)).1
  have first := @dnsslLoop_label mem suffixes limit offset [] label (by omega) labelStored
    (length label (by simp)) (ldh label (by simp)) (by have := length label (by simp); simp; omega)
  simp only [ne_eq, not_true_eq_false, if_false] at first
  have later := @dnsslLoop_labels mem suffixes limit (offset + 1 + label.length) rest label
    labelNonempty (fun other mem => length other (by simp [mem]))
    (fun other mem => ldh other (by simp [mem])) bound (by omega)
    (by simpa [Nat.add_assoc, Nat.add_comm, Nat.add_left_comm] using restStored)
  simp only [first, later]
  have position : offset + 1 + label.length + (labelOctets rest).length =
      offset + (label.length + 1 + (labelOctets rest).length) := by omega
  have named := intercalate_ne_nil labelNonempty rest
  have zero : (mem (suffixes + (offset + (label.length + 1 + (labelOctets rest).length)))).toNat =
      0 := by
    have sum : suffixes + (offset + (label.length + 1 + (labelOctets rest).length)) =
        suffixes + offset + (label.length + 1 + (labelOctets rest).length) := by omega
    simp only [sum, zeroStored]
    rfl
  have here : offset + (label.length + 1 + (labelOctets rest).length) < limit := by omega
  conv_lhs => rw [position, dnsslLoop]
  simp only [here, if_true, zero, named, if_false, text]

theorem dnsslLoop_padding (stored : ∀ index, offset ≤ index → index < limit →
      mem (suffixes + index) = 0) : dnsslLoop mem suffixes limit offset [] = ([], false) := by
  induction remaining : limit - offset generalizing offset with
  | zero =>
      have done : ¬offset < limit := by omega
      rw [dnsslLoop]
      simp only [done, if_false]
  | succ count ih =>
      have here : offset < limit := by omega
      have zero : (mem (suffixes + offset)).toNat = 0 := by
        rw [stored offset le_rfl here]
        rfl
      rw [dnsslLoop]
      simp only [here, if_true, zero]
      apply ih
      · intro index low high
        exact stored index (by omega) high
      · omega

theorem dnsslLoop_names {list : List Suffix}
    (inside : offset + (encodeNames (list.map Suffix.text)).length ≤ limit)
    (stored : mem.Holds (suffixes + offset) (encodeNames (list.map Suffix.text)))
    (padding : ∀ index, offset + (encodeNames (list.map Suffix.text)).length ≤ index →
      index < limit → mem (suffixes + index) = 0) :
    dnsslLoop mem suffixes limit offset [] = (list.map fun suffix => suffix.name.text, false) := by
  induction list generalizing offset with
  | nil =>
      apply dnsslLoop_padding
      intro index low high
      exact padding index (by simpa [encodeNames] using low) high
  | cons suffix rest ih =>
      have encoded : encodeNames ((suffix :: rest).map Suffix.text) =
          labelOctets suffix.name.labels ++ [0] ++ encodeNames (rest.map Suffix.text) := by
        simp only [encodeNames, List.map_cons, List.flatMap_cons, encodeName_text]
      simp only [encoded, Memory.holds_append, List.length_append, List.length_singleton]
        at inside stored padding
      have named := @dnsslLoop_name mem suffixes limit offset suffix.name (by omega)
        (Memory.holds_append.mpr stored.1)
      have later := @ih (offset + (labelOctets suffix.name.labels).length + 1) (by omega)
        (by simpa [Nat.add_assoc] using stored.2)
        (fun index low high => padding index (by omega) high)
      simp only [named, later, List.map_cons]

end Loop

/-! ## The option -/

theorem parsed_of_suffixes {dnssl : AdvDNSSL} {list : List Suffix}
    (suffixes : dnssl.advDNSSLSuffixes = list.map Suffix.text) : dnssl.Parsed := by
  intro text mem
  simp only [suffixes, List.mem_map] at mem
  rcases mem with ⟨suffix, -, rfl⟩
  have bound := suffix.name.length_text
  have named : suffix.name.text ≠ [] := by
    rcases suffix.name with ⟨labels, nonempty, length, -, -⟩
    rcases labels with _ | ⟨label, rest⟩
    · exact absurd rfl nonempty
    · exact intercalate_ne_nil (List.length_pos_iff.mp (length label (by simp)).1) rest
  refine ⟨by simp [Suffix.text, named], ?_⟩
  simp only [Suffix.text, DomainName.text, List.length_append]
  split <;> simp <;> omega

theorem dnsslSuffixes_of_holds {dnssl : AdvDNSSL} {list : List Suffix} {ceaseAdv : Bool}
    (suffixes : dnssl.advDNSSLSuffixes = list.map Suffix.text)
    (small : dnsslLen (dnsslBytes dnssl) ≤ 255) {mem : Memory} {optStr : Nat}
    (stored : mem.Holds optStr (dnsslBlock dnssl ceaseAdv)) :
    dnsslSuffixes mem optStr = (list.map fun suffix => suffix.name.text, false) := by
  have octets : dnsslBytes dnssl = (encodeNames (list.map Suffix.text)).length := by
    simp only [dnsslBytes, suffixes]
  have padded : dnsslLen (dnsslBytes dnssl) * 8 =
      8 + dnsslBytes dnssl + dnsslPadding (dnsslBytes dnssl) := by
    simp only [dnsslPadding, dnsslLen]
    omega
  simp only [dnsslBlock, suffixes, Memory.holds_append, dnsslInfo, Memory.holds_cons,
    List.length_append, List.length_cons, List.length_nil, length_be16, length_be32] at stored
  rcases stored with ⟨⟨⟨⟨-, lenStored, -⟩, -⟩, -⟩, namesStored, paddingStored⟩
  have limit : ((mem (optStr + 1)).toNat - 1) * 8 = dnsslLen (dnsslBytes dnssl) * 8 - 8 := by
    simp only [lenStored, UInt8.toNat_ofNat']
    omega
  simp only [dnsslSuffixes, limit]
  apply dnsslLoop_names
  · omega
  · simpa using namesStored
  · intro index low high
    have zero := @Memory.eq_of_holds_replicate mem _ _ 0 paddingStored
      (index - dnsslBytes dnssl) (by omega)
    have position : optStr + 8 + index = optStr + (0 + 1 + 1 + 2 + 4) +
        (encodeNames (list.map Suffix.text)).length + (index - dnsslBytes dnssl) := by omega
    simpa only [position] using zero

/-- For every DNSSL block of domain names, with or without a trailing dot, whose
option has at most 2040 octets: the names are serialised, the option is built, and
`print_ff` reads from it the names in order and nothing else. -/
theorem dnssl_round_trip (iface : Interface) (ceaseAdv edefs : Bool) (dest : In6Addr)
    (scratch : SafeBuffer) {dnssl : AdvDNSSL} {list : List Suffix}
    (suffixes : dnssl.advDNSSLSuffixes = list.map Suffix.text)
    (small : dnsslLen (dnsslBytes dnssl) * 8 ≤ 2040) :
    (∃ serialized, serializeDomainNames scratch.clear dnssl =
        .ok (serialized, dnsslBytes dnssl)) ∧
      ∃ sbl block, addRaOptionsDnssl iface ceaseAdv dest scratch SafeBufferList.new [dnssl] =
          .ok sbl ∧ sbl.blocks = [block] ∧
        ∀ (mem : Memory) (visit : Visit), mem.Holds visit.offset block →
          dnsslSuffixes mem visit.offset = (list.map fun suffix => suffix.name.text, false) ∧
          printBlock mem edefs visit =
            [.opens (.dnssl (list.map fun suffix => suffix.name.text)),
              .setting .advDNSSLLifetime (lifetime
                (if ceaseAdv && dnssl.flushDNSSLFlag then 0 else dnssl.advDNSSLLifetime)),
              .closes] := by
  have parsed := parsed_of_suffixes suffixes
  have fits : dnssl.Fits := by
    simp only [AdvDNSSL.Fits]
    simp only [dnsslLen] at small
    omega
  rcases serializeDomainNames_ok scratch parsed fits with ⟨serialized, serializedEq, -⟩
  have writes := @writes_addRaOptionsDnssl iface ceaseAdv dest scratch [dnssl]
    (by simpa using parsed) (by simpa using fits)
  rcases writes SafeBufferList.new with ⟨sbl, sblEq, blocks⟩
  refine ⟨⟨serialized, serializedEq⟩, sbl, dnsslBlock dnssl ceaseAdv, sblEq, ?_, ?_⟩
  · have length := length_dnsslBlock dnssl ceaseAdv
    have kept : dnsslBlocks ceaseAdv [dnssl] = [dnsslBlock dnssl ceaseAdv] := by
      have short : dnsslLen (dnsslBytes dnssl) ≤ 255 := by omega
      simp [dnsslBlocks, short]
    have filled : dnsslBlock dnssl ceaseAdv ≠ [] := by
      apply List.length_pos_iff.mp
      simp only [length, dnsslLen]
      omega
    simpa only [blocks_new, kept, extend_head (List.forall_mem_singleton.mpr filled),
      List.cons_ne_nil, if_false] using blocks
  · intro mem visit stored
    have read := dnsslSuffixes_of_holds suffixes (by omega) stored
    refine ⟨read, ?_⟩
    simp only [dnsslBlock, dnsslInfo, Memory.holds_append, Memory.holds_cons, List.length_append,
      List.length_cons, List.length_nil, length_be16] at stored
    rcases stored with ⟨⟨⟨⟨typeStored, -⟩, -⟩, lifetimeStored⟩, -⟩
    have seconds := Memory.u32_of_holds lifetimeStored
    simp only [Nat.zero_add, Nat.reduceAdd] at seconds
    simp only [printBlock, typeStored, printDnssl, read, seconds]
    rfl

def exampleCom : DomainName where
  labels := [[101, 120, 97, 109, 112, 108, 101], [99, 111, 109]]
  labels_ne_nil := by simp
  length_label := by simp
  isLdh_label := by simp [isLdh]
  length_text := by decide

def exampleDnssl : AdvDNSSL where
  advDNSSLLifetime := 1800
  flushDNSSLFlag := true
  advDNSSLSuffixes := [exampleCom.text, exampleCom.text ++ [dot]]

theorem dnssl_round_trip_example :
    (∃ serialized, serializeDomainNames SafeBuffer.new.clear exampleDnssl =
        .ok (serialized, dnsslBytes exampleDnssl)) ∧
      ∃ sbl block, addRaOptionsDnssl ifaceInitDefaults false In6Addr.unspecified SafeBuffer.new
          SafeBufferList.new [exampleDnssl] = .ok sbl ∧ sbl.blocks = [block] ∧
        ∀ (mem : Memory) (visit : Visit), mem.Holds visit.offset block →
          dnsslSuffixes mem visit.offset = ([exampleCom.text, exampleCom.text], false) ∧
          printBlock mem false visit =
            [.opens (.dnssl [exampleCom.text, exampleCom.text]),
              .setting .advDNSSLLifetime (lifetime 1800), .closes] := by
  have suffixes : exampleDnssl.advDNSSLSuffixes =
      [⟨exampleCom, false⟩, ⟨exampleCom, true⟩].map Suffix.text := rfl
  have small : dnsslLen (dnsslBytes exampleDnssl) * 8 ≤ 2040 := by
    simp only [dnsslBytes, suffixes, encodeNames, List.map_cons, List.map_nil, List.flatMap_cons,
      List.flatMap_nil, encodeName_text]
    decide
  exact dnssl_round_trip ifaceInitDefaults false false In6Addr.unspecified SafeBuffer.new
    suffixes small

end Radvd.Dump
