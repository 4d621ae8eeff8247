import Radvd.Dump.Lines
import Radvd.Dump.Sanitized
import Radvd.Dump.SearchList
import Radvd.WireValues

/-!
# Options as definitions

The options that `radvdump` shows, and the definitions that `radvd` reads from what
is printed for them (`ReadBack`). What is read is written as the same option again.
-/

namespace Radvd.Dump

open Wire Grammar

/-! ## Values -/

def preferenceText (preference : Int) : SignedText :=
  if preference = 1 then .high else if preference = -1 then .low else .medium

theorem snum_preferenceText {preference : Int} (valid : IsPreference preference) :
    (preferenceText preference).snum = preference := by
  rcases valid with rfl | rfl | rfl <;> rfl

theorem valueToken_preference (preference : Int) :
    ValueToken (.preference (preferenceShown preference)) (.snum (preferenceText preference)) := by
  unfold preferenceShown preferenceText
  split_ifs
  · exact .high
  · exact .low
  · exact .medium

/-! ## Options -/

/-- What is printed for the option is read as settings and definitions. -/
def ReadBack (order : ByteOrder) (texts : Texts) (block : Bytes)
    (params : List Ifaceparam × List Ifaceparam) : Prop :=
  ∃ settings blocks, Prints order block settings blocks ∧ PrintedAs texts settings params.1 ∧
    PrintedAs texts blocks params.2

section

variable {order : ByteOrder} {texts : Texts}

/-! ### Prefixes -/

def prefixTree (entry : AdvPrefix) : PrefixDef where
  addr := entry.prefixAddr
  len := numberText entry.prefixLen.toNat
  parms := [.advValidLifetime (lifetimeText entry.currValidlft),
    .advPreferredLifetime (lifetimeText entry.currPreferredlft),
    .advOnLink entry.advOnLinkFlag, .advAutonomous entry.advAutonomousFlag,
    .advRouterAddr entry.advRouterAddr,
    .advDHCPv6PDPreferred entry.advDHCPv6PDPreferredFlag]

/-- The prefix that is read: its lifetimes are the ones that were sent. -/
def rereadPrefix (entry : AdvPrefix) : AdvPrefix :=
  { prefixInitDefaults with
    prefixAddr := entry.prefixAddr
    prefixLen := entry.prefixLen
    advOnLinkFlag := entry.advOnLinkFlag
    advAutonomousFlag := entry.advAutonomousFlag
    advRouterAddr := entry.advRouterAddr
    advDHCPv6PDPreferredFlag := entry.advDHCPv6PDPreferredFlag
    advValidLifetime := entry.currValidlft
    currValidlft := entry.currValidlft
    advPreferredLifetime := entry.currPreferredlft
    currPreferredlft := entry.currPreferredlft }

theorem octet_small (octet : UInt8) : octet.toNat < 2 ^ 32 :=
  octet.toNat_lt.trans (by decide)

theorem num_octet (octet : UInt8) : (numberText octet.toNat).num = some octet.toUInt32 := by
  rw [num_numberText (octet_small octet), Option.some_inj]
  apply UInt32.toNat_inj.mp
  rw [UInt32.toNat_ofNat_of_lt' (octet_small octet), UInt8.toNat_toUInt32]

theorem readBack_prefixBlock {entry : AdvPrefix} (shows' : texts.Shows entry.prefixAddr) :
    ReadBack order texts (prefixBlock entry false) ([], [.prefixdef (prefixTree entry)]) := by
  refine ⟨_, _, prints_prefixBlock order entry false, .nil, ?_⟩
  have opening : Opening texts (.prefixInfo entry.prefixAddr entry.prefixLen.toNat) .tPrefix
      (network entry.prefixAddr (numberText entry.prefixLen.toNat)) :=
    ⟨by simp, rfl, fun _ _ lays => lays_network shows' (octet_small _) lays, rfl⟩
  have settings : List.Forall₂ (fun setting value => SettingTokens setting
      (PrefixParm.parms.tokens value))
      [.setting .advValidLifetime (lifetime entry.currValidlft),
        .setting .advPreferredLifetime (lifetime entry.currPreferredlft),
        .setting .advOnLink (.flag entry.advOnLinkFlag),
        .setting .advAutonomous (.flag entry.advAutonomousFlag),
        .setting .advRouterAddr (.flag entry.advRouterAddr),
        .setting .advDHCPv6PDPreferred (.flag entry.advDHCPv6PDPreferredFlag)]
      (prefixTree entry).parms :=
    .cons (.setting rfl (.lifetime _)) (.cons (.setting rfl (.lifetime _))
      (.cons (.setting rfl (.flag _)) (.cons (.setting rfl (.flag _))
        (.cons (.setting rfl (.flag _)) (.cons (.setting rfl (.flag _)) .nil)))))
  exact printedAs_block opening settings ⟨_, ⟨_, .inl rfl, rfl⟩, rfl⟩

theorem prefixdef_prefixTree {entry : AdvPrefix} (short : entry.prefixLen ≤ 128)
    (ordered : entry.currPreferredlft ≤ entry.currValidlft) :
    prefixdef (prefixTree entry) = .ok (rereadPrefix entry) := by
  have small : entry.prefixLen.toUInt32 ≤ 128 := by
    rw [UInt32.le_iff_toNat_le, UInt8.toNat_toUInt32]
    exact short
  simp [prefixdef, prefixhead, prefixTree, prefixparms, num_octet, num_lifetimeText, small,
    rereadPrefix, prefixInitDefaults, ordered, -bind_pure_comp]

/-! ### NAT64 prefixes -/

/-- The lifetime that is sent, a multiple of eight. -/
def sentLifetime (entry : NAT64Prefix) : Nat :=
  (entry.currValidlft.toNat + 7) / 8 * 8

def nat64prefixTree (entry : NAT64Prefix) : Nat64prefixDef where
  addr := front entry.prefixAddr 12
  len := numberText entry.prefixLen.toNat
  parms := [numberText (sentLifetime entry)]

def rereadNat64 (entry : NAT64Prefix) : NAT64Prefix where
  prefixAddr := front entry.prefixAddr 12
  prefixLen := entry.prefixLen
  advValidLifetime := UInt32.ofNat (sentLifetime entry)
  currValidlft := UInt32.ofNat (sentLifetime entry)

/-- The NAT64 prefixes that can be sent and read again. -/
structure Nat64Restorable (entry : NAT64Prefix) : Prop where
  prefixLen : entry.prefixLen ∈ [32, 40, 48, 56, 64, 96]
  lifetime_le : entry.currValidlft.toNat ≤ 65528
  addr_ne : front entry.prefixAddr 12 ≠ In6Addr.unspecified

theorem sentLifetime_le {entry : NAT64Prefix} (bound : entry.currValidlft.toNat ≤ 65528) :
    sentLifetime entry ≤ 65528 := by
  unfold sentLifetime
  omega

theorem signedDecimal_natCast (value : Nat) : signedDecimal value = decimal value := by
  have nonneg : ¬(value : Int) < 0 := by omega
  rw [signedDecimal, if_neg nonneg]
  rfl

theorem readBack_nat64prefixBlock {entry : NAT64Prefix} (restorable : Nat64Restorable entry)
    (shows' : texts.Shows (front entry.prefixAddr 12)) :
    ReadBack order texts (nat64prefixBlock entry) ([], [.nat64prefixdef (nat64prefixTree entry)]) := by
  refine ⟨_, _, prints_nat64prefixBlock order restorable.prefixLen restorable.lifetime_le, .nil, ?_⟩
  have small := sentLifetime_le restorable.lifetime_le
  have opening : Opening texts
      (.nat64Prefix (front entry.prefixAddr 12) entry.prefixLen.toNat) .tNat64Prefix
      (network (front entry.prefixAddr 12) (numberText entry.prefixLen.toNat)) := by
    refine ⟨by simp, rfl, ?_, rfl⟩
    intro text tokens lays
    rw [Texts.arguments, signedDecimal_natCast]
    exact lays_network shows' (octet_small _) lays
  have settings : List.Forall₂ (fun setting value => SettingTokens setting
      (nat64prefixParms.tokens value))
      [.setting .advValidLifetime (.number (sentLifetime entry))]
      (nat64prefixTree entry).parms :=
    .cons (.setting rfl (.number (by omega))) .nil
  exact printedAs_block opening settings ⟨_, ⟨_, .inl rfl, rfl⟩, rfl⟩

theorem nat64prefixdef_nat64prefixTree {entry : NAT64Prefix} (restorable : Nat64Restorable entry)
    (iface : Interface) :
    nat64prefixdef iface (nat64prefixTree entry) = .ok (rereadNat64 entry) := by
  have bound := sentLifetime_le restorable.lifetime_le
  have read : (numberText (sentLifetime entry)).num = some (UInt32.ofNat (sentLifetime entry)) :=
    num_numberText (by omega)
  have small : UInt32.ofNat (sentLifetime entry) ≤ 65528 := by
    rw [UInt32.le_iff_toNat_le, UInt32.toNat_ofNat_of_lt' (by simp only [UInt32.size]; omega)]
    exact bound
  have lengths : ∀ len : UInt8, len ∈ ([32, 40, 48, 56, 64, 96] : List UInt8) →
      len.toUInt32 ≤ 128 ∧ len.toUInt32 ∈ ([32, 40, 48, 56, 64, 96] : List UInt32) := by
    intro len member
    simp only [List.mem_cons, List.not_mem_nil, or_false] at member
    rcases member with rfl | rfl | rfl | rfl | rfl | rfl <;> decide
  have length := lengths _ restorable.prefixLen
  have listed := length.2
  simp only [List.mem_cons, List.not_mem_nil, or_false] at listed
  simp [nat64prefixdef, nat64prefixhead, nat64prefixTree, nat64prefixparms, num_octet, read, small,
    rereadNat64, restorable.addr_ne, length.1, listed, -bind_pure_comp]

theorem take_front (addr : In6Addr) (count : Nat) :
    (front addr count).toList.take count = addr.toList.take count := by
  apply List.ext_getElem
  · simp
  · intro index inFront inAddr
    have within : index < count := (List.length_take .. ▸ inFront).trans_le (Nat.min_le_left _ _)
    simp [front, within]

theorem nat64prefixBlock_rereadNat64 {entry : NAT64Prefix}
    (restorable : Nat64Restorable entry) :
    nat64prefixBlock (rereadNat64 entry) = nat64prefixBlock entry := by
  have bound := sentLifetime_le restorable.lifetime_le
  have read : (rereadNat64 entry).currValidlft.toNat = sentLifetime entry :=
    UInt32.toNat_ofNat_of_lt' (by simp only [UInt32.size]; omega)
  have code : (rereadNat64 entry).prefixLen = entry.prefixLen := rfl
  have multiple : (sentLifetime entry + 7) / 8 * 8 = sentLifetime entry := by
    unfold sentLifetime
    omega
  have lifetimes : nat64LifetimePreflen (rereadNat64 entry) = nat64LifetimePreflen entry := by
    have sent : (rereadNat64 entry).currValidlft.toNat ≤ 65528 := by
      rw [read]
      exact bound
    apply UInt16.toNat_inj.mp
    rw [toNat_nat64LifetimePreflen sent, toNat_nat64LifetimePreflen restorable.lifetime_le, read,
      code, multiple]
    rfl
  rw [nat64prefixBlock, nat64prefixBlock, lifetimes]
  exact congrArg _ (take_front entry.prefixAddr 12)

/-! ### Routes -/

/-- The part of the address that is sent. -/
def sentAddr (route : AdvRoute) : In6Addr :=
  front route.prefixAddr (((routeLen route.prefixLen).toNat - 1) * 8)

def routeTree (route : AdvRoute) : RouteDef where
  addr := sentAddr route
  len := numberText route.prefixLen.toNat
  parms := [.advRoutePreference (preferenceText route.advRoutePreference),
    .advRouteLifetime (lifetimeText route.advRouteLifetime)]

def rereadRoute (route : AdvRoute) : AdvRoute where
  prefixAddr := sentAddr route
  prefixLen := route.prefixLen
  advRoutePreference := route.advRoutePreference
  advRouteLifetime := route.advRouteLifetime
  removeRouteFlag := true

theorem readBack_routeBlock {route : AdvRoute} (short : route.prefixLen ≤ 128)
    (valid : IsPreference route.advRoutePreference) (shows' : texts.Shows (sentAddr route)) :
    ReadBack order texts (routeBlock route false) ([], [.routedef (routeTree route)]) := by
  refine ⟨_, _, prints_routeBlock order false short valid, .nil, ?_⟩
  have opening : Opening texts (.route (sentAddr route) route.prefixLen.toNat) .tRoute
      (network (sentAddr route) (numberText route.prefixLen.toNat)) :=
    ⟨by simp, rfl, fun _ _ lays => lays_network shows' (octet_small _) lays, rfl⟩
  have settings : List.Forall₂ (fun setting value => SettingTokens setting
      (RouteParm.parms.tokens value))
      [.setting .advRoutePreference (.preference (preferenceShown route.advRoutePreference)),
        .setting .advRouteLifetime (lifetime route.advRouteLifetime)]
      (routeTree route).parms :=
    .cons (.setting rfl (valueToken_preference _)) (.cons (.setting rfl (.lifetime _)) .nil)
  exact printedAs_block opening settings ⟨_, by simp [Ifaceparam.Tail, routeTree], rfl⟩

theorem routedef_routeTree {route : AdvRoute} (short : route.prefixLen ≤ 128)
    (valid : IsPreference route.advRoutePreference) (iface : Interface) :
    routedef iface (routeTree route) = .ok (rereadRoute route) := by
  have small : route.prefixLen.toUInt32 ≤ 128 := by
    rw [UInt32.le_iff_toNat_le, UInt8.toNat_toUInt32]
    exact short
  simp [routedef, routehead, routeTree, routeparms, num_octet, num_lifetimeText, small,
    rereadRoute, routeInitDefaults, snum_preferenceText valid, -bind_pure_comp]

theorem routeBlock_rereadRoute {route : AdvRoute} (short : route.prefixLen ≤ 128) :
    routeBlock (rereadRoute route) false = routeBlock route false := by
  have again : (rereadRoute route).prefixLen ≤ 128 := short
  have sent := take_front route.prefixAddr (((routeLen route.prefixLen).toNat - 1) * 8)
  rw [routeBlock_eq again, routeBlock_eq short]
  simp only [rereadRoute, sentAddr, sent, Bool.false_and, Bool.false_eq_true, if_false]

/-! ### DNS servers -/

def rdnssTree (rdnss : AdvRDNSS) (first : In6Addr) (rest : List In6Addr) : RdnssDef where
  first := first
  rest := rest
  parms := [.advRDNSSLifetime (lifetimeText rdnss.advRDNSSLifetime)]

theorem readBack_rdnssBlock {rdnss : AdvRDNSS} {first : In6Addr} {rest : List In6Addr}
    (addrs : rdnss.advRDNSSAddr = first :: rest) (bound : rdnss.advRDNSSAddr.length ≤ 127)
    (shows' : ∀ addr ∈ rdnss.advRDNSSAddr, texts.Shows addr) :
    ReadBack order texts (rdnssBlock rdnss false) ([], [.rdnssdef (rdnssTree rdnss first rest)]) := by
  have filled : 1 ≤ rdnss.advRDNSSAddr.length := by simp [addrs]
  refine ⟨_, _, prints_rdnssBlock order false filled bound, .nil, ?_⟩
  have opening : Opening texts (.rdnss rdnss.advRDNSSAddr) .tRdnss
      ((first :: rest).map .addr) := by
    refine ⟨by simp, rfl, ?_, by rw [addrs]; rfl⟩
    intro text tokens lays
    rw [addrs] at shows' ⊢
    exact lays_spaced (fun addr member => (shows' addr member).wordText) lays
  have settings : List.Forall₂ (fun setting value => SettingTokens setting
      (RdnssParm.parms.tokens value))
      [.setting .advRDNSSLifetime (lifetime rdnss.advRDNSSLifetime)]
      (rdnssTree rdnss first rest).parms :=
    .cons (.setting rfl (.lifetime _)) .nil
  exact printedAs_block opening settings ⟨_, by simp [Ifaceparam.Tail, rdnssTree], rfl⟩

theorem foldlM_rdnssaddr {addrs : List In6Addr} {rdnss : AdvRDNSS}
    (bound : rdnss.advRDNSSAddr.length + addrs.length ≤ 127) :
    addrs.foldlM rdnssaddr rdnss =
      .ok { rdnss with advRDNSSAddr := rdnss.advRDNSSAddr ++ addrs } := by
  induction addrs generalizing rdnss with
  | nil =>
      rw [List.append_nil]
      rfl
  | cons addr rest ih =>
      rw [List.length_cons] at bound
      have few : rdnss.advRDNSSAddr.length + 1 ≤ 127 := by omega
      have read : rdnssaddr rdnss addr =
          .ok { rdnss with advRDNSSAddr := rdnss.advRDNSSAddr ++ [addr] } := by
        simp [rdnssaddr, few, -bind_pure_comp]
      rw [List.foldlM_cons, read, ok_bind, ih (by simp; omega)]
      simp

theorem rdnssdef_rdnssTree {rdnss : AdvRDNSS} {first : In6Addr} {rest : List In6Addr}
    (addrs : rdnss.advRDNSSAddr = first :: rest) (bound : rdnss.advRDNSSAddr.length ≤ 127)
    (iface : Interface) :
    rdnssdef iface (rdnssTree rdnss first rest) = .ok { rdnss with flushRDNSSFlag := true } := by
  have read : (first :: rest).foldlM rdnssaddr (rdnssInitDefaults iface) =
      .ok { rdnssInitDefaults iface with advRDNSSAddr := rdnss.advRDNSSAddr } := by
    rw [foldlM_rdnssaddr (by simpa [rdnssInitDefaults, addrs] using bound), addrs]
    rfl
  rw [rdnssdef]
  change (first :: rest).foldlM rdnssaddr (rdnssInitDefaults iface) >>= _ = _
  rw [read, ok_bind]
  simp [rdnssTree, rdnssparms, num_lifetimeText, rdnssInitDefaults, -bind_pure_comp]

/-! ### Search lists -/

theorem mem_text {name : DomainName} {octet : UInt8} (member : octet ∈ name.text) :
    isLdh octet = true ∨ octet = dot := by
  rcases mem_intercalate member with rfl | ⟨label, labelMem, inLabel⟩
  · exact .inr rfl
  · exact .inl (name.isLdh_label label labelMem octet inLabel)

theorem text_ne_nil (name : DomainName) : name.text ≠ [] := by
  rcases name with ⟨labels, nonempty, length, -, -⟩
  rcases labels with _ | ⟨label, rest⟩
  · exact absurd rfl nonempty
  · exact intercalate_ne_nil (List.length_pos_iff.mp (length label List.mem_cons_self).1) rest

theorem isWordOctet_of_ldh {octet : UInt8} (ldh : isLdh octet = true ∨ octet = dot) :
    isWordOctet octet = true ∧ isSuffixOctet octet = true ∧ octet ≠ hash ∧ octet ≠ 0 := by
  have bounds : ∀ low high : UInt8, (low ≤ octet ∧ octet ≤ high) → low ≠ 0 → hash < low →
      octet ≠ hash ∧ octet ≠ 0 := by
    intro low high within nonzero above
    simp only [UInt8.le_iff_toNat_le, UInt8.lt_iff_toNat_lt, ne_eq, ← UInt8.toNat_inj,
      UInt8.reduceToNat] at within nonzero above ⊢
    omega
  rcases ldh with ldh | rfl
  · simp only [isLdh, Bool.or_eq_true, Bool.and_eq_true, decide_eq_true_eq] at ldh
    rcases ldh with ((upper | lower) | digit) | rfl
    · exact ⟨by simp [isWordOctet, upper], by simp [isSuffixOctet, upper],
        bounds _ _ upper (by decide) (by decide)⟩
    · exact ⟨by simp [isWordOctet, lower], by simp [isSuffixOctet, lower],
        bounds _ _ lower (by decide) (by decide)⟩
    · exact ⟨by simp [isWordOctet, digit], by simp [isSuffixOctet, digit],
        bounds _ _ digit (by decide) (by decide)⟩
    · decide
  · decide

theorem isWordOctet_text (name : DomainName) : ∀ octet ∈ name.text, isWordOctet octet = true :=
  fun _ member => (isWordOctet_of_ldh (mem_text member)).1

/-- The word of a domain name. -/
def nameWord (name : DomainName) : StringText :=
  .word name.text (text_ne_nil name) (isWordOctet_text name)

theorem plainWord_text {name : DomainName} (unnamed : Unnamed name.text) : PlainWord name.text := by
  refine ⟨text_ne_nil name, isWordOctet_text name, ?_, unnamed⟩
  intro comment
  exact (isWordOctet_of_ldh (mem_text (List.mem_of_mem_head? comment))).2.2.1 rfl

/-- A word that fits in the buffer is copied in full. -/
theorem str_word {text : Bytes} (filled : text ≠ []) (octets : ∀ octet ∈ text, isWordOctet octet)
    (short : text.length ≤ 255) : (StringText.word text filled octets).str = text := by
  have nonzero : ∀ octet ∈ text, decide (octet ≠ 0) = true := by
    intro octet member
    refine decide_eq_true ?_
    rintro rfl
    exact absurd (octets 0 member) (by decide)
  rw [StringText.str]
  change (text.takeWhile (· ≠ 0)).take 255 = text
  rw [List.takeWhile_eq_self_iff.mpr nonzero, List.take_of_length_le short]

theorem str_nameWord (name : DomainName) : (nameWord name).str = name.text :=
  str_word _ _ (name.length_text.trans (by decide))

def dnsslTree (dnssl : AdvDNSSL) (first : Suffix) (rest : List Suffix) : DnsslDef where
  first := nameWord first.name
  rest := rest.map fun suffix => nameWord suffix.name
  parms := [.advDNSSLLifetime (lifetimeText dnssl.advDNSSLLifetime)]

def rereadDnssl (dnssl : AdvDNSSL) (list : List Suffix) : AdvDNSSL where
  advDNSSLLifetime := dnssl.advDNSSLLifetime
  flushDNSSLFlag := true
  advDNSSLSuffixes := list.map fun suffix => suffix.name.text

theorem prints_dnsslBlock (order : ByteOrder) {dnssl : AdvDNSSL} {list : List Suffix}
    (suffixes : dnssl.advDNSSLSuffixes = list.map Suffix.text)
    (small : dnsslLen (dnsslBytes dnssl) ≤ 255) :
    Prints order (dnsslBlock dnssl false) []
      [.opens (.dnssl (list.map fun suffix => suffix.name.text)),
        .setting .advDNSSLLifetime (lifetime dnssl.advDNSSLLifetime), .closes] := by
  apply prints_of_blocks rfl (by decide)
  intro mem visit stored _
  have read := dnsslSuffixes_of_holds suffixes small stored
  simp only [dnsslBlock, dnsslInfo, Memory.holds_append, Memory.holds_cons, List.length_append,
    List.length_cons, List.length_nil, length_be16] at stored
  rcases stored with ⟨⟨⟨⟨typeStored, -⟩, -⟩, lifetimeStored⟩, -⟩
  have seconds := Memory.u32_of_holds lifetimeStored
  simp only [Nat.zero_add, Nat.reduceAdd] at seconds
  simp only [printBlock, typeStored, printDnssl, read, seconds]
  rfl

theorem readBack_dnsslBlock {dnssl : AdvDNSSL} {first : Suffix} {rest : List Suffix}
    (suffixes : dnssl.advDNSSLSuffixes = (first :: rest).map Suffix.text)
    (small : dnsslLen (dnsslBytes dnssl) ≤ 255)
    (unnamed : ∀ suffix ∈ first :: rest, Unnamed suffix.name.text) :
    ReadBack order texts (dnsslBlock dnssl false)
      ([], [.dnssldef (dnsslTree dnssl first rest)]) := by
  refine ⟨_, _, prints_dnsslBlock order suffixes small, .nil, ?_⟩
  have opening : Opening texts
      (.dnssl ((first :: rest).map fun suffix => suffix.name.text)) .tDnssl
      ((first :: rest).map fun suffix => .str (nameWord suffix.name)) := by
    refine ⟨by simp, rfl, ?_, rfl⟩
    intro text tokens lays
    exact lays_spaced
      (fun suffix member => (plainWord_text (unnamed suffix member)).wordText) lays
  have settings : List.Forall₂ (fun setting value => SettingTokens setting
      (DnsslParm.parms.tokens value))
      [.setting .advDNSSLLifetime (lifetime dnssl.advDNSSLLifetime)]
      (dnsslTree dnssl first rest).parms :=
    .cons (.setting rfl (.lifetime _)) .nil
  exact printedAs_block opening settings
    ⟨_, by simp [Ifaceparam.Tail, dnsslTree, Function.comp_def], rfl⟩

theorem foldlM_dnsslsuffix {list : List Suffix} {dnssl : AdvDNSSL} :
    (list.map fun suffix => nameWord suffix.name).foldlM dnsslsuffix dnssl =
      .ok { dnssl with advDNSSLSuffixes :=
        dnssl.advDNSSLSuffixes ++ list.map fun suffix => suffix.name.text } := by
  induction list generalizing dnssl with
  | nil =>
      rw [List.map_nil, List.map_nil, List.append_nil]
      rfl
  | cons suffix rest ih =>
      have allowed : (nameWord suffix.name).str.all isSuffixOctet = true := by
        rw [str_nameWord, List.all_eq_true]
        exact fun octet member => (isWordOctet_of_ldh (mem_text member)).2.1
      have read : dnsslsuffix dnssl (nameWord suffix.name) = .ok { dnssl with
          advDNSSLSuffixes := dnssl.advDNSSLSuffixes ++ [suffix.name.text] } := by
        rw [dnsslsuffix, require, if_pos allowed, ok_bind, str_nameWord]
        rfl
      rw [List.map_cons, List.foldlM_cons, read, ok_bind, ih]
      simp

theorem dnssldef_dnsslTree (dnssl : AdvDNSSL) (first : Suffix) (rest : List Suffix)
    (iface : Interface) :
    dnssldef iface (dnsslTree dnssl first rest) = .ok (rereadDnssl dnssl (first :: rest)) := by
  rw [dnssldef]
  change ((first :: rest).map fun suffix => nameWord suffix.name).foldlM dnsslsuffix
    (dnsslInitDefaults iface) >>= _ = _
  rw [foldlM_dnsslsuffix, ok_bind]
  simp [dnsslTree, dnsslparms, num_lifetimeText, dnsslInitDefaults, rereadDnssl, -bind_pure_comp]

/-- A name is written as its suffix is. -/
theorem encodeNames_rereadDnssl {dnssl : AdvDNSSL} {list : List Suffix}
    (suffixes : dnssl.advDNSSLSuffixes = list.map Suffix.text) :
    encodeNames (rereadDnssl dnssl list).advDNSSLSuffixes = encodeNames dnssl.advDNSSLSuffixes := by
  rw [suffixes]
  simp only [rereadDnssl, encodeNames, List.flatMap_map]
  apply List.flatMap_congr
  intro suffix _
  have plain := encodeName_text ⟨suffix.name, false⟩
  simp only [Suffix.text, Bool.false_eq_true, if_false, List.append_nil] at plain
  rw [plain, encodeName_text]

theorem dnsslBlock_rereadDnssl {dnssl : AdvDNSSL} {list : List Suffix}
    (suffixes : dnssl.advDNSSLSuffixes = list.map Suffix.text) :
    dnsslBlock (rereadDnssl dnssl list) false = dnsslBlock dnssl false ∧
      dnsslBytes (rereadDnssl dnssl list) = dnsslBytes dnssl := by
  have same := encodeNames_rereadDnssl suffixes
  have bytes : dnsslBytes (rereadDnssl dnssl list) = dnsslBytes dnssl := by
    rw [dnsslBytes, dnsslBytes, same]
  refine ⟨?_, bytes⟩
  rw [dnsslBlock, dnsslBlock, same, bytes]
  rfl

/-! ### Settings of the interface -/

def headerTree (info : RaHeaderInfo) : List Ifaceval :=
  [.advManagedFlag info.advManagedFlag, .advOtherConfigFlag info.advOtherConfigFlag,
    .advReachableTime (numberText info.advReachableTime.toNat),
    .advRetransTimer (numberText info.advRetransTimer.toNat),
    .advCurHopLimit (numberText info.advCurHopLimit.toNat),
    .advDefaultLifetime (numberText info.advDefaultLifetime.toNat),
    .advHomeAgentFlag info.advHomeAgentFlag, .advSNACRouterFlag info.advSNACRouterFlag,
    .advDefaultPreference (preferenceText info.advDefaultPreference)]

theorem printedAs_header {info : RaHeaderInfo} (valid : HeaderValid info) :
    PrintedAs texts (headerStatements info false) ((headerTree info).map .ifaceval) := by
  have nonneg := valid.lifetime_nonneg
  have bound := valid.lifetime_le
  apply printedAs_settings
  exact .cons (.setting rfl (.flag _)) (.cons (.setting rfl (.flag _))
    (.cons (.setting rfl (.number (UInt32.toNat_lt _)))
      (.cons (.setting rfl (.number (UInt32.toNat_lt _)))
        (.cons (.setting rfl (.number (octet_small _)))
          (.cons (.setting rfl (.number (by rw [if_neg Bool.false_ne_true]; omega)))
            (.cons (.setting rfl (.flag _)) (.cons (.setting rfl (.flag _))
              (.cons (.setting rfl (valueToken_preference _)) .nil))))))))

/-- A number that is kept as an `int`. -/
theorem num_nonneg {value : Int} (nonneg : 0 ≤ value) (bound : value ≤ 65535) :
    ∃ scanned, (numberText value.toNat).num = some scanned ∧ scanned.toInt32.toInt = value := by
  have small : value.toNat < 2 ^ 32 := by omega
  refine ⟨_, num_numberText small, ?_⟩
  rw [toInt_toInt32, UInt32.toNat_ofNat_of_lt' small, if_pos (by omega)]
  omega

theorem ifaceparams_header {info : RaHeaderInfo} (valid : HeaderValid info) (iface : Interface) :
    ifaceparams iface ((headerTree info).map .ifaceval) = .ok { iface with raHeaderInfo := info } := by
  rcases num_nonneg valid.lifetime_nonneg valid.lifetime_le with ⟨value, read, seconds⟩
  simp [ifaceparams, headerTree, ifaceparam, ifaceval, num_toNat, num_octet, read, seconds,
    snum_preferenceText valid.preference, -bind_pure_comp]

theorem readBack_mtuBlock (advLinkMTU : UInt32) :
    ReadBack order texts (mtuBlock advLinkMTU)
      ([.ifaceval (.advLinkMTU (numberText advLinkMTU.toNat))], []) :=
  ⟨_, _, prints_mtuBlock order advLinkMTU,
    printedAs_settings (.cons (.setting rfl (.number (UInt32.toNat_lt _))) .nil), .nil⟩

theorem readBack_sllaoBlock (sllao : Sllao) :
    ReadBack order texts (sllaoBlock sllao) ([.ifaceval (.advSourceLLAddress true)], []) := by
  have prints : Prints order (sllaoBlock sllao)
      [.setting .advSourceLLAddress (.flag true)] [] := by
    apply prints_of_settings rfl (by decide)
    intro mem visit stored _
    have type := Memory.eq_of_holds_head? stored rfl
    simp only [printOption, type]
    rfl
  exact ⟨_, _, prints, printedAs_settings (.cons (.setting rfl (.flag _)) .nil), .nil⟩

theorem readBack_rtrAdvIntervalBlock (maxRtrAdvInterval : ℚ) :
    ReadBack order texts (rtrAdvIntervalBlock maxRtrAdvInterval)
      ([.ifaceval (.advIntervalOpt true)], []) := by
  have prints : Prints order (rtrAdvIntervalBlock maxRtrAdvInterval)
      [.setting .advIntervalOpt (.flag true)] [] := by
    apply prints_of_settings rfl (by decide)
    intro mem visit stored _
    have type := Memory.eq_of_holds_head? stored rfl
    simp only [printOption, type]
    rfl
  exact ⟨_, _, prints, printedAs_settings (.cons (.setting rfl (.flag _)) .nil), .nil⟩

def homeAgentTree (mipv6 : Mipv6) : List Ifaceval :=
  [.advHomeAgentInfo true, .advMobRtrSupportFlag mipv6.advMobRtrSupportFlag,
    .homeAgentPreference (numberText mipv6.homeAgentPreference.toNat),
    .homeAgentLifetime (numberText mipv6.homeAgentLifetime.toNat)]

theorem readBack_homeAgentInfoBlock {mipv6 : Mipv6} (nonneg : 0 ≤ mipv6.homeAgentLifetime)
    (bound : mipv6.homeAgentLifetime ≤ 65535) :
    ReadBack order texts (homeAgentInfoBlock order mipv6)
      ((homeAgentTree mipv6).map .ifaceval, []) := by
  have preference : mipv6.homeAgentPreference.toNat < 2 ^ 32 :=
    (UInt16.toNat_lt _).trans (by decide)
  exact ⟨_, _, prints_homeAgentInfoBlock order nonneg bound,
    printedAs_settings (.cons (.setting rfl (.flag _)) (.cons (.setting rfl (.flag _))
      (.cons (.setting rfl (.number preference)) (.cons (.setting rfl (.number (by omega)))
        .nil)))), .nil⟩

/-- The URLs that are printed as they are and fit in the buffer of the scanner. -/
structure PlainUrl (url : Bytes) : Prop where
  filled : url ≠ []
  short : url.length ≤ 253
  noNul : ∀ octet ∈ url, octet ≠ 0
  printed : sanitized url = url

theorem PlainUrl.quoted {url : Bytes} (plain : PlainUrl url) : isQuotedText url = true := by
  have inside := sanitized_mem url
  rw [plain.printed] at inside
  exact isQuotedText_iff.mpr inside

theorem readBack_capportBlock {url : Bytes} (plain : PlainUrl url) :
    ReadBack order texts (capportBlock url)
      ([.ifaceval (.advCaptivePortalAPI (.quoted .plain url plain.quoted))], []) := by
  have short : url.length ≤ 255 := plain.short.trans (by decide)
  have prints := prints_capportBlock order plain.noNul short
  rw [plain.printed] at prints
  exact ⟨_, _, prints, printedAs_settings (.cons (.setting rfl (.text plain.quoted)) .nil), .nil⟩

theorem ifaceval_url {url : Bytes} (plain : PlainUrl url) (iface : Interface) :
    ifaceval iface (.advCaptivePortalAPI (.quoted .plain url plain.quoted)) =
      .ok { iface with advCaptivePortalAPI := some url } := by
  have trimmed : trimQuotes (StringText.quoted .plain url plain.quoted).str = url := by
    apply (trimQuotes_str_eq_iff (.quoted .plain url plain.quoted)).mpr
    exact ⟨rfl, fun inside => plain.noNul 0 inside rfl, .inl plain.short⟩
  simp [ifaceval, trimmed, plain.filled, -bind_pure_comp]

end

end Radvd.Dump
