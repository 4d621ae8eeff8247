import Radvd.Send.Messages

/-!
# The 64 KiB limit of the buffers

Two buffers can reach the limit at which `safe_buffer_resize` ends the program:
the scratch buffer in which the domain names of a DNSSL block are serialised
before the block is found too long, and the buffer of a message if the MTU
allows messages of more than 64 KiB.

`survives_iff` says exactly which configurations stay clear of it, in terms of
the lengths of the configured suffixes and lists alone.
-/

namespace Radvd

open Wire SafeBufferList Packing

/-! ## Sizes computed from the configuration -/

/-- The octets of a suffix on the wire: a length for every dot, one more in front
and a terminator, which takes the place of a trailing dot. -/
def suffixSize (suffix : Bytes) : Nat :=
  suffix.length + if suffix.getLast? = some dot then 1 else 2

def suffixesSize (dnssl : AdvDNSSL) : Nat :=
  (dnssl.advDNSSLSuffixes.map suffixSize).sum

def dnsslSize (dnssl : AdvDNSSL) : Nat :=
  (8 + suffixesSize dnssl + 7) / 8 * 8

/-- The sizes of the options of the five lists; options of more than 2040 octets
are left out. -/
def listSizes (kernel : Kernel) (iface : Interface) : List Nat :=
  List.replicate (iface.advPrefixList.flatMap (advertisedPrefixes kernel iface)).length 32 ++
    (List.replicate iface.nat64PrefixList.length 16 ++
      (iface.advRouteList.map (fun route => (routeLen route.prefixLen).toNat * 8) ++
        ((iface.advRDNSSList.map rdnssBytes).filter (· ≤ 2040) ++
          (iface.advDNSSLList.map dnsslSize).filter (· ≤ 2040))))

def tailSizes (iface : Interface) : List Nat :=
  (if iface.advLinkMTU ≠ 0 then [8] else []) ++
    ((if iface.advSourceLLAddress && iface.sllao.ifHwaddrLen > 0 then [sllaoLen iface.sllao * 8]
        else []) ++
      ((if iface.mipv6.advIntervalOpt then [8] else []) ++
        ((if sendsHomeAgentInfo iface then [8] else []) ++
          ((iface.advLowpanCoList.head?.map fun _ => 24).toList ++
            ((iface.advAbroList.head?.map fun _ => 24).toList ++
              (iface.advCaptivePortalAPI.map fun url => capportLen url * 8).toList)))))

def optionSizes (kernel : Kernel) (iface : Interface) : List Nat :=
  (if listSizes kernel iface = [] then [0] else listSizes kernel iface) ++ tailSizes iface

theorem length_encodeNames {suffixes : List Bytes}
    (parsed : ∀ suffix ∈ suffixes, suffix ≠ [] ∧ suffix.length ≤ 255) :
    (encodeNames suffixes).length = (suffixes.map suffixSize).sum := by
  induction suffixes with
  | nil => rfl
  | cons suffix rest ih =>
      have here := parsed suffix (by simp)
      have later := ih fun other otherMem => parsed other (by simp [otherMem])
      rw [encodeNames] at later ⊢
      rw [List.flatMap_cons, List.length_append, later, length_encodeName here.1 here.2,
        List.map_cons, List.sum_cons, suffixSize]

theorem dnsslBytes_eq {dnssl : AdvDNSSL} (parsed : dnssl.Parsed) :
    dnsslBytes dnssl = suffixesSize dnssl :=
  length_encodeNames parsed

theorem lengths_dnsslBlocks {list : List AdvDNSSL} (parsed : ∀ dnssl ∈ list, dnssl.Parsed)
    (ceaseAdv : Bool) :
    (dnsslBlocks ceaseAdv list).map List.length = (list.map dnsslSize).filter (· ≤ 2040) := by
  induction list with
  | nil => rfl
  | cons dnssl rest ih =>
      have bytes := dnsslBytes_eq (parsed dnssl (by simp))
      have later := ih fun other otherMem => parsed other (by simp [otherMem])
      have length := length_dnsslBlock dnssl ceaseAdv
      rw [bytes, dnsslLen] at length
      rw [dnsslBlocks] at later ⊢
      by_cases long : dnsslLen (dnsslBytes dnssl) ≤ 255
      · have short : dnsslSize dnssl ≤ 2040 := by
          rw [bytes, dnsslLen] at long
          rw [dnsslSize]
          omega
        rw [List.filter_cons_of_pos (by simpa using long), List.map_cons, List.map_cons, later,
          List.map_cons, List.filter_cons_of_pos (by simpa using short), length, dnsslSize]
      · have exceeds : ¬dnsslSize dnssl ≤ 2040 := by
          rw [bytes, dnsslLen] at long
          rw [dnsslSize]
          omega
        rw [List.filter_cons_of_neg (by simpa using long), later, List.map_cons,
          List.filter_cons_of_neg (by simpa using exceeds)]

theorem lengths_rdnssBlocks (list : List AdvRDNSS) (ceaseAdv : Bool) :
    (rdnssBlocks ceaseAdv list).map List.length = (list.map rdnssBytes).filter (· ≤ 2040) := by
  induction list with
  | nil => rfl
  | cons rdnss rest ih =>
      have length := length_rdnssBlock rdnss ceaseAdv
      have whole : rdnssBytes rdnss / 8 ≤ 255 ↔ rdnssBytes rdnss ≤ 2040 := by
        rw [rdnssBytes]
        omega
      rw [rdnssBlocks] at ih ⊢
      by_cases short : rdnssBytes rdnss ≤ 2040
      · rw [List.filter_cons_of_pos (by simpa using whole.mpr short), List.map_cons,
          List.map_cons, ih, List.map_cons, List.filter_cons_of_pos (by simpa using short), length]
      · rw [List.filter_cons_of_neg (by simpa using mt whole.mp short), ih, List.map_cons,
          List.filter_cons_of_neg (by simpa using short)]

theorem lengths_listBlocks (kernel : Kernel) {iface : Interface} (parsed : iface.Parsed) :
    (listBlocks kernel iface).map List.length = listSizes kernel iface := by
  have prefixes : (prefixBlocks kernel iface iface.stateInfo.ceaseAdv iface.advPrefixList).map
      List.length =
      List.replicate (iface.advPrefixList.flatMap (advertisedPrefixes kernel iface)).length 32 := by
    rw [prefixBlocks, List.map_map]
    apply List.map_eq_replicate_iff.mpr
    intro entry _
    exact length_prefixBlock entry _
  have nat64 : (iface.nat64PrefixList.map nat64prefixBlock).map List.length =
      List.replicate iface.nat64PrefixList.length 16 := by
    rw [List.map_map]
    apply List.map_eq_replicate_iff.mpr
    intro entry _
    exact length_nat64prefixBlock entry
  have routes : (iface.advRouteList.map (routeBlock · iface.stateInfo.ceaseAdv)).map List.length =
      iface.advRouteList.map fun route => (routeLen route.prefixLen).toNat * 8 := by
    rw [List.map_map]
    apply List.map_congr_left
    intro route _
    exact length_routeBlock route _
  simp only [listBlocks, listSizes, List.map_append, prefixes, nat64, routes,
    lengths_rdnssBlocks, lengths_dnsslBlocks parsed.dnssl_parsed]

theorem lengths_tailBlocks (order : ByteOrder) {iface : Interface} (parsed : iface.Parsed) :
    (tailBlocks order iface).map List.length = tailSizes iface := by
  have sllao := length_sllaoBlock parsed.hwaddr_le
  simp only [tailBlocks, tailSizes, List.map_append, apply_ite (List.map List.length),
    List.map_cons, List.map_nil, length_mtuBlock, length_rtrAdvIntervalBlock,
    length_homeAgentInfoBlock, sllao, ← Option.toList_map, Option.map_map]
  simp only [Function.comp_def, length_lowpancoBlock, length_abroBlock, length_capportBlock]

def raBlocks (order : ByteOrder) (kernel : Kernel) (iface : Interface) : List Bytes :=
  (if listBlocks kernel iface = [] then [[]] else listBlocks kernel iface) ++
    tailBlocks order iface

theorem lengths_raBlocks (order : ByteOrder) (kernel : Kernel) {iface : Interface}
    (parsed : iface.Parsed) :
    (raBlocks order kernel iface).map List.length = optionSizes kernel iface := by
  have lists := lengths_listBlocks kernel parsed
  have empty : listBlocks kernel iface = [] ↔ listSizes kernel iface = [] := by
    rw [← lists, List.map_eq_nil_iff]
  rw [raBlocks, optionSizes, List.map_append, lengths_tailBlocks order parsed]
  by_cases none : listBlocks kernel iface = []
  · simp [none, empty.mp none]
  · rw [if_neg none, if_neg (mt empty.mpr none), lists]

/-! ## The line between success and the exit -/

/-- An RA can be built and sent: every option of the configuration is in the
list, too long DNSSL blocks aside, and no send ends the program. -/
def Survives (order : ByteOrder) (kernel : Kernel) (iface : Interface) (dest : In6Addr)
    (raHdr : Bytes) (maxRaOptionSize : Nat) : Prop :=
  ∃ sbl, buildRaOptions order kernel iface dest = .ok sbl ∧
    sbl.blocks = raBlocks order kernel iface ∧
    ∀ (reallySend : Nat → Bool) (exit : Exit),
      (sendOptions raHdr maxRaOptionSize reallySend sbl.blocks).status ≠ .exited exit

theorem dnsslFits_iff {iface : Interface} (parsed : iface.Parsed) :
    iface.DnsslFits ↔ ∀ dnssl ∈ iface.advDNSSLList, suffixesSize dnssl + 7 ≤ 64 * 1024 := by
  apply forall₂_congr
  intro dnssl dnsslMem
  rw [AdvDNSSL.Fits, dnsslBytes_eq (parsed.dnssl_parsed dnssl dnsslMem)]

theorem status_sendBins_ne_exited {raHdr : Bytes} {reallySend : Nat → Bool} {index : Nat}
    {bins : List (List Bytes)} (fits : ∀ run ∈ bins, (message raHdr run).length ≤ 64 * 1024)
    (exit : Exit) : (sendBins raHdr reallySend index bins).status ≠ .exited exit := by
  induction bins generalizing index with
  | nil => simp [sendBins]
  | cons run rest ih =>
      have fitsHere := fits run (by simp)
      rw [sendBins, if_neg (by omega)]
      split
      · simp
      · apply ih
        intro other otherMem
        exact fits other (by simp [otherMem])

theorem status_sendOptions_ne_exited_iff (info : RaHeaderInfo) (ceaseAdv : Bool)
    (maxRaOptionSize : Nat) (sbl : SafeBufferList) :
    (∀ (reallySend : Nat → Bool) (exit : Exit),
      (sendOptions (raHeaderBlock info ceaseAdv) maxRaOptionSize reallySend sbl.blocks).status ≠
        .exited exit) ↔
      FitsBuffer maxRaOptionSize (sbl.blocks.map List.length) := by
  simp only [sendOptions_blocks]
  constructor
  · intro survives
    by_contra exceeds
    rw [fitsBuffer_map_length] at exceeds
    push Not at exceeds
    rcases exceeds with ⟨run, runMem, tooLong⟩
    apply survives (fun _ => true) .safeBufferResize
    apply sendBins_exited _ (fun _ => rfl)
    exact ⟨run, runMem, by rw [length_message]; exact tooLong⟩
  · intro fits reallySend exit
    rw [fitsBuffer_map_length] at fits
    apply status_sendBins_ne_exited _ exit
    intro run runMem
    rw [length_message]
    exact fits run runMem

/-- The configurations for which building and sending an RA never ends the
program: the suffixes of no DNSSL block take more than 65529 octets, and no
greedy group of options outgrows the buffer of a message. -/
theorem survives_iff (order : ByteOrder) (kernel : Kernel) {iface : Interface} (dest : In6Addr)
    (info : RaHeaderInfo) (ceaseAdv : Bool) (maxRaOptionSize : Nat) (parsed : iface.Parsed) :
    Survives order kernel iface dest (raHeaderBlock info ceaseAdv) maxRaOptionSize ↔
      (∀ dnssl ∈ iface.advDNSSLList, suffixesSize dnssl + 7 ≤ 64 * 1024) ∧
        FitsBuffer maxRaOptionSize (optionSizes kernel iface) := by
  rw [← dnsslFits_iff parsed, ← lengths_raBlocks order kernel parsed]
  constructor
  · rintro ⟨sbl, built, blocks, survives⟩
    refine ⟨?_, ?_⟩
    · by_contra exceeds
      rw [buildRaOptions_error order kernel dest parsed exceeds] at built
      cases built
    · rw [← blocks]
      exact (status_sendOptions_ne_exited_iff info ceaseAdv maxRaOptionSize sbl).mp survives
  · rintro ⟨dnsslFits, fits⟩
    rcases buildRaOptions_ok order kernel dest parsed dnsslFits with ⟨sbl, built, -⟩
    have blocks : sbl.blocks = raBlocks order kernel iface := blocks_of_buildRaOptions parsed built
    rw [← blocks] at fits
    exact ⟨sbl, built, blocks,
      (status_sendOptions_ne_exited_iff info ceaseAdv maxRaOptionSize sbl).mpr fits⟩

theorem survives_iff_advertising :
    Survives .littleEndian Kernel.silent (advertising 3) In6Addr.unspecified
        (raHeaderBlock (advertising 3).raHeaderInfo false) 1202 ↔
      (∀ dnssl ∈ (advertising 3).advDNSSLList, suffixesSize dnssl + 7 ≤ 64 * 1024) ∧
        FitsBuffer 1202 (optionSizes Kernel.silent (advertising 3)) :=
  survives_iff .littleEndian Kernel.silent In6Addr.unspecified _ false 1202 (parsed_advertising 3)

def searching (count length : Nat) : Interface :=
  { ifaceInitDefaults with
    advSendAdvert := true
    advDNSSLList :=
      [{ advDNSSLLifetime := 1800
         flushDNSSLFlag := true
         advDNSSLSuffixes := List.replicate count (List.replicate length 97) }] }

theorem parsed_searching {count length : Nat} (positive : 0 < length) (bound : length ≤ 255) :
    (searching count length).Parsed where
  route_prefixLen := by simp [searching, ifaceInitDefaults]
  dnssl_parsed := by
    simp only [searching, List.mem_singleton, forall_eq, AdvDNSSL.Parsed]
    intro suffix suffixMem
    rw [List.eq_of_mem_replicate suffixMem]
    simp
    omega
  hwaddr_le := by simp [searching, ifaceInitDefaults]
  capport_length := by simp [searching, ifaceInitDefaults]

theorem dnsslFits_searching {count length : Nat} (positive : 0 < length) (bound : length ≤ 255) :
    (searching count length).DnsslFits ↔ count * (length + 2) + 7 ≤ 64 * 1024 := by
  have notDot : (List.replicate length (97 : UInt8)).getLast? ≠ some dot := by
    intro last
    have := List.eq_of_mem_replicate (List.mem_of_getLast? last)
    exact absurd this (by decide)
  rw [dnsslFits_iff (parsed_searching positive bound)]
  simp only [searching, List.mem_singleton, forall_eq, suffixesSize, List.map_replicate,
    suffixSize, notDot, if_false, List.length_replicate, List.sum_replicate_nat]

/-- A DNSSL block of 257 suffixes of 255 characters is not skipped: it ends the
program. -/
theorem not_survives_searching :
    (searching 257 255).Parsed ∧
      ¬Survives .littleEndian Kernel.silent (searching 257 255) In6Addr.unspecified
        (raHeaderBlock (searching 257 255).raHeaderInfo false) 1202 := by
  have parsed : (searching 257 255).Parsed := parsed_searching (by omega) (by omega)
  refine ⟨parsed, ?_⟩
  rintro ⟨sbl, built, -⟩
  have exceeds : ¬(searching 257 255).DnsslFits := by
    rw [dnsslFits_searching (by omega) (by omega)]
    omega
  rw [buildRaOptions_error .littleEndian Kernel.silent In6Addr.unspecified parsed exceeds] at built
  cases built

end Radvd
