import Radvd.Send.DomainNames
import Radvd.Send.Prefixes

/-!
# `build_ra_options`

The option lists of an interface and the single options after them, as
`build_ra_options` chains them into a list of blocks.

The loops are embedded as the source writes them and then described by the
blocks they emit: `listBlocks` for the five lists, which share the empty head of
the chain, and `tailBlocks` for the options that always open a block of their
own. `buildRaOptions_ok` puts the two together; it only fails where a DNSSL
block outgrows the scratch buffer (`buildRaOptions_error`).
-/

namespace Radvd

open Wire SafeBuffer SafeBufferList

/-! ## NAT64 prefixes and routes -/

def addRaOptionsNat64Prefix (sbl : SafeBufferList) :
    List NAT64Prefix → Except Exit SafeBufferList
  | [] => pure sbl
  | entry :: rest => do
      let sbl ← sbl.append.write (addRaOptionNat64Prefix · entry)
      addRaOptionsNat64Prefix sbl rest

def scheduleOptionRoute (dest : In6Addr) (iface : Interface) (route : AdvRoute) : Bool :=
  scheduleHelper dest iface route.advRouteLifetime.toInt32

def addRaOptionsRoute (iface : Interface) (ceaseAdv : Bool) (dest : In6Addr)
    (sbl : SafeBufferList) : List AdvRoute → Except Exit SafeBufferList
  | [] => pure sbl
  | route :: rest =>
      if !ceaseAdv && !scheduleOptionRoute dest iface route then
        addRaOptionsRoute iface ceaseAdv dest sbl rest
      else do
        let sbl ← sbl.append.write (·.append (routeBlock route ceaseAdv))
        addRaOptionsRoute iface ceaseAdv dest sbl rest

theorem writes_addRaOptionsNat64Prefix (entries : List NAT64Prefix) :
    Writes (addRaOptionsNat64Prefix · entries) (entries.map nat64prefixBlock) := by
  induction entries with
  | nil => exact writes_pure
  | cons entry rest ih => exact (writes_append_write (appends_append _) (by simp)).bind ih

theorem length_routeBlock_le (route : AdvRoute) (ceaseAdv : Bool) :
    (routeBlock route ceaseAdv).length ≤ 24 := by
  simp [routeBlock, routeInfo]

theorem writes_addRaOptionsRoute (iface : Interface) (ceaseAdv : Bool) (dest : In6Addr)
    (routes : List AdvRoute) :
    Writes (addRaOptionsRoute iface ceaseAdv dest · routes)
      (routes.map (routeBlock · ceaseAdv)) := by
  induction routes with
  | nil => exact writes_pure
  | cons route rest ih =>
      have bound := length_routeBlock_le route ceaseAdv
      simp only [addRaOptionsRoute, scheduleOptionRoute, scheduleHelper, Bool.not_true,
        Bool.and_false, Bool.false_eq_true, if_false]
      exact (writes_append_write (appends_append _) (by omega)).bind ih

/-! ## DNS servers and search lists -/

def scheduleOptionRdnss (dest : In6Addr) (iface : Interface) (rdnss : AdvRDNSS) : Bool :=
  scheduleHelper dest iface rdnss.advRDNSSLifetime.toInt32

/-- The writes for one RDNSS block, with the reservation for all of it. -/
def addRdnss (sb : SafeBuffer) (rdnss : AdvRDNSS) (ceaseAdv : Bool) :
    Except Exit SafeBuffer := do
  let sb ← sb.resize (sb.used + rdnssBytes rdnss)
  let sb ← sb.append (rdnssInfo rdnss ceaseAdv)
  addRdnssAddrs sb rdnss.advRDNSSAddr

def addRaOptionsRdnss (iface : Interface) (ceaseAdv : Bool) (dest : In6Addr)
    (sbl : SafeBufferList) : List AdvRDNSS → Except Exit SafeBufferList
  | [] => pure sbl
  | rdnss :: rest =>
      if !ceaseAdv && !scheduleOptionRdnss dest iface rdnss then
        addRaOptionsRdnss iface ceaseAdv dest sbl rest
      else if rdnssBytes rdnss / 8 > 255 then
        addRaOptionsRdnss iface ceaseAdv dest sbl rest
      else do
        let sbl ← sbl.append.write (addRdnss · rdnss ceaseAdv)
        addRaOptionsRdnss iface ceaseAdv dest sbl rest

/-- The RDNSS options of an interface: blocks that are too long are left out. -/
def rdnssBlocks (ceaseAdv : Bool) (list : List AdvRDNSS) : List Bytes :=
  (list.filter fun rdnss => rdnssBytes rdnss / 8 ≤ 255).map (rdnssBlock · ceaseAdv)

theorem appends_addRdnss (rdnss : AdvRDNSS) (ceaseAdv : Bool) :
    Appends (addRdnss · rdnss ceaseAdv) (rdnssBlock rdnss ceaseAdv) := by
  have reserve : rdnssBytes rdnss ≤ (rdnssBlock rdnss ceaseAdv).length :=
    (length_rdnssBlock rdnss ceaseAdv).ge
  exact ((appends_append _).bind (appends_addRdnssAddrs _)).resize_bind reserve

theorem writes_addRaOptionsRdnss (iface : Interface) (ceaseAdv : Bool) (dest : In6Addr)
    (list : List AdvRDNSS) :
    Writes (addRaOptionsRdnss iface ceaseAdv dest · list) (rdnssBlocks ceaseAdv list) := by
  induction list with
  | nil => exact writes_pure
  | cons rdnss rest ih =>
      have length := length_rdnssBlock rdnss ceaseAdv
      simp only [addRaOptionsRdnss, scheduleOptionRdnss, scheduleHelper, Bool.not_true,
        Bool.and_false, Bool.false_eq_true, if_false, rdnssBlocks]
      by_cases long : rdnssBytes rdnss / 8 > 255
      · rw [List.filter_cons_of_neg (by simpa using long)]
        simp only [long, if_true]
        exact ih
      · rw [List.filter_cons_of_pos (by simpa using long)]
        simp only [long, if_false]
        exact (writes_append_write (appends_addRdnss rdnss ceaseAdv) (by omega)).bind ih

def scheduleOptionDnssl (dest : In6Addr) (iface : Interface) (dnssl : AdvDNSSL) : Bool :=
  scheduleHelper dest iface dnssl.advDNSSLLifetime.toInt32

def dnsslLen (domainNameBytes : Nat) : Nat :=
  (8 + domainNameBytes + 7) / 8

def dnsslPadding (domainNameBytes : Nat) : Nat :=
  dnsslLen domainNameBytes * 8 - (8 + domainNameBytes)

def dnsslInfo (dnssl : AdvDNSSL) (domainNameBytes : Nat) (ceaseAdv : Bool) : Bytes :=
  [ndOptDnsslInformation, UInt8.ofNat (dnsslLen domainNameBytes)] ++ be16 0 ++
    be32 (if ceaseAdv && dnssl.flushDNSSLFlag then 0 else dnssl.advDNSSLLifetime)

def addDnssl (sb : SafeBuffer) (dnssl : AdvDNSSL) (domainNameBytes : Nat)
    (serializedDomains : Bytes) (ceaseAdv : Bool) : Except Exit SafeBuffer := do
  let sb ← sb.resize (sb.used + (8 + domainNameBytes + dnsslPadding domainNameBytes))
  let sb ← sb.append (dnsslInfo dnssl domainNameBytes ceaseAdv)
  let sb ← sb.append serializedDomains
  sb.pad (dnsslPadding domainNameBytes)

/-- `add_ra_options_dnssl`, with the scratch buffer that is kept from block to
block. -/
def addRaOptionsDnssl (iface : Interface) (ceaseAdv : Bool) (dest : In6Addr)
    (serializedDomains : SafeBuffer) (sbl : SafeBufferList) :
    List AdvDNSSL → Except Exit SafeBufferList
  | [] => pure sbl
  | dnssl :: rest =>
      if !ceaseAdv && !scheduleOptionDnssl dest iface dnssl then
        addRaOptionsDnssl iface ceaseAdv dest serializedDomains sbl rest
      else do
        let (serializedDomains, domainNameBytes) ←
          serializeDomainNames serializedDomains.clear dnssl
        if dnsslLen domainNameBytes > 255 then
          addRaOptionsDnssl iface ceaseAdv dest serializedDomains sbl rest
        else
          let sbl ← sbl.append.write
            (addDnssl · dnssl domainNameBytes serializedDomains.bytes ceaseAdv)
          addRaOptionsDnssl iface ceaseAdv dest serializedDomains sbl rest

def dnsslBytes (dnssl : AdvDNSSL) : Nat :=
  (encodeNames dnssl.advDNSSLSuffixes).length

def dnsslBlock (dnssl : AdvDNSSL) (ceaseAdv : Bool) : Bytes :=
  dnsslInfo dnssl (dnsslBytes dnssl) ceaseAdv ++
    (encodeNames dnssl.advDNSSLSuffixes ++ List.replicate (dnsslPadding (dnsslBytes dnssl)) 0)

def dnsslBlocks (ceaseAdv : Bool) (list : List AdvDNSSL) : List Bytes :=
  (list.filter fun dnssl => dnsslLen (dnsslBytes dnssl) ≤ 255).map (dnsslBlock · ceaseAdv)

theorem length_dnsslBlock (dnssl : AdvDNSSL) (ceaseAdv : Bool) :
    (dnsslBlock dnssl ceaseAdv).length = dnsslLen (dnsslBytes dnssl) * 8 := by
  simp only [dnsslBlock, List.length_append, List.length_replicate, dnsslInfo, dnsslPadding,
    dnsslLen, List.length_cons, List.length_nil, length_be16, length_be32, dnsslBytes]
  omega

theorem appends_addDnssl (dnssl : AdvDNSSL) (ceaseAdv : Bool) :
    Appends (addDnssl · dnssl (dnsslBytes dnssl) (encodeNames dnssl.advDNSSLSuffixes) ceaseAdv)
      (dnsslBlock dnssl ceaseAdv) := by
  have reserve : 8 + dnsslBytes dnssl + dnsslPadding (dnsslBytes dnssl) ≤
      (dnsslBlock dnssl ceaseAdv).length := by
    rw [length_dnsslBlock, dnsslPadding, dnsslLen]
    omega
  exact ((appends_append _).bind ((appends_append _).bind (appends_pad _))).resize_bind reserve

/-- What the parser leaves in a DNSSL block: suffixes of 1 to 255 characters. -/
def AdvDNSSL.Parsed (dnssl : AdvDNSSL) : Prop :=
  ∀ suffix ∈ dnssl.advDNSSLSuffixes, suffix ≠ [] ∧ suffix.length ≤ 255

/-- The domain names fit in the scratch buffer with seven octets to spare. -/
def AdvDNSSL.Fits (dnssl : AdvDNSSL) : Prop :=
  dnsslBytes dnssl + 7 ≤ 64 * 1024

theorem serializeDomainNames_ok (sb : SafeBuffer) {dnssl : AdvDNSSL} (parsed : dnssl.Parsed)
    (fits : dnssl.Fits) :
    ∃ sb', serializeDomainNames sb.clear dnssl = .ok (sb', dnsslBytes dnssl) ∧
      sb'.bytes = encodeNames dnssl.advDNSSLSuffixes := by
  have room : sb.clear.used + (encodeNames dnssl.advDNSSLSuffixes).length + 7 ≤ 64 * 1024 := by
    rw [used, bytes_clear, List.length_nil, Nat.zero_add]
    exact fits
  have bound : ∀ suffix ∈ dnssl.advDNSSLSuffixes, suffix.length ≤ 255 :=
    fun suffix suffixMem => (parsed suffix suffixMem).2
  rcases serializeNames_ok sb.clear 0 bound room with ⟨last, lastEq, lastBytes⟩
  rw [Nat.zero_add] at lastEq
  exact ⟨last, lastEq, by simpa using lastBytes⟩

theorem serializeDomainNames_error (sb : SafeBuffer) {dnssl : AdvDNSSL} (parsed : dnssl.Parsed)
    (exceeds : ¬dnssl.Fits) :
    serializeDomainNames sb.clear dnssl = .error .safeBufferResize := by
  have room : sb.clear.used = 0 := rfl
  simp only [AdvDNSSL.Fits, dnsslBytes] at exceeds
  exact serializeNames_error (fun suffix suffixMem => (parsed suffix suffixMem).1)
    (fun suffix suffixMem => (parsed suffix suffixMem).2) (by omega) (by omega)

section

variable {iface : Interface} {ceaseAdv : Bool} {dest : In6Addr}

theorem addRaOptionsDnssl_cons {serializedDomains scratch : SafeBuffer} {domainNameBytes : Nat}
    {dnssl : AdvDNSSL}
    (done : serializeDomainNames serializedDomains.clear dnssl = .ok (scratch, domainNameBytes))
    (sbl : SafeBufferList) (rest : List AdvDNSSL) :
    addRaOptionsDnssl iface ceaseAdv dest serializedDomains sbl (dnssl :: rest) =
      if dnsslLen domainNameBytes > 255 then
        addRaOptionsDnssl iface ceaseAdv dest scratch sbl rest
      else
        sbl.append.write (addDnssl · dnssl domainNameBytes scratch.bytes ceaseAdv) >>=
          (addRaOptionsDnssl iface ceaseAdv dest scratch · rest) := by
  simp only [addRaOptionsDnssl, scheduleOptionDnssl, scheduleHelper, Bool.not_true,
    Bool.and_false, Bool.false_eq_true, if_false, done]
  rfl

theorem writes_addRaOptionsDnssl (serializedDomains : SafeBuffer) {list : List AdvDNSSL}
    (parsed : ∀ dnssl ∈ list, dnssl.Parsed) (fits : ∀ dnssl ∈ list, dnssl.Fits) :
    Writes (addRaOptionsDnssl iface ceaseAdv dest serializedDomains · list)
      (dnsslBlocks ceaseAdv list) := by
  induction list generalizing serializedDomains with
  | nil => exact writes_pure
  | cons dnssl rest ih =>
      have length := length_dnsslBlock dnssl ceaseAdv
      rcases serializeDomainNames_ok serializedDomains (parsed dnssl (by simp))
        (fits dnssl (by simp)) with ⟨scratch, scratchEq, scratchBytes⟩
      have next := ih scratch (fun other otherMem => parsed other (by simp [otherMem]))
        (fun other otherMem => fits other (by simp [otherMem]))
      simp only [addRaOptionsDnssl_cons scratchEq, dnsslBlocks]
      by_cases long : dnsslLen (dnsslBytes dnssl) > 255
      · rw [List.filter_cons_of_neg (by simpa using long)]
        simp only [long, if_true]
        exact next
      · rw [List.filter_cons_of_pos (by simpa using long)]
        simp only [long, if_false, scratchBytes]
        exact (writes_append_write (appends_addDnssl dnssl ceaseAdv) (by omega)).bind next

theorem addRaOptionsDnssl_error (serializedDomains : SafeBuffer) (sbl : SafeBufferList)
    {list : List AdvDNSSL} (parsed : ∀ dnssl ∈ list, dnssl.Parsed)
    (exceeds : ¬∀ dnssl ∈ list, dnssl.Fits) :
    addRaOptionsDnssl iface ceaseAdv dest serializedDomains sbl list =
      .error .safeBufferResize := by
  induction list generalizing serializedDomains sbl with
  | nil => simp at exceeds
  | cons dnssl rest ih =>
      have parsedRest : ∀ other ∈ rest, other.Parsed :=
        fun other otherMem => parsed other (by simp [otherMem])
      by_cases fitsHere : dnssl.Fits
      · have overRest : ¬∀ other ∈ rest, other.Fits := by
          intro fitsRest
          apply exceeds
          simpa using ⟨fitsHere, fitsRest⟩
        have length := length_dnsslBlock dnssl ceaseAdv
        rcases serializeDomainNames_ok serializedDomains (parsed dnssl (by simp)) fitsHere with
          ⟨scratch, scratchEq, scratchBytes⟩
        rw [addRaOptionsDnssl_cons scratchEq]
        by_cases long : dnsslLen (dnsslBytes dnssl) > 255
        · rw [if_pos long]
          exact ih scratch sbl parsedRest overRest
        · rcases writes_append_write (appends_addDnssl dnssl ceaseAdv) (by omega) sbl with
            ⟨sbl', sblEq, -⟩
          beta_reduce at sblEq
          rw [if_neg long, scratchBytes, sblEq]
          exact ih scratch sbl' parsedRest overRest
      · have failed :=
          serializeDomainNames_error serializedDomains (parsed dnssl (by simp)) fitsHere
        simp only [addRaOptionsDnssl, scheduleOptionDnssl, scheduleHelper, Bool.not_true,
          Bool.and_false, Bool.false_eq_true, if_false, failed]
        rfl

end

/-! ## The whole list -/

def scheduleOptionMtu (dest : In6Addr) (iface : Interface) : Bool :=
  scheduleHelper dest iface (Int32.ofInt iface.raHeaderInfo.advDefaultLifetime)

def scheduleOptionSllao (dest : In6Addr) (iface : Interface) : Bool :=
  scheduleHelper dest iface (Int32.ofInt iface.raHeaderInfo.advDefaultLifetime)

def scheduleOptionMipv6RtrAdvInterval (dest : In6Addr) (iface : Interface) : Bool :=
  scheduleHelper dest iface (Int32.ofInt iface.raHeaderInfo.advDefaultLifetime)

def scheduleOptionMipv6HomeAgentInfo (dest : In6Addr) (iface : Interface) : Bool :=
  scheduleHelper dest iface (Int32.ofInt iface.mipv6.homeAgentLifetime)

def scheduleOptionLowpanco (dest : In6Addr) (iface : Interface) (lowpanco : AdvLowpanCo) : Bool :=
  scheduleHelper dest iface lowpanco.advLifeTime.toUInt32.toInt32

def scheduleOptionAbro (dest : In6Addr) (iface : Interface) (abro : AdvAbro) : Bool :=
  scheduleHelper dest iface abro.validLifeTime.toUInt32.toInt32

def scheduleOptionCapport (dest : In6Addr) (iface : Interface) : Bool :=
  scheduleHelper dest iface (Int32.ofInt iface.raHeaderInfo.advDefaultLifetime)

/-- The condition on the Home Agent Information option. -/
def sendsHomeAgentInfo (iface : Interface) : Bool :=
  iface.mipv6.advHomeAgentInfo &&
    (iface.mipv6.advMobRtrSupportFlag || iface.mipv6.homeAgentPreference ≠ 0 ||
      iface.mipv6.homeAgentLifetime ≠ iface.raHeaderInfo.advDefaultLifetime)

/-- Link in a new block at the tail and let `f` fill it. -/
def addTail (condition : Bool) (f : SafeBuffer → Except Exit SafeBuffer)
    (sbl : SafeBufferList) : Except Exit SafeBufferList :=
  sbl.addIf condition fun sbl => sbl.next.write f

def addTailOf {α : Type} (head : Option α) (condition : α → Bool)
    (f : α → SafeBuffer → Except Exit SafeBuffer) (sbl : SafeBufferList) :
    Except Exit SafeBufferList :=
  match head with
  | none => pure sbl
  | some value => addTail (condition value) (f value) sbl

/-- The five lists of `build_ra_options`. -/
def buildRaOptionLists (kernel : Kernel) (iface : Interface) (dest : In6Addr)
    (cur : SafeBufferList) : Except Exit SafeBufferList := do
  let cur ← addRaOptionsPrefix kernel iface iface.stateInfo.ceaseAdv dest cur iface.advPrefixList
  let cur ← addRaOptionsNat64Prefix cur iface.nat64PrefixList
  let cur ← addRaOptionsRoute iface iface.stateInfo.ceaseAdv dest cur iface.advRouteList
  let cur ← addRaOptionsRdnss iface iface.stateInfo.ceaseAdv dest cur iface.advRDNSSList
  addRaOptionsDnssl iface iface.stateInfo.ceaseAdv dest SafeBuffer.new cur iface.advDNSSLList

def buildRaOptionTail (order : ByteOrder) (iface : Interface) (dest : In6Addr)
    (cur : SafeBufferList) : Except Exit SafeBufferList := do
  let cur ← cur |> addTail (iface.advLinkMTU ≠ 0 && scheduleOptionMtu dest iface)
    (addRaOptionMtu · iface.advLinkMTU)
  let cur ← cur |> addTail (iface.advSourceLLAddress && iface.sllao.ifHwaddrLen > 0 &&
    scheduleOptionSllao dest iface) (addRaOptionSllao · iface.sllao)
  let cur ← cur |> addTail (iface.mipv6.advIntervalOpt &&
    scheduleOptionMipv6RtrAdvInterval dest iface)
    (addRaOptionMipv6RtrAdvInterval · iface.maxRtrAdvInterval)
  let cur ← cur |> addTail (sendsHomeAgentInfo iface &&
    scheduleOptionMipv6HomeAgentInfo dest iface)
    (addRaOptionMipv6HomeAgentInfo order · iface.mipv6)
  let cur ← cur |> addTailOf iface.advLowpanCoList.head? (scheduleOptionLowpanco dest iface)
    (fun lowpanco sb => addRaOptionLowpanco sb lowpanco)
  let cur ← cur |> addTailOf iface.advAbroList.head? (scheduleOptionAbro dest iface)
    (fun abro sb => addRaOptionAbro sb abro)
  cur |> addTailOf iface.advCaptivePortalAPI (fun _ => scheduleOptionCapport dest iface)
    (fun url sb => addRaOptionCapport sb url)

def buildRaOptions (order : ByteOrder) (kernel : Kernel) (iface : Interface) (dest : In6Addr) :
    Except Exit SafeBufferList := do
  let cur ← buildRaOptionLists kernel iface dest SafeBufferList.new
  buildRaOptionTail order iface dest cur

def listBlocks (kernel : Kernel) (iface : Interface) : List Bytes :=
  prefixBlocks kernel iface iface.stateInfo.ceaseAdv iface.advPrefixList ++
    (iface.nat64PrefixList.map nat64prefixBlock ++
      (iface.advRouteList.map (routeBlock · iface.stateInfo.ceaseAdv) ++
        (rdnssBlocks iface.stateInfo.ceaseAdv iface.advRDNSSList ++
          dnsslBlocks iface.stateInfo.ceaseAdv iface.advDNSSLList)))

def tailBlocks (order : ByteOrder) (iface : Interface) : List Bytes :=
  (if iface.advLinkMTU ≠ 0 then [mtuBlock iface.advLinkMTU] else []) ++
    ((if iface.advSourceLLAddress && iface.sllao.ifHwaddrLen > 0 then [sllaoBlock iface.sllao]
        else []) ++
      ((if iface.mipv6.advIntervalOpt then [rtrAdvIntervalBlock iface.maxRtrAdvInterval] else []) ++
        ((if sendsHomeAgentInfo iface then [homeAgentInfoBlock order iface.mipv6] else []) ++
          ((iface.advLowpanCoList.head?.map lowpancoBlock).toList ++
            ((iface.advAbroList.head?.map abroBlock).toList ++
              (iface.advCaptivePortalAPI.map capportBlock).toList)))))

/-- What the parser and `setup_iface` leave in an interface. -/
structure Interface.Parsed (iface : Interface) : Prop where
  route_prefixLen : ∀ route ∈ iface.advRouteList, route.prefixLen ≤ 128
  dnssl_parsed : ∀ dnssl ∈ iface.advDNSSLList, dnssl.Parsed
  hwaddr_le : iface.sllao.ifHwaddrLen ≤ 128
  capport_length : ∀ url ∈ iface.advCaptivePortalAPI, url ≠ [] ∧ url.length ≤ 255

def Interface.DnsslFits (iface : Interface) : Prop :=
  ∀ dnssl ∈ iface.advDNSSLList, dnssl.Fits

/-- `m` links in exactly `added` at the tail of the chain. -/
def Links (m : SafeBufferList → Except Exit SafeBufferList) (added : List Bytes) : Prop :=
  ∀ sbl : SafeBufferList, ∃ sbl', m sbl = .ok sbl' ∧ sbl'.blocks = sbl.blocks ++ added

theorem Links.bind {m n : SafeBufferList → Except Exit SafeBufferList}
    {first second : List Bytes} (linksFirst : Links m first) (linksSecond : Links n second) :
    Links (fun sbl => m sbl >>= n) (first ++ second) := by
  intro sbl
  rcases linksFirst sbl with ⟨middle, middleEq, middleBlocks⟩
  rcases linksSecond middle with ⟨last, lastEq, lastBlocks⟩
  refine ⟨last, ?_, ?_⟩
  · simp only [middleEq]
    exact lastEq
  · rw [lastBlocks, middleBlocks, List.append_assoc]

theorem links_addTail {f : SafeBuffer → Except Exit SafeBuffer} {block : Bytes}
    (condition : Bool) (appends : Appends f block) (fits : block.length ≤ 64 * 1024) :
    Links (addTail condition f) (if condition then [block] else []) := by
  intro sbl
  cases condition with
  | true => exact next_write appends fits sbl
  | false => exact ⟨sbl, rfl, by simp⟩

theorem links_addTailOf {α : Type} {head : Option α} {condition : α → Bool}
    {f : α → SafeBuffer → Except Exit SafeBuffer} {block : α → Bytes}
    (always : ∀ value, condition value = true) (appends : ∀ value, Appends (f value) (block value))
    (fits : ∀ value ∈ head, (block value).length ≤ 64 * 1024) :
    Links (addTailOf head condition f) (head.map block).toList := by
  cases head with
  | none => exact fun sbl => ⟨sbl, rfl, by simp⟩
  | some value =>
      have links := links_addTail (condition value) (appends value) (fits value rfl)
      rw [always value] at links
      intro sbl
      rcases links sbl with ⟨sbl', sblEq, sblBlocks⟩
      exact ⟨sbl', by simpa only [addTailOf, always value] using sblEq, sblBlocks⟩

theorem length_sllaoBlock_le (sllao : Sllao) : (sllaoBlock sllao).length ≤ 26 := by
  simp only [sllaoBlock, List.length_append, List.length_cons, List.length_nil,
    List.length_take, Vector.length_toList, List.length_replicate]
  simp only [sllaoLen]
  omega

theorem links_buildRaOptionTail (order : ByteOrder) {iface : Interface} (dest : In6Addr)
    (parsed : iface.Parsed) :
    Links (buildRaOptionTail order iface dest) (tailBlocks order iface) := by
  have capportFits : ∀ url ∈ iface.advCaptivePortalAPI,
      (capportBlock url).length ≤ 64 * 1024 := by
    intro url urlMem
    have bound := (parsed.capport_length url urlMem).2
    rw [length_capportBlock, capportLen]
    omega
  have sllaoFits := length_sllaoBlock_le iface.sllao
  unfold buildRaOptionTail tailBlocks
  simp only [scheduleOptionMtu, scheduleOptionSllao, scheduleOptionMipv6RtrAdvInterval,
    scheduleOptionMipv6HomeAgentInfo, scheduleHelper, Bool.and_true]
  have mtu := links_addTail (iface.advLinkMTU ≠ 0)
    (appends_append (mtuBlock iface.advLinkMTU)) (by simp)
  simp only [decide_eq_true_eq] at mtu
  apply mtu.bind
  apply Links.bind (links_addTail _ (appends_addRaOptionSllao _) (by omega))
  apply Links.bind (links_addTail _ (appends_append _) (by simp))
  apply Links.bind (links_addTail _ (appends_append _) (by simp))
  apply Links.bind (links_addTailOf (fun _ => rfl) (fun _ => appends_append _) (by simp))
  apply Links.bind (links_addTailOf (fun _ => rfl) (fun _ => appends_append _) (by simp))
  exact links_addTailOf (fun _ => rfl) appends_addRaOptionCapport capportFits

theorem writes_buildRaOptionLists (kernel : Kernel) {iface : Interface} (dest : In6Addr)
    (parsed : iface.Parsed) (fits : iface.DnsslFits) :
    Writes (buildRaOptionLists kernel iface dest) (listBlocks kernel iface) :=
  (writes_addRaOptionsPrefix _).bind
    ((writes_addRaOptionsNat64Prefix _).bind
      ((writes_addRaOptionsRoute _ _ _ _).bind
        ((writes_addRaOptionsRdnss _ _ _ _).bind
          (writes_addRaOptionsDnssl _ parsed.dnssl_parsed fits))))

/-- The list of blocks that `build_ra_options` returns. -/
theorem buildRaOptions_ok (order : ByteOrder) (kernel : Kernel) {iface : Interface}
    (dest : In6Addr) (parsed : iface.Parsed) (fits : iface.DnsslFits) :
    ∃ sbl, buildRaOptions order kernel iface dest = .ok sbl ∧
      sbl.blocks = extend [[]] (listBlocks kernel iface) ++ tailBlocks order iface := by
  rcases writes_buildRaOptionLists kernel dest parsed fits SafeBufferList.new with
    ⟨middle, middleEq, middleBlocks⟩
  rcases links_buildRaOptionTail order dest parsed middle with ⟨last, lastEq, lastBlocks⟩
  refine ⟨last, ?_, ?_⟩
  · rw [buildRaOptions, middleEq]
    exact lastEq
  · rw [lastBlocks, middleBlocks, blocks_new]

/-- `build_ra_options` ends the program where a DNSSL block does not fit. -/
theorem buildRaOptions_error (order : ByteOrder) (kernel : Kernel) {iface : Interface}
    (dest : In6Addr) (parsed : iface.Parsed) (exceeds : ¬iface.DnsslFits) :
    buildRaOptions order kernel iface dest = .error .safeBufferResize := by
  have lists : Writes (fun cur =>
      addRaOptionsPrefix kernel iface iface.stateInfo.ceaseAdv dest cur iface.advPrefixList >>=
        fun cur => addRaOptionsNat64Prefix cur iface.nat64PrefixList >>=
        fun cur => addRaOptionsRoute iface iface.stateInfo.ceaseAdv dest cur iface.advRouteList >>=
        fun cur => addRaOptionsRdnss iface iface.stateInfo.ceaseAdv dest cur iface.advRDNSSList)
      _ :=
    (writes_addRaOptionsPrefix _).bind
      ((writes_addRaOptionsNat64Prefix _).bind
        ((writes_addRaOptionsRoute _ _ _ _).bind (writes_addRaOptionsRdnss _ _ _ _)))
  rcases lists SafeBufferList.new with ⟨middle, middleEq, -⟩
  have failed : addRaOptionsDnssl iface iface.stateInfo.ceaseAdv dest SafeBuffer.new middle
      iface.advDNSSLList = .error .safeBufferResize :=
    addRaOptionsDnssl_error SafeBuffer.new middle parsed.dnssl_parsed exceeds
  have listsFailed : buildRaOptionLists kernel iface dest SafeBufferList.new =
      .error .safeBufferResize := by
    beta_reduce at middleEq
    simp only [buildRaOptionLists, ← bind_assoc] at middleEq ⊢
    rw [middleEq]
    exact failed
  rw [buildRaOptions, listsFailed]
  rfl

end Radvd
