import Radvd.Answers
import Radvd.Infinity
import Radvd.Matching

/-!
# Routers with the same configuration

What `process_ra` of one router says of the RAs that `send_ra` of another one
builds, where both have the same configuration (`disagreement_conflicts`). The
only settings about which they can disagree are the lifetimes of a prefix that
one definition stands for and another one is written with.
-/

namespace Radvd

open Wire Tlv Access Runs Grammar Dump

/-- The complaints that a setting does not agree with ours, or that something is
not advertised by us. -/
def Complaint.isDisagreement : Complaint → Bool
  | .disagrees _ => true
  | .validLifetimeDisagrees _ => true
  | .preferredLifetimeDisagrees _ => true
  | .rdnssNotAdvertised _ => true
  | .dnsslNotAdvertised _ => true
  | _ => false

/-- No disagreement is noted. -/
def Agreeing (event : Event ReceiveNote) : Prop :=
  ∀ complaint, event = .note (.flog complaint) → complaint.isDisagreement = false

@[simp]
theorem agreeing_read (offset : Nat) : Agreeing (.read offset) := by
  intro complaint noted
  cases noted

@[simp]
theorem agreeing_flog {complaint : Complaint} :
    Agreeing (.note (.flog complaint)) ↔ complaint.isDisagreement = false := by
  simp [Agreeing]

theorem mem_notes {α : Type} {computation : Receiving α} {what : ReceiveNote} :
    what ∈ computation.notes ↔ Event.note what ∈ computation.events := by
  unfold notes
  rw [List.mem_filterMap]
  constructor
  · rintro ⟨event, member, noted⟩
    cases event with
    | read offset => cases noted
    | note other =>
        cases noted
        exact member
  · exact fun member => ⟨_, member, rfl⟩

section

variable {mem : Memory} {iface ours : Interface}

@[simp]
theorem agreeing_flogIf {condition : Bool} {complaint : Complaint} :
    (flogIf condition complaint).All Agreeing ↔
      (condition = true → complaint.isDisagreement = false) := by
  unfold flogIf flog
  split
  · rename_i holds
    simp [holds]
  · rename_i fails
    simp [fails]

/-! ## Prefixes -/

/-- The received lifetimes are not those of an entry that has the same prefix. -/
structure LifetimesDiffer (entries : List AdvPrefix) (prefixLen : UInt8) (addr : In6Addr)
    (valid preferred : UInt32) (complaint : Complaint) (position : Nat) (own : AdvPrefix) :
    Prop where
  place : entries[position]? = some own
  len_eq : own.prefixLen = prefixLen
  agree : AgreeOn own.prefixLen.toNat own.prefixAddr addr
  static : own.decrementLifetimesFlag = false
  differ : complaint = .validLifetimeDisagrees own.prefixAddr ∧ valid ≠ own.advValidLifetime ∨
    complaint = .preferredLifetimeDisagrees own.prefixAddr ∧ preferred ≠ own.advPreferredLifetime

theorem flog_mem_flogIf {condition : Bool} {complaint other : Complaint} :
    ReceiveNote.flog complaint ∈ (flogIf condition other).notes ↔
      condition = true ∧ complaint = other := by
  unfold flogIf flog
  cases condition <;> simp

theorem notes_addrMatch (prefixAddr : In6Addr) (offset prefixlen : Nat) :
    (addrMatch mem prefixAddr offset prefixlen).notes = [] := by
  simp [addrMatch]

theorem lifetimesDiffer_of_mem {offset : Nat} {prefixLen : UInt8} {addr : In6Addr}
    {valid preferred : UInt32} {entries : List AdvPrefix} {complaint : Complaint}
    (stored : mem (offset + 2) = prefixLen) (addrStored : mem.Holds (offset + 16) addr.toList)
    (short : ∀ entry ∈ entries, entry.prefixLen ≤ 128)
    (logged : .flog complaint ∈ (checkPrefixLifetimes mem offset valid preferred entries).notes) :
    ∃ position own, LifetimesDiffer entries prefixLen addr valid preferred complaint position own := by
  induction entries with
  | nil => simp [checkPrefixLifetimes] at logged
  | cons entry rest ih =>
      rw [List.forall_mem_cons] at short
      have tail : .flog complaint ∈
          (checkPrefixLifetimes mem offset valid preferred rest).notes →
          ∃ position own, LifetimesDiffer (entry :: rest) prefixLen addr valid preferred complaint
            position own := by
        intro later
        rcases ih short.2 later with ⟨position, own, differs⟩
        exact ⟨position + 1, own, differs.place, differs.len_eq, differs.agree, differs.static,
          differs.differ⟩
      simp only [checkPrefixLifetimes, notes_bind, notes_load8, value_load8, List.nil_append,
        notes_ite, notes_addrMatch, stored] at logged
      split at logged
      · rename_i sameLen
        split at logged
        · rename_i same
          rw [UInt8.le_iff_toNat_le] at short
          have agree := (value_addrMatch_iff addrStored short.1).mp same
          simp only [List.mem_append, flog_mem_flogIf, Bool.and_eq_true, Bool.not_eq_true',
            decide_eq_true_eq] at logged
          rcases logged with ⟨⟨static, differ⟩, rfl⟩ | ⟨⟨static, differ⟩, rfl⟩ | later
          · exact ⟨0, entry, rfl, sameLen, agree, static, .inl ⟨rfl, differ⟩⟩
          · exact ⟨0, entry, rfl, sameLen, agree, static, .inr ⟨rfl, differ⟩⟩
          · exact tail later
        · exact tail logged
      · exact tail logged

/-- What is said of a Prefix Information option. -/
theorem differs_of_prefixBlock {visit : Visit} {advertised : AdvPrefix} {ceaseAdv : Bool}
    {complaint : Complaint} (stored : mem.Holds visit.offset (prefixBlock advertised ceaseAdv))
    (short : ∀ entry ∈ ours.advPrefixList, entry.prefixLen ≤ 128)
    (logged : .flog complaint ∈ (processRaPrefix mem ours visit).notes) :
    ∃ position own, LifetimesDiffer ours.advPrefixList advertised.prefixLen advertised.prefixAddr
      (piValidTime advertised ceaseAdv) (piPreferredTime advertised ceaseAdv) complaint position
      own := by
  simp only [prefixBlock, Memory.holds_append, Memory.holds_cons, List.length_append,
    List.length_cons, List.length_nil, length_be32, Nat.zero_add, Nat.reduceAdd] at stored
  obtain ⟨⟨⟨⟨⟨-, -, len, -⟩, valid⟩, preferred⟩, -⟩, addr⟩ := stored
  simp only [processRaPrefix, notes_ite, notes_bind, notes_load32, value_load32, notes_pure,
    List.nil_append, List.append_nil, Memory.u32_of_holds valid,
    Memory.u32_of_holds preferred] at logged
  split at logged
  · simp at logged
  · exact lifetimesDiffer_of_mem len addr short logged

/-! ## Other options -/

theorem agreeing_of_mtuBlock {visit : Visit}
    (stored : mem.Holds visit.offset (mtuBlock ours.advLinkMTU)) :
    (processRaMtu mem ours visit).All Agreeing := by
  simp only [mtuBlock, Memory.holds_append, List.length_append, List.length_cons,
    List.length_nil, length_be16, Nat.zero_add, Nat.reduceAdd] at stored
  unfold processRaMtu
  split_ifs
  · apply all_pure
  · apply all_pure
  · simp [Memory.u32_of_holds stored.2]

theorem agreeing_checkRdnssAddrs {offset : Nat} {addrs : List In6Addr}
    (stored : mem.Holds offset (addrs.flatMap (·.toList)))
    (known : ∀ addr ∈ addrs, checkRdnssPresence ours.advRDNSSList addr.toList = true) :
    (checkRdnssAddrs mem ours offset addrs.length).All Agreeing := by
  induction addrs generalizing offset with
  | nil => simp [checkRdnssAddrs]
  | cons addr rest ih =>
      rw [List.forall_mem_cons] at known
      simp only [List.flatMap_cons, Memory.holds_append, Vector.length_toList] at stored
      have here : mem.slice offset 16 = addr.toList := by
        have sliced := Memory.slice_of_holds stored.1
        rwa [Vector.length_toList] at sliced
      have later := ih stored.2 known.2
      simp only [List.length_cons, checkRdnssAddrs, all_bind, all_loadSlice, agreeing_read,
        implies_true, value_loadSlice, here, known.1, agreeing_flogIf, later, and_true, true_and]
      exact fun missing => (by cases missing)

theorem agreeing_of_rdnssBlock {visit : Visit} {rdnss : AdvRDNSS} {ceaseAdv : Bool}
    (stored : mem.Holds visit.offset (rdnssBlock rdnss ceaseAdv))
    (few : rdnssBytes rdnss / 8 ≤ 255) (listed : rdnss ∈ ours.advRDNSSList) :
    (processRaRdnss mem ours visit).All Agreeing := by
  simp only [rdnssBlock, rdnssInfo, Memory.holds_append, Memory.holds_cons, List.length_append,
    List.length_cons, List.length_nil, length_be16, length_be32, Nat.zero_add,
    Nat.reduceAdd] at stored
  obtain ⟨⟨⟨⟨-, length, -⟩, -⟩, -⟩, addrs⟩ := stored
  have count : ((UInt8.ofNat (rdnssBytes rdnss / 8)).toNat - 1) / 2 = rdnss.advRDNSSAddr.length := by
    rw [UInt8.toNat_ofNat_of_lt' (by simp only [UInt8.size]; omega)]
    unfold rdnssBytes at few ⊢
    omega
  have known : ∀ addr ∈ rdnss.advRDNSSAddr,
      checkRdnssPresence ours.advRDNSSList addr.toList = true := by
    intro addr member
    simp only [checkRdnssPresence, List.any_eq_true, decide_eq_true_eq]
    exact ⟨rdnss, listed, addr, member, rfl⟩
  have checked := agreeing_checkRdnssAddrs addrs known
  unfold processRaRdnss
  split_ifs
  · apply all_pure
  · simp only [all_bind, all_load8, agreeing_read, value_load8, length, all_ite, all_pure, and_true,
      true_and, count, checked, flog, all_note, agreeing_flog]
    split
    · trivial
    · rfl

/-- No suffix is ever complained about. -/
theorem agreeing_checkDnsslSuffixes {optStr limit offset : Nat} {len : Int} :
    (checkDnsslSuffixes mem ours optStr limit len offset).All Agreeing :=
  holds_checkDnsslSuffixes agreeing_read (fun _ => by simp [Agreeing]) (agreeing_flog.mpr rfl)

theorem agreeing_processRaDnssl (visit : Visit) : (processRaDnssl mem ours visit).All Agreeing := by
  unfold processRaDnssl
  split_ifs
  · apply all_pure
  · simp only [all_bind, all_load8, agreeing_read, true_and]
    exact agreeing_checkDnsslSuffixes

/-! ## All options -/

theorem not_logged {α : Type} {computation : Receiving α} {complaint : Complaint}
    (agreeing : computation.All Agreeing) (disagreement : complaint.isDisagreement = true) :
    .flog complaint ∉ computation.notes := by
  intro logged
  have quiet := agreeing _ (mem_notes.mp logged) complaint rfl
  rw [disagreement] at quiet
  cases quiet

/-- The only disagreements about an option of an interface with our configuration
are about the lifetimes of a prefix. -/
theorem differs_of_option {order : ByteOrder} {kernel : Kernel} {block : Bytes} {visit : Visit}
    {complaint : Complaint} (parsed : iface.Parsed) (mtu : ours.advLinkMTU = iface.advLinkMTU)
    (rdnss : ours.advRDNSSList = iface.advRDNSSList)
    (short : ∀ entry ∈ ours.advPrefixList, entry.prefixLen ≤ 128)
    (listed : block ∈ allOptions order kernel iface) (stored : mem.Holds visit.offset block)
    (logged : .flog complaint ∈ (processRaOption mem ours visit).notes)
    (disagreement : complaint.isDisagreement = true) :
    ∃ source ∈ iface.advPrefixList, ∃ advertised ∈ advertisedPrefixes kernel iface source,
      ∃ position own, LifetimesDiffer ours.advPrefixList advertised.prefixLen
        advertised.prefixAddr (piValidTime advertised iface.stateInfo.ceaseAdv)
        (piPreferredTime advertised iface.stateInfo.ceaseAdv) complaint position own := by
  have formed := wellFormed_of_mem_allOptions parsed listed
  have type : mem visit.offset = optionType block := by
    have zero := stored 0 formed.length_pos
    simp [optionType, List.getD, zero]
  simp only [processRaOption, notes_bind, notes_load8, value_load8, List.nil_append, notes_ite,
    type] at logged
  split at logged
  · rename_i isMtu
    have member := mem_ofType.mpr ⟨listed, isMtu⟩
    rw [ofType_mtu parsed, List.mem_ite_nil_right, List.mem_singleton, ← mtu] at member
    rw [member.2] at stored
    exact absurd logged (not_logged (agreeing_of_mtuBlock stored) disagreement)
  split at logged
  · rename_i isPrefix
    have member := mem_ofType.mpr ⟨listed, isPrefix⟩
    rw [ofType_prefixes parsed, prefixBlocks, List.mem_map] at member
    rcases member with ⟨advertised, flat, rfl⟩
    rcases List.mem_flatMap.mp flat with ⟨source, sourceMem, advertisedMem⟩
    exact ⟨source, sourceMem, advertised, advertisedMem, differs_of_prefixBlock stored short logged⟩
  split at logged
  · rename_i isRdnss
    have member := mem_ofType.mpr ⟨listed, isRdnss⟩
    rw [ofType_rdnss parsed, rdnssBlocks, ← rdnss] at member
    rcases List.mem_map.mp member with ⟨entry, kept, rfl⟩
    rw [List.mem_filter, decide_eq_true_eq] at kept
    exact absurd logged (not_logged (agreeing_of_rdnssBlock stored kept.2 kept.1) disagreement)
  split at logged
  · exact absurd logged (not_logged (agreeing_processRaDnssl visit) disagreement)
  · rw [List.mem_append, flog_mem_flogIf] at logged
    rcases logged with ⟨-, rfl⟩ | none
    · cases disagreement
    · simp at none

/-! ## A whole RA -/

theorem preferenceBits_cases (preference : Int) :
    preferenceBits preference = 0 ∨ preferenceBits preference = 8 ∨
      preferenceBits preference = 16 ∨ preferenceBits preference = 24 := by
  have octets : ∀ octet : Fin 256, let bits := UInt8.ofNat octet.val &&& ndOptRiPrfMask
      bits = 0 ∨ bits = 8 ∨ bits = 16 ∨ bits = 24 := by decide +kernel
  have bits := octets ⟨(UInt8.ofInt (preference * 8)).toNat, UInt8.toNat_lt _⟩
  rwa [UInt8.ofNat_toNat] at bits

/-- The preference does not set the flags that are compared. -/
theorem flags_raFlagsReserved (info : RaHeaderInfo) :
    (raFlagsReserved info &&& ndRaFlagManaged ≠ 0 → info.advManagedFlag = true) ∧
      (raFlagsReserved info &&& ndRaFlagOther ≠ 0 → info.advOtherConfigFlag = true) := by
  unfold raFlagsReserved
  generalize info.advManagedFlag = managed, info.advOtherConfigFlag = other,
    info.advHomeAgentFlag = homeAgent, info.advSNACRouterFlag = snacRouter
  rcases preferenceBits_cases info.advDefaultPreference with bits | bits | bits | bits
  all_goals
    rw [bits]
    revert managed other homeAgent snacRouter
    decide

/-- A complaint about an RA with our header is about one of its options. -/
theorem exists_option_of_mem_notes {packet : Packet} {info : RaHeaderInfo} {ceaseAdv : Bool}
    {blocks : List Bytes} {complaint : Complaint}
    (stored : packet.msg.Holds 0 (raHeaderBlock info ceaseAdv ++ blocks.flatten))
    (length : packet.len = (raHeaderBlock info ceaseAdv ++ blocks.flatten).length)
    (formed : ∀ block ∈ blocks, WellFormed block)
    (prefixLength : ∀ block ∈ blocks,
      block.getD 0 0 = ndOptPrefixInformation → block.length = 32)
    (same : ours.raHeaderInfo.advCurHopLimit = info.advCurHopLimit ∧
      ours.raHeaderInfo.advManagedFlag = info.advManagedFlag ∧
      ours.raHeaderInfo.advOtherConfigFlag = info.advOtherConfigFlag ∧
      ours.raHeaderInfo.advReachableTime = info.advReachableTime ∧
      ours.raHeaderInfo.advRetransTimer = info.advRetransTimer)
    (logged : .flog complaint ∈ (processRa packet ours).notes) :
    ∃ block ∈ blocks, ∃ visit : Visit, packet.msg.Holds visit.offset block ∧
      .flog complaint ∈ (processRaOption packet.msg ours visit).notes := by
  have left : ((packet.len : Int) - 16) = blocks.flatten.length := by
    rw [length, List.length_append, length_raHeaderBlock]
    omega
  rw [Memory.holds_append, length_raHeaderBlock, Nat.zero_add] at stored
  have stays : ∀ visit ∈ visits 16 blocks.flatten.length blocks,
      (processRaOption packet.msg ours visit).value = false := by
    intro visit member
    rcases exists_block_of_mem_visits stored.2 member with
      ⟨block, blockMem, blockStored, -, inside⟩
    rw [value_processRaOption]
    exact processRaReturns_eq_false (formed block blockMem) blockStored
      (prefixLength block blockMem) inside
  have walked := walk_of_holds formed stored.2 stays
  have ending := value_options packet.msg (processRaOption packet.msg ours) 16 (packet.len - 16)
  have header := stored.1
  simp only [raHeaderBlock, Memory.holds_append, Memory.holds_cons, List.length_append,
    List.length_cons, List.length_nil, length_be16, length_be32, Memory.holds_nil, and_true,
    Nat.zero_add, Nat.reduceAdd] at header
  obtain ⟨⟨⟨⟨-, hopLimit, flags⟩, -⟩, reachable⟩, retransmit⟩ := header
  rw [left, walked] at ending
  simp only [processRa, notes_bind, notes_load8, notes_load32, value_load8, value_load32, hopLimit,
    flags, Memory.u32_of_holds reachable, Memory.u32_of_holds retransmit, left, ending,
    notes_options, walked, List.nil_append, List.mem_append, flog_mem_flogIf, notes_pure,
    List.mem_flatMap, same] at logged
  have managed := (flags_raFlagsReserved info).1
  have other := (flags_raFlagsReserved info).2
  rcases logged with ⟨differs, -⟩ | ⟨differs, -⟩ | ⟨differs, -⟩ | ⟨differs, -⟩ | ⟨differs, -⟩ |
    ⟨visit, member, noted⟩ | none
  · simp at differs
  · simp only [Bool.and_eq_true, decide_eq_true_eq, Bool.not_eq_true'] at differs
    exact absurd (managed differs.1) (by simp [differs.2])
  · simp only [Bool.and_eq_true, decide_eq_true_eq, Bool.not_eq_true'] at differs
    exact absurd (other differs.1) (by simp [differs.2])
  · simp at differs
  · simp at differs
  · rcases exists_block_of_mem_visits stored.2 member with ⟨block, blockMem, blockStored, -, -⟩
    exact ⟨block, blockMem, visit, blockStored, noted⟩
  · cases none

end

/-! ## Routers with one configuration -/

/-- A prefix that is not decremented has the lifetimes of its configuration. -/
def Undecremented (configured entry : AdvPrefix) : Prop :=
  SameConfig configured entry ∧ (entry.decrementLifetimesFlag = false →
    entry.currValidlft = entry.advValidLifetime ∧
      entry.currPreferredlft = entry.advPreferredLifetime)

theorem stable_undecremented {allowed : SendEnv → Prop} {shutdown : Prop} (parsed : Interface) :
    Stable allowed shutdown fun iface =>
      List.Forall₂ Undecremented parsed.advPrefixList iface.advPrefixList := by
  apply stable_prefixes
  · rintro configured entry ceaseAdv secs - ⟨config, static⟩
    refine ⟨config.trans (sameConfig_ageEntry _ _ _), ?_⟩
    unfold ageEntry
    split
    · rename_i ages
      simp only [Bool.and_eq_true] at ages
      intro fixed
      exact absurd ages.2 (by simpa using fixed)
    · exact static
  · rintro configured entry ⟨config, static⟩
    refine ⟨config.trans (sameConfig_resetEntry _), ?_⟩
    unfold resetEntry
    split
    · exact fun _ => ⟨rfl, rfl⟩
    · exact static

theorem min_eq_of_le {known lifetime : UInt32} (long : lifetime ≤ known) :
    min known lifetime = lifetime := by
  rw [UInt32.le_iff_toNat_le] at long
  apply UInt32.toNat_inj.mp
  rw [UInt32.toNat_min]
  exact Nat.min_eq_right long

/-- What is advertised for an entry that is not decremented has the lifetimes of
its configuration if the kernel knows of none that is shorter. -/
theorem lifetimes_of_undecremented {kernel : Kernel} {iface : Interface}
    {configured entry advertised : AdvPrefix} (undecremented : Undecremented configured entry)
    (static : entry.decrementLifetimesFlag = false) (valid : kernel.LeavesValid iface entry)
    (preferred : kernel.LeavesPreferred iface entry)
    (member : advertised ∈ advertisedPrefixes kernel iface entry) :
    advertised.currValidlft = entry.advValidLifetime ∧
      advertised.currPreferredlft = entry.advPreferredLifetime := by
  rcases undecremented.2 static with ⟨validEq, preferredEq⟩
  rw [advertisedPrefixes_eq, static] at member
  rcases List.mem_map.mp member with ⟨candidate, candidateMem, rfl⟩
  have lifetimes : candidate.currValidlft = entry.advValidLifetime ∧
      candidate.currPreferredlft = entry.advPreferredLifetime := by
    rcases eq_of_mem_prefixCandidates candidateMem with ⟨addr, len, rfl⟩
    exact ⟨validEq, preferredEq⟩
  unfold limitPrefixLifetimes
  dsimp only
  split
  · rename_i known
    rw [lifetimes.1, lifetimes.2]
    exact ⟨min_eq_of_le (valid candidate candidateMem known),
      min_eq_of_le (preferred candidate candidateMem known)⟩
  · exact lifetimes

theorem exists_of_forall₂ {α β : Type} {relation : α → β → Prop} {left : List α} {right : List β}
    (related : List.Forall₂ relation left right) {position : Nat} {entry : β}
    (place : right[position]? = some entry) :
    ∃ configured, left[position]? = some configured ∧ relation configured entry := by
  induction related generalizing position with
  | nil => cases place
  | cons here _ ih =>
      rcases position with _ | position
      · cases place
        exact ⟨_, rfl, here⟩
      · exact ih place

/-- A prefix that one definition stands for is the one that another definition is
written with, and the lifetimes differ. -/
def Conflict (kernel : Kernel) (sender ours : Interface) (complaint : Complaint) : Prop :=
  ∃ position other source advertised own, position ≠ other ∧
    sender.advPrefixList[position]? = some source ∧
    advertised ∈ advertisedPrefixes kernel sender source ∧
    LifetimesDiffer ours.advPrefixList advertised.prefixLen advertised.prefixAddr
      advertised.currValidlft advertised.currPreferredlft complaint other own

section

variable {parsed iface ours : Interface}

/-- What becomes of an interface of the configuration. -/
theorem derived_of_run {definition : Ifacedef} (gives : definition.Gives parsed)
    {events : List IfaceEvent} (run : Run IfaceStep parsed events iface) :
    Derived parsed iface ∧ List.Forall₂ Undecremented parsed.advPrefixList iface.advPrefixList := by
  have within : ∀ event ∈ events, event.Within (fun _ => True) True := by
    intro event _
    cases event <;> trivial
  have stable : Stable (fun _ => True) True fun iface => Derived parsed iface ∧
      List.Forall₂ Undecremented parsed.advPrefixList iface.advPrefixList :=
    (stable_derived parsed).and (stable_undecremented parsed)
  apply stable.ifaceRun run within
  refine ⟨derived_of_gives gives, List.forall₂_same.mpr fun entry member => ?_⟩
  rcases forall₂_mem_right gives.defined.prefixes member with ⟨definition, -, read⟩
  have fresh := freshPrefix_of_prefixdef read
  exact ⟨.refl _, fun _ => ⟨fresh.valid_eq, fresh.preferred_eq⟩⟩

/-- Both interfaces have an undecremented entry from the one the configuration has
at this position, so their lifetimes agree. -/
theorem not_lifetimesDiffer_same {kernel : Kernel} {sender : Interface}
    (prefixes : List.Forall₂ Undecremented parsed.advPrefixList sender.advPrefixList)
    (ourPrefixes : List.Forall₂ Undecremented parsed.advPrefixList ours.advPrefixList)
    {position : Nat} {source advertised own : AdvPrefix} {complaint : Complaint}
    (place : sender.advPrefixList[position]? = some source)
    (valid : kernel.LeavesValid sender source) (preferred : kernel.LeavesPreferred sender source)
    (member : advertised ∈ advertisedPrefixes kernel sender source) :
    ¬LifetimesDiffer ours.advPrefixList advertised.prefixLen advertised.prefixAddr
      advertised.currValidlft advertised.currPreferredlft complaint position own := by
  intro differs
  rcases exists_of_forall₂ prefixes place with ⟨configured, found, undecremented⟩
  rcases exists_of_forall₂ ourPrefixes differs.place with ⟨configured', found', config, -⟩
  cases found.symm.trans found'
  have config' := undecremented.1
  have static : source.decrementLifetimesFlag = false := by
    have ourStatic := differs.static
    rw [config] at ourStatic
    rw [config']
    exact ourStatic
  have validSame : own.advValidLifetime = source.advValidLifetime := by rw [config, config']
  have preferredSame : own.advPreferredLifetime = source.advPreferredLifetime := by
    rw [config, config']
  have lifetimes := lifetimes_of_undecremented undecremented static valid preferred member
  rcases differs.differ with ⟨-, differ⟩ | ⟨-, differ⟩
  · exact differ (lifetimes.1.trans validSame.symm)
  · exact differ (lifetimes.2.trans preferredSame.symm)

/-- What is known of the options of a message that carries those of an interface. -/
theorem formed_of_carries {info : RaHeaderInfo} {ceaseAdv : Bool} {order : ByteOrder}
    {kernel : Kernel} {sender : Interface} {message : Bytes} (isParsed : sender.Parsed)
    (carries : Carries info ceaseAdv (allOptions order kernel sender) message) :
    ∀ block ∈ raOptions message, WellFormed block ∧
      (block.getD 0 0 = ndOptPrefixInformation → block.length = 32) := by
  intro block blockMem
  have listed := carries.options_infix.subset blockMem
  refine ⟨wellFormed_of_mem_allOptions isParsed listed, ?_⟩
  intro isPrefix
  have typed := mem_ofType.mpr ⟨listed, isPrefix⟩
  rw [ofType_prefixes isParsed, prefixBlocks, List.mem_map] at typed
  rcases typed with ⟨advertised, -, rfl⟩
  exact length_prefixBlock _ _

end

/-- An interface complains about an RA of one with the same configuration only
where two of their prefix definitions are in conflict. -/
theorem disagreement_conflicts {first : Ifacedef} {rest : List Ifacedef} {ifaces : List Interface}
    (read : readinConfig first rest = .ok ifaces) {parsed : Interface} (member : parsed ∈ ifaces)
    {events : List IfaceEvent} {iface : Interface} (run : Run IfaceStep parsed events iface)
    (ready : iface.stateInfo.ready = true) (running : iface.stateInfo.ceaseAdv = false)
    {others : List IfaceEvent} {ours : Interface} (own : Run IfaceStep parsed others ours)
    {env : SendEnv} {warned : Bool} {dest : Option In6Addr}
    (leaves : ∀ entry ∈ (agedIface env iface dest).advPrefixList,
      env.kernel.LeavesValid (agedIface env iface dest) entry ∧
        env.kernel.LeavesPreferred (agedIface env iface dest) entry)
    {message : Bytes} (sent : message ∈ (sendRa env warned iface dest).sent) {packet : Packet}
    (received : packet.msg.Holds 0 message) (length : packet.len = message.length)
    {complaint : Complaint} (logged : .flog complaint ∈ (processRa packet ours).notes)
    (disagreement : complaint.isDisagreement = true) :
    Conflict env.kernel (agedIface env iface dest) ours complaint := by
  rcases gives_of_readinConfig read member with ⟨definition, -, gives⟩
  rcases derived_of_run gives run with ⟨derived, -⟩
  rcases derived_of_run gives own with ⟨ourDerived, ourPrefixes⟩
  have agedRun : Run IfaceStep parsed (events ++ [.sendRa env dest]) (agedIface env iface dest) :=
    run.append (.cons (.sendRa (advertises_of_mem_sent sent)) (.nil _))
  rcases derived_of_run gives agedRun with ⟨-, prefixes⟩
  have isParsed := derived.parsed_of_ready gives.parsed ready
  have agedParsed := parsed_agedIface isParsed env dest
  have carries := carries_of_mem_sent isParsed sent
  have same : ∀ {α : Type} (view : Interface → α),
      (∀ iface : Interface, view iface.config = view iface) → view ours = view iface :=
    fun view kept => (ourDerived.same view kept).trans (derived.same view kept).symm
  have short : ∀ entry ∈ ours.advPrefixList, entry.prefixLen ≤ 128 := by
    intro entry entryMem
    rcases forall₂_mem_right ourPrefixes entryMem with ⟨configured, configuredMem, config, -⟩
    rcases forall₂_mem_right gives.defined.prefixes configuredMem with ⟨definition, -, parsed⟩
    rw [config]
    exact (freshPrefix_of_prefixdef parsed).len_le
  have formed := formed_of_carries agedParsed carries
  rcases @exists_option_of_mem_notes ours packet iface.raHeaderInfo _ (raOptions message) complaint
    (by rw [← carries.message_eq]; exact received) (by rw [← carries.message_eq]; exact length)
    (fun block blockMem => (formed block blockMem).1)
    (fun block blockMem => (formed block blockMem).2)
    ⟨same (fun iface => iface.raHeaderInfo.advCurHopLimit) fun _ => rfl,
      same (fun iface => iface.raHeaderInfo.advManagedFlag) fun _ => rfl,
      same (fun iface => iface.raHeaderInfo.advOtherConfigFlag) fun _ => rfl,
      same (fun iface => iface.raHeaderInfo.advReachableTime) fun _ => rfl,
      same (fun iface => iface.raHeaderInfo.advRetransTimer) fun _ => rfl⟩ logged with
    ⟨block, blockMem, visit, blockStored, noted⟩
  have mtu : ours.advLinkMTU = (agedIface env iface dest).advLinkMTU := by
    rw [same Interface.advLinkMTU fun _ => rfl]
    cases dest <;> rfl
  have rdnss : ours.advRDNSSList = (agedIface env iface dest).advRDNSSList := by
    rw [same Interface.advRDNSSList fun _ => rfl]
    cases dest <;> rfl
  rcases differs_of_option agedParsed mtu rdnss short (carries.options_infix.subset blockMem)
    blockStored noted disagreement with
    ⟨source, sourceMem, advertised, advertisedMem, other, ourEntry, differs⟩
  rw [ceaseAdv_agedIface, running, piValidTime, piPreferredTime, Bool.false_and] at differs
  rcases List.getElem?_of_mem sourceMem with ⟨position, place⟩
  refine ⟨position, other, source, advertised, ourEntry, ?_, place, advertisedMem, differs⟩
  rintro rfl
  exact not_lifetimesDiffer_same prefixes ourPrefixes place (leaves source sourceMem).1
    (leaves source sourceMem).2 advertisedMem differs

/-- A prefix that is advertised as it is written, and the same one again with other
lifetimes for the addresses of an interface. -/
def overlapping : Ifacedef :=
  ⟨eth0, [.ifaceval (.advSendAdvert true),
    .prefixdef ⟨documentationPrefix.prefixAddr, ⟨6, [4]⟩, []⟩,
    .prefixdef ⟨documentationPrefix.prefixAddr, ⟨6, [4]⟩,
      [.advValidLifetime (.number ⟨7, [2, 0, 0]⟩), .advPreferredLifetime (.number ⟨3, [6, 0, 0]⟩),
        .base6Interface eth0]⟩]⟩

/-- The complaint of `iface` about an RA of its own. -/
def complainsOf (env : SendEnv) (iface : Interface) (complaint : Complaint) : List Bool :=
  (sendRa env false iface none).sent.map fun message =>
    decide (.flog complaint ∈ (processRa (.received message linkLocalAddr) iface).notes)

theorem exists_of_complainsOf {env : SendEnv} {iface : Interface} {complaint : Complaint}
    (complains : complainsOf env iface complaint = [true]) :
    ∃ message ∈ (sendRa env false iface none).sent,
      .flog complaint ∈ (processRa (.received message linkLocalAddr) iface).notes := by
  rcases List.map_eq_singleton_iff.mp complains with ⟨message, sent, logged⟩
  exact ⟨message, by rw [sent]; exact List.mem_singleton_self _, of_decide_eq_true logged⟩

theorem disagreement_conflicts_overlapping :
    ∃ ifaces parsed iface message complaint, readinConfig overlapping [] = .ok ifaces ∧
      parsed ∈ ifaces ∧ Run IfaceStep parsed [.setUp .ethernet] iface ∧
      message ∈ (sendRa (routerEnv ⟨0, 0⟩) false iface none).sent ∧
      .flog complaint ∈ (processRa (.received message linkLocalAddr) iface).notes ∧
      complaint.isDisagreement = true ∧
      Conflict (routerEnv ⟨0, 0⟩).kernel (agedIface (routerEnv ⟨0, 0⟩) iface none) iface
        complaint := by
  have found : (prepared overlapping).map (fun seen => decide (seen.2.stateInfo.ready = true ∧
      seen.2.stateInfo.ceaseAdv = false ∧
      complainsOf (routerEnv ⟨0, 0⟩) seen.2
        (.preferredLifetimeDisagrees documentationPrefix.prefixAddr) = [true])) = some true := by
    with_unfolding_all decide
  rcases exists_prepared found with ⟨ifaces, parsed, iface, read, member, step, seen⟩
  rw [decide_eq_true_eq] at seen
  obtain ⟨ready, running, complains⟩ := seen
  rcases exists_of_complainsOf complains with ⟨message, sent, logged⟩
  have run : Run IfaceStep parsed [.setUp .ethernet] iface := .cons step (.nil _)
  have leaves : ∀ entry ∈ (agedIface (routerEnv ⟨0, 0⟩) iface none).advPrefixList,
      (routerEnv ⟨0, 0⟩).kernel.LeavesValid (agedIface (routerEnv ⟨0, 0⟩) iface none) entry ∧
        (routerEnv ⟨0, 0⟩).kernel.LeavesPreferred (agedIface (routerEnv ⟨0, 0⟩) iface none)
          entry := by
    intro entry _
    constructor <;> exact fun _ _ known => (by cases known)
  have conflict := disagreement_conflicts read member run ready running run leaves sent
    (Memory.holds_ofBytes message) rfl logged rfl
  exact ⟨ifaces, parsed, iface, message, _, read, member, run, sent, logged, rfl, conflict⟩

/-- The second definition stands for no prefix, and still its lifetimes are
compared with those that are advertised for the first one. -/
theorem disagreement_overlapping :
    ∃ ifaces parsed iface message advertised, readinConfig overlapping [] = .ok ifaces ∧
      parsed ∈ ifaces ∧ IfaceStep parsed (.setUp .ethernet) iface ∧
      iface.stateInfo.ready = true ∧ iface.stateInfo.ceaseAdv = false ∧
      (routerEnv ⟨0, 0⟩).kernel.rtmGetaddr = none ∧
      (agedIface (routerEnv ⟨0, 0⟩) iface none).advPrefixList.map
        (advertisedPrefixes (routerEnv ⟨0, 0⟩).kernel (agedIface (routerEnv ⟨0, 0⟩) iface none)) =
          [[advertised], []] ∧
      message ∈ (sendRa (routerEnv ⟨0, 0⟩) false iface none).sent ∧
      .flog (.validLifetimeDisagrees documentationPrefix.prefixAddr) ∈
        (processRa (.received message linkLocalAddr) iface).notes := by
  have found : (prepared overlapping).map (fun seen => decide (seen.2.stateInfo.ready = true ∧
      seen.2.stateInfo.ceaseAdv = false ∧
      (agedIface (routerEnv ⟨0, 0⟩) seen.2 none).advPrefixList.map
        (advertisedPrefixes (routerEnv ⟨0, 0⟩).kernel (agedIface (routerEnv ⟨0, 0⟩) seen.2 none)) =
          [[documentationPrefix], []] ∧
      complainsOf (routerEnv ⟨0, 0⟩) seen.2
        (.validLifetimeDisagrees documentationPrefix.prefixAddr) = [true])) = some true := by
    with_unfolding_all decide
  rcases exists_prepared found with ⟨ifaces, parsed, iface, read, member, step, seen⟩
  rw [decide_eq_true_eq] at seen
  obtain ⟨ready, running, advertised, complains⟩ := seen
  rcases exists_of_complainsOf complains with ⟨message, sent, logged⟩
  exact ⟨ifaces, parsed, iface, message, _, read, member, step, ready, running, rfl, advertised,
    sent, logged⟩

end Radvd
