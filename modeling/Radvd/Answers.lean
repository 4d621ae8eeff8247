import Radvd.Solicited

/-!
# Which packets are answered

`process` spreads its checks over two functions and a loop that leaves at the
first option it does not like. Together they accept a grammar: an ICMPv6 header
of a router solicitation, followed by options that announce their lengths and
use up the message, none of which is a link-layer address if the source is
unspecified. Exactly the packets of this grammar are answered
(`process_answers_iff`).
-/

namespace Radvd

open Wire Tlv Access

/-- A router solicitation as it should be. -/
structure Packet.ValidSolicitation (packet : Packet) : Prop where
  type_eq : packet.msg 0 = ndRouterSolicit
  code_eq : packet.msg 1 = 0
  len_ge : 8 ≤ packet.len
  hoplimit_eq : packet.hoplimit = 255
  options : ∃ blocks : List Bytes, (∀ block ∈ blocks, WellFormed block) ∧
    packet.msg.slice 8 (packet.len - 8) = blocks.flatten ∧
    ¬(packet.addr = In6Addr.unspecified ∧
      ∃ block ∈ blocks, block.getD 0 0 = ndOptSourceLinkaddr)

/-! ## The grammar of the options -/

theorem processRsWalk_finished_iff {packet : Packet} (long : 8 ≤ packet.len) :
    (processRsWalk packet).2 = .finished ↔
      ∃ blocks : List Bytes, (∀ block ∈ blocks, WellFormed block) ∧
        packet.msg.slice 8 (packet.len - 8) = blocks.flatten ∧
        ¬(packet.addr = In6Addr.unspecified ∧
          ∃ block ∈ blocks, block.getD 0 0 = ndOptSourceLinkaddr) := by
  have total : (packet.len : Int) - 8 = (packet.len - 8 : Nat) := by omega
  unfold processRsWalk
  rw [total, walk_finished_iff]
  apply exists_congr
  intro blocks
  apply and_congr_right
  intro wellFormed
  apply and_congr_right
  intro sliced
  have stored : packet.msg.Holds 8 blocks.flatten := by
    have length : blocks.flatten.length = packet.len - 8 := by rw [← sliced, Memory.length_slice]
    rw [Memory.holds_iff_slice, length, sliced]
  have visited := @forall_visits_iff packet.msg blocks 8 ((packet.len - 8 : Nat) : Int)
    (fun octet => ¬(octet = ndOptSourceLinkaddr ∧ packet.addr = In6Addr.unspecified)) wellFormed
    stored
  simp only [Bool.and_eq_false_iff, decide_eq_false_iff_not, ← not_and_or]
  rw [visited]
  constructor
  · rintro none ⟨unspecified, block, member, linkaddr⟩
    exact none block member ⟨linkaddr, unspecified⟩
  · rintro none block member ⟨linkaddr, unspecified⟩
    exact none ⟨unspecified, block, member, linkaddr⟩

theorem Packet.validSolicitation_iff {packet : Packet} :
    packet.ValidSolicitation ↔ packet.Accepted ∧ packet.Solicits := by
  constructor
  · intro valid
    refine ⟨⟨valid.len_ge, valid.code_eq, .inl valid.type_eq⟩, valid.hoplimit_eq, valid.type_eq, ?_⟩
    exact (processRsWalk_finished_iff valid.len_ge).mpr valid.options
  · rintro ⟨⟨long, code, -⟩, hoplimit, type, finished⟩
    exact ⟨type, code, long, hoplimit, (processRsWalk_finished_iff long).mp finished⟩

/-! ## What is not an answer -/

def Complaint.isForeignSuffix : Complaint → Bool
  | .dnsslNotAdvertised _ => true
  | _ => false

/-- What holds of the reads and of everything that `process_ra` notes. It never
complains of a suffix. -/
structure HoldsOfRa (holds : Event ReceiveNote → Prop) : Prop where
  read : ∀ offset, holds (.read offset)
  suffixLength : ∀ length, holds (.note (.suffixLength length))
  flog : ∀ complaint, complaint.isForeignSuffix = false → holds (.note (.flog complaint))

section

variable {mem : Memory} {iface : Interface} {holds : Event ReceiveNote → Prop}

theorem HoldsOfRa.flogIf (ofRa : HoldsOfRa holds) (condition : Bool) {complaint : Complaint}
    (usual : complaint.isForeignSuffix = false) : (flogIf condition complaint).All holds := by
  unfold Radvd.flogIf Radvd.flog
  split
  · rw [all_note]
    exact ofRa.flog complaint usual
  · exact all_pure ()

/-- Each label starts a string of its own, and the string is empty again when the
suffix ends. -/
theorem holds_checkDnsslSuffixes {optStr limit offset : Nat} {len : Int}
    (read : ∀ offset, holds (.read offset))
    (suffixLength : ∀ length, holds (.note (.suffixLength length)))
    (oversized : holds (.note (.flog .oversizedSuffix))) :
    (checkDnsslSuffixes mem iface optStr limit len offset).All holds := by
  fun_induction dnsslReturns mem optStr limit len offset with
  | case1 offset before outside =>
      unfold checkDnsslSuffixes
      simp [before, outside]
  | case2 offset before within labelLen zero ih =>
      unfold checkDnsslSuffixes
      simp only [labelLen] at zero
      simp [before, within, zero, ih, read, flogIf]
  | case3 offset before within labelLen nonzero large =>
      unfold checkDnsslSuffixes
      simp only [labelLen] at nonzero large
      simp only [before, within, nonzero, large, if_true, if_false, all_bind, all_load8, read,
        value_load8, List.length_nil, Nat.sub_zero, flog, all_note, oversized, all_pure, and_self]
  | case4 offset before within labelLen nonzero fits ih =>
      unfold checkDnsslSuffixes
      simp only [labelLen] at nonzero fits ih
      simp only [before, within, nonzero, fits, if_true, if_false, all_bind, all_load8, read,
        value_load8, List.length_nil, Nat.sub_zero, all_loadString, ih, all_note, suffixLength,
        implies_true, and_self]
  | case5 offset after =>
      unfold checkDnsslSuffixes
      simp [after]

theorem holds_options {body : Visit → Receiving Bool} {offset : Nat} {len : Int}
    (read : ∀ offset, holds (.read offset)) (all : ∀ visit, (body visit).All holds) :
    (options mem body offset len).All holds := by
  have limit : (offset : Int) + len ≤ ((offset + len).toNat : Int) := by omega
  apply (all_options limit fun offset _ => read offset).mpr
  exact fun visit _ => all visit

theorem holds_addrMatch (read : ∀ offset, holds (.read offset)) (prefixAddr : In6Addr)
    (offset prefixlen : Nat) : (addrMatch mem prefixAddr offset prefixlen).All holds := by
  simp [addrMatch, read]

theorem HoldsOfRa.checkPrefixLifetimes (ofRa : HoldsOfRa holds) {offset : Nat}
    {valid preferred : UInt32} {entries : List AdvPrefix} :
    (checkPrefixLifetimes mem offset valid preferred entries).All holds := by
  induction entries with
  | nil => exact all_pure ()
  | cons entry rest ih =>
      have differs : ∀ condition,
          (Radvd.flogIf condition (.validLifetimeDisagrees entry.prefixAddr)).All holds ∧
            (Radvd.flogIf condition (.preferredLifetimeDisagrees entry.prefixAddr)).All holds :=
        fun condition => ⟨ofRa.flogIf condition rfl, ofRa.flogIf condition rfl⟩
      unfold Radvd.checkPrefixLifetimes
      simp [ih, ofRa.read, holds_addrMatch ofRa.read, differs]

theorem HoldsOfRa.checkRdnssAddrs (ofRa : HoldsOfRa holds) {offset count : Nat} :
    (checkRdnssAddrs mem iface offset count).All holds := by
  induction count generalizing offset with
  | zero => exact all_pure ()
  | succ count ih =>
      unfold Radvd.checkRdnssAddrs
      simp only [all_bind, all_loadSlice, ofRa.read, implies_true, value_loadSlice, ih, and_true,
        true_and]
      exact ofRa.flogIf _ rfl

theorem HoldsOfRa.processRaOption (ofRa : HoldsOfRa holds) (visit : Visit) :
    (processRaOption mem iface visit).All holds := by
  have mtu : (processRaMtu mem iface visit).All holds := by
    unfold processRaMtu
    split_ifs
    · apply all_pure
    · apply all_pure
    · simp only [all_bind, all_load32, ofRa.read, implies_true, all_pure, and_true, true_and]
      exact ofRa.flogIf _ rfl
  have prefixInfo : (processRaPrefix mem iface visit).All holds := by
    unfold processRaPrefix
    split_ifs
    · apply all_pure
    · simp [ofRa.read, ofRa.checkPrefixLifetimes]
  have rdnss : (processRaRdnss mem iface visit).All holds := by
    unfold processRaRdnss
    split_ifs
    · apply all_pure
    · have invalid : ∀ length, holds (.note (.flog (.invalidRdnssLen length))) :=
        fun length => ofRa.flog _ rfl
      simp [ofRa.read, ofRa.checkRdnssAddrs, Radvd.flog, invalid]
  have dnssl : (processRaDnssl mem iface visit).All holds := by
    unfold processRaDnssl
    split_ifs
    · apply all_pure
    · simp only [all_bind, all_load8, ofRa.read, true_and]
      exact holds_checkDnsslSuffixes ofRa.read ofRa.suffixLength (ofRa.flog _ rfl)
  have invalid : ∀ condition type, (Radvd.flogIf condition (.invalidOption type)).All holds :=
    fun condition type => ofRa.flogIf condition rfl
  unfold Radvd.processRaOption
  simp [ofRa.read, mtu, prefixInfo, rdnss, dnssl, invalid]

theorem HoldsOfRa.processRa (ofRa : HoldsOfRa holds) (packet : Packet) :
    (processRa packet iface).All holds := by
  have walked : (options packet.msg (Radvd.processRaOption packet.msg iface) 16
      (packet.len - 16)).All holds := holds_options ofRa.read ofRa.processRaOption
  have disagrees : ∀ condition setting, (Radvd.flogIf condition (.disagrees setting)).All holds :=
    fun condition setting => ofRa.flogIf condition rfl
  unfold Radvd.processRa
  simp only [all_bind, all_load8, all_load32, ofRa.read, disagrees, walked, implies_true, true_and]
  split
  · exact (all_note _).mpr (ofRa.flog _ rfl)
  · exact (all_note _).mpr (ofRa.flog _ rfl)
  · exact (all_note _).mpr (ofRa.flog _ rfl)
  · apply all_pure

end

/-- An event other than an answer. -/
def Quiet (event : Event ReceiveNote) : Prop :=
  event ≠ .note .answers

@[simp]
theorem quiet_read (offset : Nat) : Quiet (.read offset) := by
  simp [Quiet]

@[simp]
theorem quiet_flog (complaint : Complaint) : Quiet (.note (.flog complaint)) := by
  simp [Quiet]

theorem quiet_holdsOfRa : HoldsOfRa Quiet :=
  ⟨quiet_read, fun _ => by simp [Quiet], fun complaint _ => quiet_flog complaint⟩

theorem answers_notMem_notes {α : Type} {computation : Receiving α}
    (quiet : computation.All Quiet) : ReceiveNote.answers ∉ computation.notes := by
  intro answers
  rcases List.mem_filterMap.mp answers with ⟨event, member, isAnswer⟩
  cases event with
  | read offset => cases isAnswer
  | note what =>
      cases isAnswer
      exact quiet _ member rfl

section

variable {mem : Memory} {iface : Interface}

/-! ## What is -/

theorem answers_mem_processRs {env : ProcessEnv} {packet : Packet} {warned : Bool} :
    ReceiveNote.answers ∈ (processRs env packet warned iface).notes ↔
      (processRsWalk packet).2 = .finished := by
  have quiet : ∀ visit, (processRsOption packet.msg packet.addr visit).All Quiet := by
    intro visit
    simp [processRsOption, flog]
  have walked := answers_notMem_notes 
    (@holds_options packet.msg _ _ 8 (packet.len - 8) quiet_read quiet)
  simp only [processRs, notes_bind, List.mem_append, walked, false_or, ending_processRs]
  cases (processRsWalk packet).2 <;> simp [flog]

theorem answers_mem_processReady {env : ProcessEnv} {packet : Packet} {warned : Bool} :
    ReceiveNote.answers ∈ (processReady env packet warned iface).notes ↔ packet.Solicits := by
  have advert := answers_notMem_notes (@HoldsOfRa.processRa iface _ quiet_holdsOfRa packet)
  unfold Packet.Solicits
  simp only [processReady, notes_ite, notes_bind, notes_load8, value_load8, notes_pure,
    List.nil_append, List.append_nil]
  split_ifs with hoplimit solicit
  · simp [hoplimit, flog]
  · simp only [not_not] at hoplimit
    simp only [answers_mem_processRs, solicit, hoplimit, true_and]
  · simp only [advert, solicit, false_and, and_false]

end

/-! ## All packets -/

theorem exists_findIfaceByIndex {ifaces : List Interface} {index : Nat} :
    (∃ position iface, findIfaceByIndex ifaces index = some (position, iface)) ↔
      ∃ iface ∈ ifaces, iface.props.ifIndex = index := by
  constructor
  · rintro ⟨position, iface, found⟩
    have spec := findIface_spec found
    exact ⟨iface, List.mem_of_getElem? spec.1, by simpa using spec.2⟩
  · rintro ⟨iface, member, same⟩
    rcases found : findIfaceByIndex ifaces index with _ | ⟨position, first⟩
    · simp only [findIfaceByIndex, findIface, Option.map_eq_none_iff, List.find?_eq_none] at found
      rcases List.getElem?_of_mem member with ⟨position, placed⟩
      have listed : (iface, position) ∈ ifaces.zipIdx := List.mem_zipIdx_iff_getElem?.mpr placed
      exact absurd same (by simpa using found _ listed)
    · exact ⟨position, first, rfl⟩

theorem settle_unchanged {daemon : Daemon} {position : Nat} {iface : Interface}
    (found : daemon.ifaces[position]? = some iface) :
    daemon.settle position ⟨iface, daemon.warned, [], none⟩ = .unchanged daemon := by
  unfold Daemon.settle DaemonOutcome.unchanged
  rw [set_of_getElem? found]
  rfl

theorem answers_mem_process {env : ProcessEnv} {packet : Packet} {daemon : Daemon} :
    ReceiveNote.answers ∈ (process env packet daemon).notes ↔
      packet.Accepted ∧ ∃ position iface,
        findIfaceByIndex daemon.ifaces packet.ifindex = some (position, iface) ∧
        ReceiveNote.answers ∈ (processOn env packet daemon.warned iface).notes := by
  by_cases accepted : packet.Accepted
  · simp only [accepted, true_and]
    rcases accepted with ⟨long, code, solicit | ⟨advert, longRa, source⟩⟩
    · have notAdvert : ndRouterSolicit ≠ ndRouterAdvert := by decide
      have notShort : ¬packet.len < 8 := by omega
      simp only [process, notes_bind, notes_load8, value_load8, solicit, code, notShort,
        notAdvert, ne_eq, not_true_eq_false, false_and, and_false, if_false, List.nil_append]
      rcases findIfaceByIndex daemon.ifaces packet.ifindex with _ | ⟨position, iface⟩ <;> simp
    · have notSolicit : ndRouterAdvert ≠ ndRouterSolicit := by decide
      have notShort : ¬packet.len < 8 := by omega
      have notShortRa : ¬packet.len < 16 := by omega
      simp only [process, notes_bind, notes_load8, value_load8, advert, code, source, notShort,
        notShortRa, notSolicit, Bool.not_true, Bool.false_eq_true, ne_eq, not_true_eq_false,
        and_false, if_false, List.nil_append]
      rcases findIfaceByIndex daemon.ifaces packet.ifindex with _ | ⟨position, iface⟩ <;> simp
  · have quiet : (process env packet daemon).All Quiet := by
      unfold process
      simp only [all_ite, all_bind, all_load8, quiet_read, value_load8, flog, all_note, quiet_flog,
        all_pure, true_and, and_self]
      split_ifs with short filter shortRa source shortRs code
      exact absurd (Packet.accepted_of_checks short filter shortRa source code) accepted
    simp only [accepted, false_and, answers_notMem_notes quiet]

section

variable {env : ProcessEnv} {packet : Packet} {daemon : Daemon}

theorem value_process_of_answers {position : Nat} {iface : Interface}
    (found : findIfaceByIndex daemon.ifaces packet.ifindex = some (position, iface))
    (ready : iface.stateInfo.ready = true) (valid : packet.ValidSolicitation) :
    (process env packet daemon).value =
      daemon.settle position (answerRs env daemon.warned iface packet.addr) := by
  rw [Packet.validSolicitation_iff] at valid
  simp only [value_process, if_pos valid.1, found, processOn, if_pos ready, value_processReady,
    if_pos valid.2]

theorem value_process_of_ignores
    (ready : ∀ position iface,
      findIfaceByIndex daemon.ifaces packet.ifindex = some (position, iface) →
        iface.stateInfo.ready = true)
    (ignores : ¬(packet.ValidSolicitation ∧
      ∃ iface ∈ daemon.ifaces, iface.props.ifIndex = packet.ifindex)) :
    (process env packet daemon).value = .unchanged daemon := by
  rw [Packet.validSolicitation_iff, ← exists_findIfaceByIndex] at ignores
  rw [value_process]
  split_ifs with accepted
  · rcases found : findIfaceByIndex daemon.ifaces packet.ifindex with _ | ⟨position, iface⟩
    · rfl
    · have other : ¬packet.Solicits := by
        intro solicits
        exact ignores ⟨⟨accepted, solicits⟩, position, iface, found⟩
      simp only [processOn, if_pos (ready position iface found), value_processReady, if_neg other]
      exact settle_unchanged (findIface_spec found).1
  · rfl

end

end Radvd
