import Radvd.Daemon
import Radvd.Process
import Radvd.Library.Access

/-!
# Received packets

`process` with `process_rs` and `process_ra`. All three are computations that
record the offsets of the message they read, the lines they log with `flog` and
the length of the search-list suffix that `process_ra` assembles.

The loops over the options are instances of `Access.options`; the options that
`process_ra` visits are those of `processRaWalk` (`value_processRaOption`).
-/

namespace Radvd

open Wire Tlv Access

/-- A received message. The main loop only hands messages with a positive
length and with `pkt_info` to `process`. -/
structure Packet where
  msg : Memory
  len : Nat
  addr : In6Addr
  ifindex : Nat
  hoplimit : Int

inductive Setting where
  | advCurHopLimit
  | advManagedFlag
  | advOtherConfigFlag
  | advReachableTime
  | advRetransTimer
  | advLinkMTU
  deriving DecidableEq, Repr

/-- The lines that `process`, `process_rs` and `process_ra` write with `flog`,
in the order of the source. -/
inductive Complaint where
  | invalidLength (len : Nat)
  | icmpv6FilterFailed
  | invalidRaLength (len : Nat)
  | nonLinklocalSource
  | invalidRsLength (len : Nat)
  | invalidCode (code : UInt8)
  | setupIfaceFailed
  | invalidHoplimit (hoplimit : Int)
  | trailingGarbageInRs
  | zeroLengthInRs
  | overlongInRs
  | lladdrWithUnspecifiedSource
  | disagrees (setting : Setting)
  | trailingGarbageInRa
  | zeroLengthInRa
  | overlongInRa (optlen : Nat) (len : Int)
  | validLifetimeDisagrees (prefixAddr : In6Addr)
  | preferredLifetimeDisagrees (prefixAddr : In6Addr)
  | invalidOption (type : UInt8)
  | rdnssNotAdvertised (addr : Bytes)
  | invalidRdnssLen (len : UInt8)
  | dnsslNotAdvertised (suffix : Bytes)
  | oversizedSuffix
  deriving DecidableEq, Repr

inductive ReceiveNote where
  | flog (complaint : Complaint)
  /-- `process_rs` has checked the options and now calls `send_ra_forall` or
  `reschedule_iface`. -/
  | answers
  /-- The string in the array `suffix` has this length now. -/
  | suffixLength (length : Nat)
  deriving DecidableEq, Repr

abbrev Receiving := Access ReceiveNote

def flog (complaint : Complaint) : Receiving Unit :=
  note (.flog complaint)

def flogIf (condition : Bool) (complaint : Complaint) : Receiving Unit :=
  if condition then flog complaint else pure ()

/-! ## Router solicitations -/

def ndRouterSolicit : UInt8 := 133

/-- `MAX_RA_DELAY_SECONDS`. -/
def maxRaDelaySeconds : ℚ := 1 / 2

/-- The answers of the system to one call of `process`. -/
structure ProcessEnv where
  /-- For `setup_iface`, which `process` itself calls. -/
  setup : SetupEnv
  now : Timespec
  delayRand : Rand
  /-- For `setup_iface` as `send_ra_forall` calls it. -/
  sendSetup : SetupEnv
  envs : Nat → SendEnv
  intervalRand : Rand
  rescheduleTime : Timespec

def secondsOf (t : Timespec) : ℚ :=
  t.tvSec + t.tvNsec / 1000000000

/-- The rest of `process_rs` once the options are checked. -/
def answerRs (env : ProcessEnv) (warned : Bool) (iface : Interface) (addr : In6Addr) :
    ForallOutcome :=
  let rfc7772UnicastResponse := iface.advRASolicitedUnicast && addr ≠ In6Addr.unspecified
  let delay := maxRaDelaySeconds * env.delayRand.val / randBound
  if iface.unicastOnly || rfc7772UnicastResponse then
    sendRaForall env.sendSetup env.envs warned iface (some addr)
  else if (timespecdiff env.now iface.times.lastMulticast : ℚ) / 1000 <
      iface.minDelayBetweenRAs then
    let next := iface.minDelayBetweenRAs - secondsOf env.now +
      secondsOf iface.times.lastMulticast + delay
    ⟨rescheduleIface env.rescheduleTime iface next, warned, [], none⟩
  else
    (sendRaForall env.sendSetup env.envs warned iface none).rescheduled env.rescheduleTime
      env.intervalRand

def processRsOption (mem : Memory) (addr : In6Addr) (visit : Visit) : Receiving Bool := do
  let type ← load8 mem visit.offset
  if type = ndOptSourceLinkaddr ∧ addr = In6Addr.unspecified then
    flog .lladdrWithUnspecifiedSource
    pure true
  else pure false

def processRs (env : ProcessEnv) (packet : Packet) (warned : Bool) (iface : Interface) :
    Receiving ForallOutcome := do
  let stop ← options packet.msg (processRsOption packet.msg packet.addr) 8 (packet.len - 8)
  match stop.ending with
  | .finished =>
      note .answers
      pure (answerRs env warned iface packet.addr)
  | .trailingGarbage =>
      flog .trailingGarbageInRs
      pure ⟨iface, warned, [], none⟩
  | .zeroLength =>
      flog .zeroLengthInRs
      pure ⟨iface, warned, [], none⟩
  | .overlong =>
      flog .overlongInRs
      pure ⟨iface, warned, [], none⟩
  | .returned => pure ⟨iface, warned, [], none⟩

/-! ## Router advertisements -/

/-- `addr_match`: `prefix` and the address at `offset` are compared by whole
words of 32 bits, then by the leading bits of the next word. -/
def addrMatch (mem : Memory) (prefixAddr : In6Addr) (offset prefixlen : Nat) :
    Receiving Bool := do
  let pdw := prefixlen / 32
  let pbi := prefixlen % 32
  let whole ← loadSlice mem offset (4 * pdw)
  if whole ≠ prefixAddr.toList.take (4 * pdw) then pure false
  else if pbi = 0 then pure true
  else
    let word ← load32 mem (offset + 4 * pdw)
    let own := Memory.u32 (fun index => prefixAddr.toList.getD index 0) (4 * pdw)
    pure (own.toNat / 2 ^ (32 - pbi) = word.toNat / 2 ^ (32 - pbi))

def checkPrefixLifetimes (mem : Memory) (offset : Nat) (valid preferred : UInt32) :
    List AdvPrefix → Receiving Unit
  | [] => pure ()
  | entry :: rest => do
      let prefixLen ← load8 mem (offset + 2)
      if entry.prefixLen = prefixLen then
        let same ← addrMatch mem entry.prefixAddr (offset + 16) entry.prefixLen.toNat
        if same then
          flogIf (!entry.decrementLifetimesFlag && valid ≠ entry.advValidLifetime)
            (.validLifetimeDisagrees entry.prefixAddr)
          flogIf (!entry.decrementLifetimesFlag && preferred ≠ entry.advPreferredLifetime)
            (.preferredLifetimeDisagrees entry.prefixAddr)
      checkPrefixLifetimes mem offset valid preferred rest

def checkRdnssPresence (rdnss : List AdvRDNSS) (addr : Bytes) : Bool :=
  rdnss.any fun entry => entry.advRDNSSAddr.any fun own => own.toList = addr

def checkDnsslPresence (dnssl : List AdvDNSSL) (suffix : Bytes) : Bool :=
  dnssl.any fun entry => entry.advDNSSLSuffixes.any fun own => own = suffix

/-- The loop over the addresses of an RDNSS option, of which `count` are left. -/
def checkRdnssAddrs (mem : Memory) (iface : Interface) (offset : Nat) : Nat → Receiving Unit
  | 0 => pure ()
  | count + 1 => do
      let addr ← loadSlice mem offset 16
      flogIf (!checkRdnssPresence iface.advRDNSSList addr) (.rdnssNotAdvertised addr)
      checkRdnssAddrs mem iface (offset + 16) count

/-- The loop over the suffixes of a DNSSL option and whether it returns from
`process_ra`. The array `suffix` is declared inside the loop, so every round
starts with the empty string. -/
def checkDnsslSuffixes (mem : Memory) (iface : Interface) (optStr limit : Nat) (len : Int)
    (offset : Nat) : Receiving Bool :=
  let suffix : Bytes := []
  if offset < limit then
    if (8 + offset : Int) ≥ len then pure true
    else do
      let octet ← load8 mem (optStr + 8 + offset)
      let labelLen := octet.toNat
      if labelLen = 0 then
        flogIf (suffix ≠ [] && !checkDnsslPresence iface.advDNSSLList suffix)
          (.dnsslNotAdvertised suffix)
        checkDnsslSuffixes mem iface optStr limit len (offset + 1)
      else if 256 - suffix.length < labelLen + 2 ∨ (8 + (offset + 1) + labelLen : Int) ≥ len then
        flog .oversizedSuffix
        pure false
      else
        let label ← loadString mem (optStr + 8 + offset + 1) labelLen
        let suffix := if suffix ≠ [] then suffix ++ [0x2e] ++ label else label
        note (.suffixLength suffix.length)
        checkDnsslSuffixes mem iface optStr limit len (offset + 1 + labelLen)
  else pure false
termination_by limit - offset

def processRaMtu (mem : Memory) (iface : Interface) (visit : Visit) : Receiving Bool :=
  if visit.len < 8 then pure true
  else if iface.advLinkMTU = 0 then pure false
  else do
    let mtu ← load32 mem (visit.offset + 4)
    flogIf (mtu ≠ iface.advLinkMTU) (.disagrees .advLinkMTU)
    pure false

def processRaPrefix (mem : Memory) (iface : Interface) (visit : Visit) : Receiving Bool :=
  if visit.len < 32 then pure true
  else do
    let preferred ← load32 mem (visit.offset + 8)
    let valid ← load32 mem (visit.offset + 4)
    checkPrefixLifetimes mem visit.offset valid preferred iface.advPrefixList
    pure false

def processRaRdnss (mem : Memory) (iface : Interface) (visit : Visit) : Receiving Bool :=
  if visit.len < 8 then pure true
  else do
    let length ← load8 mem (visit.offset + 1)
    if 3 ≤ length ∧ length % 2 = 1 then
      checkRdnssAddrs mem iface (visit.offset + 8) ((length.toNat - 1) / 2)
    else flog (.invalidRdnssLen length)
    pure false

def processRaDnssl (mem : Memory) (iface : Interface) (visit : Visit) : Receiving Bool :=
  if visit.len < 8 then pure true
  else do
    let length ← load8 mem (visit.offset + 1)
    checkDnsslSuffixes mem iface visit.offset ((length.toNat - 1) * 8) visit.len 0

/-- One round of the loop of `process_ra` over the options. -/
def processRaOption (mem : Memory) (iface : Interface) (visit : Visit) : Receiving Bool := do
  let type ← load8 mem visit.offset
  if type = ndOptMtu then processRaMtu mem iface visit
  else if type = ndOptPrefixInformation then processRaPrefix mem iface visit
  else if type = ndOptRdnssInformation then processRaRdnss mem iface visit
  else if type = ndOptDnsslInformation then processRaDnssl mem iface visit
  else
    flogIf (type = ndOptTargetLinkaddr || type = ndOptRedirectedHeader) (.invalidOption type)
    pure false

theorem value_checkDnsslSuffixes (mem : Memory) (iface : Interface) (optStr limit : Nat)
    (len : Int) (offset : Nat) :
    (checkDnsslSuffixes mem iface optStr limit len offset).value =
      dnsslReturns mem optStr limit len offset := by
  fun_induction dnsslReturns mem optStr limit len offset with
  | case1 offset before outside =>
      unfold checkDnsslSuffixes
      simp [before, outside]
  | case2 offset before inside labelLen zero ih =>
      unfold checkDnsslSuffixes
      simp only [labelLen] at zero
      simp [before, inside, zero, ih]
  | case3 offset before inside labelLen nonzero oversized =>
      unfold checkDnsslSuffixes
      simp only [labelLen] at nonzero oversized
      simp only [before, inside, nonzero, oversized, if_true, if_false, value_bind, value_load8,
        List.length_nil, Nat.sub_zero, value_pure]
  | case4 offset before inside labelLen nonzero fits ih =>
      unfold checkDnsslSuffixes
      simp only [labelLen] at nonzero fits ih
      simp only [before, inside, nonzero, fits, if_true, if_false, value_bind, value_load8,
        List.length_nil, Nat.sub_zero, ih, labelLen]
  | case5 offset after =>
      unfold checkDnsslSuffixes
      simp [after]

/-- The loop over the options returns from `process_ra` where the walk says. -/
theorem value_processRaOption (mem : Memory) (iface : Interface) (visit : Visit) :
    (processRaOption mem iface visit).value = processRaReturns mem visit := by
  have mtu : (processRaMtu mem iface visit).value = decide (visit.len < 8) := by
    unfold processRaMtu
    split_ifs <;> simp_all
  have prefixInfo : (processRaPrefix mem iface visit).value = decide (visit.len < 32) := by
    unfold processRaPrefix
    split_ifs <;> simp_all
  have rdnss : (processRaRdnss mem iface visit).value = decide (visit.len < 8) := by
    unfold processRaRdnss
    split_ifs <;> simp_all
  have dnssl : (processRaDnssl mem iface visit).value =
      (decide (visit.len < 8) || dnsslReturns mem visit.offset
        (((mem (visit.offset + 1)).toNat - 1) * 8) visit.len 0) := by
    unfold processRaDnssl
    split_ifs <;> simp_all [value_checkDnsslSuffixes]
  simp only [processRaOption, processRaReturns, value_bind, value_load8, value_ite, mtu,
    prefixInfo, rdnss, dnssl, value_pure]

def processRa (packet : Packet) (iface : Interface) : Receiving Unit := do
  let header := iface.raHeaderInfo
  let curhoplimit ← load8 packet.msg 4
  flogIf (curhoplimit ≠ 0 && header.advCurHopLimit ≠ 0 && curhoplimit ≠ header.advCurHopLimit)
    (.disagrees .advCurHopLimit)
  let flags ← load8 packet.msg 5
  flogIf (flags &&& ndRaFlagManaged ≠ 0 && !header.advManagedFlag) (.disagrees .advManagedFlag)
  flogIf (flags &&& ndRaFlagOther ≠ 0 && !header.advOtherConfigFlag)
    (.disagrees .advOtherConfigFlag)
  let reachable ← load32 packet.msg 8
  flogIf (reachable ≠ 0 && header.advReachableTime ≠ 0 && reachable ≠ header.advReachableTime)
    (.disagrees .advReachableTime)
  let retransmit ← load32 packet.msg 12
  flogIf (retransmit ≠ 0 && header.advRetransTimer ≠ 0 && retransmit ≠ header.advRetransTimer)
    (.disagrees .advRetransTimer)
  let stop ← options packet.msg (processRaOption packet.msg iface) 16 (packet.len - 16)
  match stop.ending with
  | .trailingGarbage => flog .trailingGarbageInRa
  | .zeroLength => flog .zeroLengthInRa
  | .overlong => flog (.overlongInRa stop.optlen stop.len)
  | _ => pure ()

/-! ## All packets -/

/-- `process` from the point on at which the interface is ready. -/
def processReady (env : ProcessEnv) (packet : Packet) (warned : Bool) (iface : Interface) :
    Receiving ForallOutcome := do
  if packet.hoplimit ≠ 255 then
    flog (.invalidHoplimit packet.hoplimit)
    pure ⟨iface, warned, [], none⟩
  else
    let type ← load8 packet.msg 0
    if type = ndRouterSolicit then processRs env packet warned iface
    else
      processRa packet iface
      pure ⟨iface, warned, [], none⟩

/-- `process` once the interface is found. -/
def processOn (env : ProcessEnv) (packet : Packet) (warned : Bool) (iface : Interface) :
    Receiving ForallOutcome :=
  if iface.stateInfo.ready then processReady env packet warned iface
  else
    match setupIface env.setup iface with
    | .error exit => pure ⟨iface, warned, [], some exit⟩
    | .ok (iface, ret) =>
        if ret ≠ 0 then do
          flog .setupIfaceFailed
          pure ⟨iface, warned, [], none⟩
        else processReady env packet warned iface

def process (env : ProcessEnv) (packet : Packet) (daemon : Daemon) : Receiving DaemonOutcome := do
  if packet.len < 8 then
    flog (.invalidLength packet.len)
    return .unchanged daemon
  let type ← load8 packet.msg 0
  if type ≠ ndRouterSolicit ∧ type ≠ ndRouterAdvert then
    flog .icmpv6FilterFailed
    return .unchanged daemon
  if type = ndRouterAdvert ∧ packet.len < 16 then
    flog (.invalidRaLength packet.len)
    return .unchanged daemon
  if type = ndRouterAdvert ∧ !packet.addr.isLinklocal then
    flog .nonLinklocalSource
    return .unchanged daemon
  if type = ndRouterSolicit ∧ packet.len < 8 then
    flog (.invalidRsLength packet.len)
    return .unchanged daemon
  let code ← load8 packet.msg 1
  if code ≠ 0 then
    flog (.invalidCode code)
    return .unchanged daemon
  match findIfaceByIndex daemon.ifaces packet.ifindex with
  | none => return .unchanged daemon
  | some (position, iface) =>
      let outcome ← processOn env packet daemon.warned iface
      return daemon.settle position outcome

/-! ## What comes of a packet -/

/-- The walk of `process_rs` over the options of a solicitation. -/
def processRsWalk (packet : Packet) : List Visit × End :=
  walk packet.msg (fun visit => packet.msg visit.offset = ndOptSourceLinkaddr &&
    packet.addr = In6Addr.unspecified) 8 (packet.len - 8)

/-- A packet that gets past the checks before the interface is looked up. -/
def Packet.Accepted (packet : Packet) : Prop :=
  8 ≤ packet.len ∧ packet.msg 1 = 0 ∧
    (packet.msg 0 = ndRouterSolicit ∨
      packet.msg 0 = ndRouterAdvert ∧ 16 ≤ packet.len ∧ packet.addr.isLinklocal = true)

theorem Packet.accepted_of_checks {packet : Packet} (short : ¬packet.len < 8)
    (filter : ¬(packet.msg 0 ≠ ndRouterSolicit ∧ packet.msg 0 ≠ ndRouterAdvert))
    (shortRa : ¬(packet.msg 0 = ndRouterAdvert ∧ packet.len < 16))
    (source : ¬(packet.msg 0 = ndRouterAdvert ∧ (!packet.addr.isLinklocal) = true))
    (code : ¬packet.msg 1 ≠ 0) : packet.Accepted := by
  refine ⟨by omega, by simpa using code, ?_⟩
  by_cases solicit : packet.msg 0 = ndRouterSolicit
  · exact .inl solicit
  · have advert : packet.msg 0 = ndRouterAdvert := by_contra fun other => filter ⟨solicit, other⟩
    exact .inr ⟨advert, by_contra fun few => shortRa ⟨advert, by omega⟩,
      by_contra fun foreign => source ⟨advert, by simpa using foreign⟩⟩

/-- A packet that `process_rs` answers. -/
def Packet.Solicits (packet : Packet) : Prop :=
  packet.hoplimit = 255 ∧ packet.msg 0 = ndRouterSolicit ∧ (processRsWalk packet).2 = .finished

instance (packet : Packet) : Decidable packet.Accepted :=
  inferInstanceAs (Decidable (_ ∧ _))

instance (packet : Packet) : Decidable packet.Solicits :=
  inferInstanceAs (Decidable (_ ∧ _))

section

variable (env : ProcessEnv) (packet : Packet) (warned : Bool) (iface : Interface)

theorem ending_processRs :
    (options packet.msg (processRsOption packet.msg packet.addr) 8
      (packet.len - 8)).value.ending = (processRsWalk packet).2 := by
  have body : (fun visit => (processRsOption packet.msg packet.addr visit).value) =
      fun visit => decide (packet.msg visit.offset = ndOptSourceLinkaddr) &&
        decide (packet.addr = In6Addr.unspecified) := by
    funext visit
    by_cases option : packet.msg visit.offset = ndOptSourceLinkaddr ∧
        packet.addr = In6Addr.unspecified
    · simp [processRsOption, option]
    · simp only [processRsOption, value_bind, value_load8, value_pure, option, if_false]
      simpa using option
  rw [value_options, body]
  rfl

theorem value_processRs :
    (processRs env packet warned iface).value =
      if (processRsWalk packet).2 = .finished then answerRs env warned iface packet.addr
      else ⟨iface, warned, [], none⟩ := by
  simp only [processRs, value_bind, ending_processRs]
  cases (processRsWalk packet).2 <;> simp

theorem value_processReady :
    (processReady env packet warned iface).value =
      if packet.Solicits then answerRs env warned iface packet.addr
      else ⟨iface, warned, [], none⟩ := by
  simp only [processReady, value_ite, value_bind, value_load8, value_processRs, value_pure,
    Packet.Solicits]
  split_ifs <;> simp_all

theorem value_process (daemon : Daemon) :
    (process env packet daemon).value =
      if packet.Accepted then
        match findIfaceByIndex daemon.ifaces packet.ifindex with
        | none => .unchanged daemon
        | some (position, iface) =>
            daemon.settle position (processOn env packet daemon.warned iface).value
      else .unchanged daemon := by
  by_cases accepted : packet.Accepted
  · rw [if_pos accepted]
    rcases accepted with ⟨long, code, solicit | ⟨advert, longRa, source⟩⟩
    · have notAdvert : ndRouterSolicit ≠ ndRouterAdvert := by decide
      have notShort : ¬packet.len < 8 := by omega
      simp only [process, value_bind, value_load8, solicit, code, notShort, notAdvert, ne_eq,
        not_true_eq_false, false_and, and_false, if_false]
      split <;> simp
    · have notSolicit : ndRouterAdvert ≠ ndRouterSolicit := by decide
      have notShort : ¬packet.len < 8 := by omega
      have notShortRa : ¬packet.len < 16 := by omega
      simp only [process, value_bind, value_load8, advert, code, source, notShort, notShortRa,
        notSolicit, Bool.not_true, Bool.false_eq_true, ne_eq, not_true_eq_false, and_false,
        if_false]
      split <;> simp
  · rw [if_neg accepted]
    simp only [process, value_ite, value_bind, value_load8, value_pure]
    split_ifs with short filter shortRa source shortRs code
    all_goals try rfl
    exact absurd (Packet.accepted_of_checks short filter shortRa source code) accepted

end

end Radvd
