import Radvd.Clients

/-!
# Whom a solicitation makes the daemon address

The RAs that a router solicitation leads to: those that `process` sends, and if
it only sets the timer, those that the timer sends. They may only be addressed
to the all-hosts group or to a unicast address other than `::`.

The code looks at the source of a solicitation only where it decides on the
answer of RFC 7772. With `UnicastOnly` it answers the unspecified address, and
it addresses whatever the client list names.
-/

namespace Radvd

open Wire Tlv Access

/-- The destinations an RA may have. -/
def AllowedDest (addr : In6Addr) : Prop :=
  addr = allHostsAddr ∨ addr ≠ In6Addr.unspecified ∧ addr.isMulticast = false

instance (addr : In6Addr) : Decidable (AllowedDest addr) :=
  inferInstanceAs (Decidable (_ ∨ _))

/-- `process_rs` answers the source of the solicitation alone. -/
def Interface.AnswersUnicast (iface : Interface) (addr : In6Addr) : Bool :=
  iface.unicastOnly || (iface.advRASolicitedUnicast && addr ≠ In6Addr.unspecified)

/-- `process_rs` only sets the timer. -/
def Interface.Defers (iface : Interface) (addr : In6Addr) (now : Timespec) : Bool :=
  !iface.AnswersUnicast addr &&
    (timespecdiff now iface.times.lastMulticast : ℚ) / 1000 < iface.minDelayBetweenRAs

/-- The interval with which `process_rs` then sets the timer. -/
def Interface.deferredNext (iface : Interface) (now : Timespec) (delayRand : Rand) : ℚ :=
  iface.minDelayBetweenRAs - secondsOf now + secondsOf iface.times.lastMulticast +
    maxRaDelaySeconds * delayRand.val / randBound

/-- The interface with which `process` goes on, if it is ready or can be set up. -/
def readied (env : ProcessEnv) (iface : Interface) : Option Interface :=
  if iface.stateInfo.ready then some iface
  else
    match setupIface env.setup iface with
    | .ok (iface, 0) => some iface
    | _ => none

/-- The RAs that come of a packet: those that `process` sends and, if it has put
its answer off, those of the timer that it has set. -/
def consequences (env : ProcessEnv) (timer : TimerEnv) (packet : Packet) (daemon : Daemon) :
    List Sent :=
  let processed := (process env packet daemon).value
  match findIfaceByIndex daemon.ifaces packet.ifindex with
  | none => processed.sent
  | some (position, iface) =>
      match readied env iface with
      | none => processed.sent
      | some iface =>
          if packet.Accepted ∧ packet.Solicits ∧ iface.Defers packet.addr env.now then
            processed.sent ++ (processed.daemon.step (.timer position timer)).sent
          else processed.sent

/-- Every address that `send_ra_forall` may choose is allowed. -/
def Interface.DestsAllowed (iface : Interface) : Option In6Addr → Prop
  | some addr => iface.Answers addr = true → AllowedDest addr
  | none => ∀ client, iface.Admits client → AllowedDest client

/-- The destination with which the solicitation is answered. -/
def Interface.rsDest (iface : Interface) (addr : In6Addr) : Option In6Addr :=
  if iface.AnswersUnicast addr then some addr else none

/-! ## Destinations -/

section

variable {iface after : Interface} {warned : Bool} {dest : Option In6Addr}

theorem allowed_raDests :
    (∀ chosen ∈ raDests iface dest, AllowedDest (chosen.getD allHostsAddr)) ↔
      iface.DestsAllowed dest := by
  cases dest with
  | some addr =>
      rw [raDests_some, Interface.DestsAllowed]
      split <;> simp_all
  | none =>
      by_cases clients : iface.clientList = []
      · have vacuous : ∀ client, ¬iface.Admits client := by
          rintro client ⟨entry, listed, -⟩
          rw [clients] at listed
          cases listed
        rw [raDests_none_of_nil clients]
        split <;> simp [vacuous, AllowedDest, Interface.DestsAllowed]
      · constructor
        · intro allowed client admits
          exact allowed (some client) ((mem_raDests_of_clients clients).mpr ⟨client, rfl, admits⟩)
        · intro allowed chosen chosenMem
          rcases (mem_raDests_of_clients clients).mp chosenMem with ⟨client, rfl, admits⟩
          exact allowed client admits

theorem destsAllowed_of_config (same : after.config = iface.config)
    (allowed : iface.DestsAllowed dest) : after.DestsAllowed dest := by
  have parts : ∀ iface : Interface, iface.DestsAllowed dest = iface.config.DestsAllowed dest := by
    intro iface
    cases dest <;> rfl
  rw [parts, same, ← parts]
  exact allowed

theorem allowed_sendRaForall (setup : SetupEnv) (envs : Nat → SendEnv)
    (allowed : iface.DestsAllowed dest) :
    ∀ sent ∈ (sendRaForall setup envs warned iface dest).transmissions, AllowedDest sent.1 := by
  intro sent sentMem
  rcases chosen_of_sendRaForall sentMem with ⟨chosen, chosenMem, same⟩
  rw [same]
  apply allowed_raDests.mpr _ chosen chosenMem
  exact destsAllowed_of_config (config_sendRaForall setup envs) allowed

theorem dests_sendRas {envs : Nat → SendEnv} {index : Nat} {dests : List (Option In6Addr)}
    (survives : (sendRas envs index warned iface dests).exit = none) :
    (sendRas envs index warned iface dests).transmissions.map Prod.fst =
      dests.map fun chosen => chosen.getD allHostsAddr := by
  induction dests generalizing index warned iface with
  | nil => rfl
  | cons dest rest ih =>
      unfold sendRas at survives ⊢
      dsimp only at survives ⊢
      split at survives
      · cases survives
      · simp only [List.map_cons, ih survives]

/-- If every RA of a ready interface is sent to the end, all chosen addresses
are met. -/
theorem destsAllowed_of_sendRaForall {setup : SetupEnv} {envs : Nat → SendEnv}
    (ready : iface.stateInfo.ready = true) (unchanged : iface.stateInfo.changed = false)
    (survives : (sendRaForall setup envs warned iface dest).exit = none)
    (allowed : ∀ sent ∈ (sendRaForall setup envs warned iface dest).transmissions,
      AllowedDest sent.1) : iface.DestsAllowed dest := by
  rw [sendRaForall_of_ready ready unchanged] at survives allowed
  apply allowed_raDests.mp
  intro chosen chosenMem
  have met : chosen.getD allHostsAddr ∈ (raDests iface dest).map fun chosen =>
      chosen.getD allHostsAddr := List.mem_map_of_mem chosenMem
  rw [← dests_sendRas survives] at met
  rcases List.mem_map.mp met with ⟨sent, sentMem, same⟩
  rw [← same]
  exact allowed sent sentMem

theorem exit_rescheduled (outcome : ForallOutcome) (now : Timespec) (rand : Rand) :
    (outcome.rescheduled now rand).exit = outcome.exit := by
  unfold ForallOutcome.rescheduled
  split <;> simp_all

end

/-! ## Solicitations -/

section

variable {env : ProcessEnv} {timer : TimerEnv} {packet : Packet} {daemon : Daemon}
  {position : Nat} {iface answering : Interface}

theorem ready_of_readied (ready : readied env iface = some answering) :
    answering.stateInfo.ready = true ∧
      (iface.stateInfo.ready = false → answering.stateInfo.changed = false) := by
  unfold readied at ready
  split at ready
  · rename_i already
    cases ready
    exact ⟨already, fun fails => by rw [already] at fails; cases fails⟩
  · split at ready
    · rename_i done
      cases ready
      have state := (setupIface_setUp done).stateInfo_eq
      exact ⟨by simp [state], fun _ => by simp [state]⟩
    · cases ready

/-- What `process` makes of the interface: it answers or leaves the readied one, or
setting up has failed or has ended the program. -/
theorem value_processOn (env : ProcessEnv) (packet : Packet) (warned : Bool) (iface : Interface) :
    (∃ answering, readied env iface = some answering ∧
      (processOn env packet warned iface).value =
        if packet.Solicits then answerRs env warned answering packet.addr
        else ⟨answering, warned, [], none⟩) ∨
    (∃ after ret, setupIface env.setup iface = .ok (after, ret) ∧
      (iface.stateInfo.ready = false ∧ ret ≠ 0) ∧
      (processOn env packet warned iface).value = ⟨after, warned, [], none⟩) ∨
    ∃ exit, (processOn env packet warned iface).value = ⟨iface, warned, [], some exit⟩ := by
  unfold processOn readied
  split
  · exact .inl ⟨iface, rfl, value_processReady env packet warned iface⟩
  · rename_i unready
    rcases done : setupIface env.setup iface with exit | ⟨after, ret⟩
    · exact .inr (.inr ⟨exit, rfl⟩)
    · dsimp only
      by_cases succeeded : ret = 0
      · subst succeeded
        refine .inl ⟨after, rfl, ?_⟩
        rw [if_neg (by simp)]
        exact value_processReady env packet warned after
      · rw [if_pos succeeded]
        exact .inr (.inl ⟨after, ret, rfl, ⟨by simpa using unready, succeeded⟩, rfl⟩)

theorem value_process_of_readied (accepted : packet.Accepted) (solicits : packet.Solicits)
    (found : findIfaceByIndex daemon.ifaces packet.ifindex = some (position, iface))
    (ready : readied env iface = some answering) :
    (process env packet daemon).value =
      daemon.settle position (answerRs env daemon.warned answering packet.addr) := by
  have processed : (processOn env packet daemon.warned iface).value =
      answerRs env daemon.warned answering packet.addr := by
    unfold readied at ready
    unfold processOn
    split at ready
    · rename_i already
      cases ready
      rw [if_pos already, value_processReady, if_pos solicits]
    · rename_i unready
      split at ready
      · rename_i done
        cases ready
        rw [if_neg unready, done]
        simp only [ne_eq, not_true_eq_false, if_false]
        rw [value_processReady, if_pos solicits]
      · cases ready
  simp only [value_process, if_pos accepted, found, processed]

theorem answerRs_of_unicast {warned : Bool} {addr : In6Addr}
    (unicast : iface.AnswersUnicast addr = true) :
    answerRs env warned iface addr =
      sendRaForall env.sendSetup env.envs warned iface (some addr) := by
  simp only [Interface.AnswersUnicast] at unicast
  simp only [answerRs, unicast, if_true]

theorem answerRs_of_defers {warned : Bool} {addr : In6Addr}
    (defers : iface.Defers addr env.now = true) :
    answerRs env warned iface addr =
      ⟨rescheduleIface env.rescheduleTime iface (iface.deferredNext env.now env.delayRand),
        warned, [], none⟩ := by
  simp only [Interface.Defers, Interface.AnswersUnicast, Bool.and_eq_true, Bool.not_eq_true',
    decide_eq_true_eq] at defers
  simp only [answerRs, defers.1, defers.2, Bool.false_eq_true, if_false, if_true,
    Interface.deferredNext]

theorem answerRs_of_multicast {warned : Bool} {addr : In6Addr}
    (multicast : iface.AnswersUnicast addr = false)
    (prompt : iface.Defers addr env.now = false) :
    answerRs env warned iface addr =
      (sendRaForall env.sendSetup env.envs warned iface none).rescheduled env.rescheduleTime
        env.intervalRand := by
  simp only [Interface.Defers, multicast, Bool.not_false, Bool.true_and,
    decide_eq_false_iff_not] at prompt
  simp only [Interface.AnswersUnicast] at multicast
  simp only [answerRs, multicast, prompt, Bool.false_eq_true, if_false]

/-- Neither the answer nor the timer that it sets ends the program. -/
def SurvivesSolicitation (env : ProcessEnv) (timer : TimerEnv) (packet : Packet) (daemon : Daemon)
    (position : Nat) : Prop :=
  (process env packet daemon).value.exit = none ∧
    ((process env packet daemon).value.daemon.step (.timer position timer)).exit = none

/-- What comes of a solicitation is one call of `send_ra_forall`. -/
theorem consequences_eq (accepted : packet.Accepted) (solicits : packet.Solicits)
    (found : findIfaceByIndex daemon.ifaces packet.ifindex = some (position, iface))
    (ready : readied env iface = some answering) :
    ∃ setup envs before, before.config = answering.config ∧
      before.stateInfo = answering.stateInfo ∧
      consequences env timer packet daemon =
        (sendRaForall setup envs daemon.warned before
          (answering.rsDest packet.addr)).transmissions.map
            (fun sent => ⟨position, sent.1, sent.2⟩) ∧
      (SurvivesSolicitation env timer packet daemon position →
        (sendRaForall setup envs daemon.warned before (answering.rsDest packet.addr)).exit =
          none) := by
  have processed := value_process_of_readied accepted solicits found ready
  by_cases unicast : answering.AnswersUnicast packet.addr = true
  · have prompt : answering.Defers packet.addr env.now = false := by
      simp [Interface.Defers, unicast]
    rw [answerRs_of_unicast unicast] at processed
    refine ⟨env.sendSetup, env.envs, answering, rfl, rfl, ?_, ?_⟩
    · simp only [consequences, found, ready, prompt, Bool.false_eq_true, and_false, if_false,
        processed, Interface.rsDest, unicast, if_true]
      rfl
    · intro survives
      rw [SurvivesSolicitation, processed] at survives
      simpa only [Daemon.settle, Interface.rsDest, unicast, if_true] using survives.1
  · have multicast : answering.AnswersUnicast packet.addr = false := by simpa using unicast
    by_cases defers : answering.Defers packet.addr env.now = true
    · rw [answerRs_of_defers defers] at processed
      generalize answering.deferredNext env.now env.delayRand = next at processed
      have bound : position < daemon.ifaces.length :=
        (List.getElem?_eq_some_iff.mp (findIface_spec found).1).1
      have stepped : ((process env packet daemon).value.daemon.step (.timer position timer)) =
          (process env packet daemon).value.daemon.settle position (timerHandler timer
            daemon.warned (rescheduleIface env.rescheduleTime answering next)) := by
        simp only [processed, Daemon.step, Daemon.onIface, Daemon.settle,
          List.getElem?_set_self bound]
      refine ⟨timer.setup, timer.envs, rescheduleIface env.rescheduleTime answering next, rfl, rfl,
        ?_, ?_⟩
      · simp only [consequences, found, ready, accepted, solicits, defers, and_self, if_true,
          stepped, Interface.rsDest, multicast, Bool.false_eq_true, if_false]
        simp only [processed, Daemon.settle, List.map_nil, List.nil_append, timerHandler,
          transmissions_rescheduled]
      · intro survives
        rw [SurvivesSolicitation, stepped] at survives
        simpa only [Daemon.settle, timerHandler, exit_rescheduled, Interface.rsDest, multicast,
          Bool.false_eq_true, if_false] using survives.2
    · have prompt : answering.Defers packet.addr env.now = false := by simpa using defers
      rw [answerRs_of_multicast multicast prompt] at processed
      refine ⟨env.sendSetup, env.envs, answering, rfl, rfl, ?_, ?_⟩
      · simp only [consequences, found, ready, prompt, Bool.false_eq_true, and_false, if_false,
          processed, Interface.rsDest, multicast]
        simp only [Daemon.settle, transmissions_rescheduled]
      · intro survives
        rw [SurvivesSolicitation, processed] at survives
        simpa only [Daemon.settle, exit_rescheduled, Interface.rsDest, multicast,
          Bool.false_eq_true, if_false] using survives.1

/-- The interface only chooses allowed destinations for the answer. -/
def Interface.AddressesAllowed (iface : Interface) (addr : In6Addr) : Prop :=
  iface.advSendAdvert = true → iface.DestsAllowed (iface.rsDest addr)

/-- The RAs that come of a solicitation are all addressed to the all-hosts group
or to a unicast address other than `::` if and only if the destinations that
the interface is configured to answer are such addresses. For the converse the
program must not give up before the last of them. -/
theorem consequences_allowed_iff (accepted : packet.Accepted) (solicits : packet.Solicits)
    (found : findIfaceByIndex daemon.ifaces packet.ifindex = some (position, iface))
    (ready : readied env iface = some answering)
    (consistent : iface.stateInfo.ready = true → iface.stateInfo.changed = false) :
    (answering.AddressesAllowed packet.addr →
      ∀ sent ∈ consequences env timer packet daemon,
        answering.advSendAdvert = true → AllowedDest sent.dest) ∧
    (SurvivesSolicitation env timer packet daemon position →
      (∀ sent ∈ consequences env timer packet daemon,
        answering.advSendAdvert = true → AllowedDest sent.dest) →
      answering.AddressesAllowed packet.addr) := by
  rcases @consequences_eq env timer packet daemon position iface answering accepted solicits found
    ready with ⟨setup, envs, before, config, state, sends, ends⟩
  constructor
  · intro allowed sent sentMem advertises
    rw [sends] at sentMem
    rcases List.mem_map.mp sentMem with ⟨transmission, transmissionMem, rfl⟩
    exact allowed_sendRaForall setup envs (destsAllowed_of_config config (allowed advertises))
      transmission transmissionMem
  · intro survives allowed advertises
    have unchanged : before.stateInfo.changed = false := by
      rw [state]
      by_cases already : iface.stateInfo.ready = true
      · have same : answering = iface := by simpa [readied, already, eq_comm] using ready
        rw [same]
        exact consistent already
      · exact (ready_of_readied ready).2 (by simpa using already)
    apply destsAllowed_of_config config.symm
    apply destsAllowed_of_sendRaForall _ unchanged (ends survives)
    · intro transmission transmissionMem
      apply allowed ⟨position, transmission.1, transmission.2⟩ _ advertises
      rw [sends]
      exact List.mem_map_of_mem transmissionMem
    · rw [state]
      exact (ready_of_readied ready).1

end

/-! ## A ready interface is settled -/

section

variable {iface : Interface} {warned : Bool}

theorem coherent_rescheduled {outcome : ForallOutcome} {now : Timespec} {rand : Rand}
    (coherent : outcome.iface.Coherent) : (outcome.rescheduled now rand).iface.Coherent := by
  unfold ForallOutcome.rescheduled
  split
  · exact coherent
  · exact coherent.of_settled rfl rfl rfl

theorem coherent_sendRaForall {dest : Option In6Addr} (setup : SetupEnv) (envs : Nat → SendEnv)
    (coherent : iface.Coherent) :
    (sendRaForall setup envs warned iface dest).iface.Coherent :=
  (sentFor_sendRaForall setup envs coherent).coherent

theorem coherent_setupIfaceFoo {setup : SetupEnv} {kickoff : KickoffEnv}
    (coherent : iface.Coherent) :
    (setupIfaceFoo setup kickoff warned iface).iface.Coherent := by
  unfold setupIfaceFoo
  split
  · exact coherent
  · rename_i after ret done
    have ready := (setupIface_setUp done).coherent
    split_ifs
    · exact ready
    · exact ready
    · unfold kickoffAdverts
      dsimp only
      split
      · exact ready.of_settled rfl rfl rfl
      · have noted : ({ after with times := { after.times with
            lastRaTime := kickoff.now, lastMulticast := kickoff.multicastTime } } :
            Interface).Coherent := ready.of_settled rfl rfl rfl
        have sent := @coherent_sendRaForall _ warned none kickoff.setup kickoff.envs noted
        split
        · exact sent
        · exact sent.of_settled rfl rfl rfl

theorem coherent_answerRs {env : ProcessEnv} {addr : In6Addr} (coherent : iface.Coherent) :
    (answerRs env warned iface addr).iface.Coherent := by
  unfold answerRs
  dsimp only
  split_ifs
  · exact coherent_sendRaForall _ _ coherent
  · exact coherent.of_settled rfl rfl rfl
  · exact coherent_rescheduled (coherent_sendRaForall _ _ coherent)

theorem coherent_processOn {env : ProcessEnv} {packet : Packet} (coherent : iface.Coherent) :
    (processOn env packet warned iface).value.iface.Coherent := by
  rcases value_processOn env packet warned iface with
    ⟨answering, found, same⟩ | ⟨after, ret, done, -, same⟩ | ⟨exit, same⟩
  · have readied : answering.Coherent := by
      unfold Radvd.readied at found
      split at found
      · cases found
        exact coherent
      · split at found
        · rename_i done
          cases found
          exact (setupIface_setUp done).coherent
        · cases found
    rw [same]
    split
    · exact coherent_answerRs readied
    · exact readied
  · rw [same]
    exact (setupIface_setUp done).coherent
  · rw [same]
    exact coherent

theorem coherent_netlinkTouch {msg : NetlinkMsg} (coherent : iface.Coherent) :
    (netlinkTouch msg iface).Coherent := by
  have touched : (touchIface msg.now iface).Coherent :=
    ⟨fun ready => (by cases ready), fun ready => (by cases ready)⟩
  unfold netlinkTouch
  split
  · exact touched
  · exact touched
  · split
    · exact touched
    · exact coherent
  · split
    · exact touched
    · exact coherent
  all_goals exact coherent

/-- No step makes an interface ready that is marked as changed or whose intervals
were not accepted. -/
theorem coherent_step {daemon : Daemon} {event : DaemonEvent}
    (coherent : ∀ iface ∈ daemon.ifaces, iface.Coherent) :
    ∀ iface ∈ (daemon.step event).daemon.ifaces, iface.Coherent := by
  apply forall_step _ coherent
  cases event with
  | start position setup kickoff => exact fun iface _ => coherent_setupIfaceFoo
  | timer position env =>
      exact fun iface _ holds => coherent_rescheduled (coherent_sendRaForall _ _ holds)
  | receive packet env => exact fun _ _ iface _ => coherent_processOn
  | netlink msgs => exact fun msg _ iface => coherent_netlinkTouch
  | stop envs =>
      intro iface _ position warned holds
      unfold stopAdvertFoo
      split
      · apply coherent_sendRaForall
        exact holds.of_settled rfl rfl rfl
      · exact holds

theorem coherent_run {start last : Daemon} {events : List DaemonEvent}
    (unready : ∀ iface ∈ start.ifaces, iface.stateInfo.ready = false)
    (run : Runs.Run Daemon.Step start events last) :
    ∀ iface ∈ last.ifaces, iface.Coherent := by
  have kept : (fun daemon : Daemon => ∀ iface ∈ daemon.ifaces, iface.Coherent) last := by
    apply run.invariant
    · rintro daemon event next ⟨-, rfl⟩ coherent
      exact coherent_step coherent
    · intro iface member
      constructor
      all_goals
        intro ready
        rw [unready iface member] at ready
        cases ready
  exact kept

end

/-- A router solicitation without options. -/
def solicitation (addr : In6Addr) : Packet :=
  .received [133, 0, 0, 0, 0, 0, 0, 0] addr

theorem solicits_solicitation (addr : In6Addr) :
    (solicitation addr).Accepted ∧ (solicitation addr).Solicits := by
  have finished : (processRsWalk (solicitation addr)).2 = .finished := by
    unfold processRsWalk walk
    rfl
  exact ⟨⟨le_rfl, rfl, .inl rfl⟩, rfl, rfl, finished⟩

theorem consequences_allowed_appeared :
    (solicitation linkLocalAddr).Accepted ∧ (solicitation linkLocalAddr).Solicits ∧
      ∀ sent ∈ consequences (.ethernet ⟨100, 0⟩) (.ethernet ⟨103, 0⟩) (solicitation linkLocalAddr)
        ⟨[appeared], false⟩, AllowedDest sent.dest := by
  have both := @consequences_allowed_iff (.ethernet ⟨100, 0⟩) (.ethernet ⟨103, 0⟩)
    (solicitation linkLocalAddr) ⟨[appeared], false⟩ 0 appeared appeared
    (solicits_solicitation _).1 (solicits_solicitation _).2 rfl rfl (fun _ => rfl)
  refine ⟨(solicits_solicitation _).1, (solicits_solicitation _).2, ?_⟩
  intro sent sentMem
  apply both.1 _ sent sentMem rfl
  intro _ _
  exact .inr ⟨by decide, by decide⟩

/-- With `UnicastOnly` a solicitation from the unspecified address is answered
with an RA to that address. -/
theorem sent_unspecified :
    ∃ sent ∈ (process (.ethernet ⟨100, 0⟩) (solicitation In6Addr.unspecified)
        ⟨[{ appeared with unicastOnly := true }], false⟩).value.sent,
      sent.messages ≠ [] ∧ sent.dest = In6Addr.unspecified ∧ ¬AllowedDest sent.dest := by
  have transmits := @sendRa_transmits (routerEnv ⟨100, 0⟩) false false false
    { appeared with unicastOnly := true } (some In6Addr.unspecified) sendable_appeared.advertises
    ⟨sendable_appeared.parsed.route_prefixLen, sendable_appeared.parsed.dnssl_parsed,
      sendable_appeared.parsed.hwaddr_le, sendable_appeared.parsed.capport_length⟩
    sendable_appeared.fits sendable_appeared.small rfl (fun _ => rfl)
  have sends := @sendRaForall_of_ready { appeared with unicastOnly := true } SetupEnv.ethernet
    (fun _ => routerEnv ⟨100, 0⟩) false (some In6Addr.unspecified) rfl rfl
  have dests : raDests { appeared with unicastOnly := true } (some In6Addr.unspecified) =
      [some In6Addr.unspecified] := rfl
  have counted : countRa { appeared with unicastOnly := true } (some In6Addr.unspecified) =
      { appeared with unicastOnly := true } := rfl
  rw [dests, counted, sendRas] at sends
  simp only [transmits.1, sendRas] at sends
  have processed := @value_process_of_readied (.ethernet ⟨100, 0⟩)
    (solicitation In6Addr.unspecified) ⟨[{ appeared with unicastOnly := true }], false⟩ 0
    { appeared with unicastOnly := true } { appeared with unicastOnly := true }
    (solicits_solicitation _).1 (solicits_solicitation _).2 rfl rfl
  rw [answerRs_of_unicast rfl] at processed
  refine ⟨⟨0, In6Addr.unspecified, _⟩, ?_, transmits.2, rfl, by decide⟩
  rw [processed]
  simp only [ProcessEnv.ethernet, Daemon.settle, solicitation, Packet.received, sends]
  exact List.mem_singleton.mpr rfl

end Radvd
