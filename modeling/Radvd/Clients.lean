import Radvd.Config
import Radvd.ReceiveBounds

/-!
# The client list as an access-control list

Whom an interface sends RAs to. `raDests` chooses the destinations from the
client list; every handler of the daemon sends to what it chooses, either for
no destination in particular or for the source of the solicitation that is
answered (`Handled`).

Over a whole run an interface with clients sends only to those of them that are
not to be ignored, or to an unlisted solicitor with `UnrestrictedUnicast`
(`sent_admitted`). The list is taken as it is written: it may name the
all-hosts group itself.
-/

namespace Radvd

open Wire Tlv Access Runs

/-- The address has an entry in the client list. -/
def Interface.Lists (iface : Interface) (addr : In6Addr) : Prop :=
  ∃ client ∈ iface.clientList, client.address = addr

/-- The address has an entry in the client list that is not to be ignored. -/
def Interface.Admits (iface : Interface) (addr : In6Addr) : Prop :=
  ∃ client ∈ iface.clientList, client.address = addr ∧ client.ignored = false

instance (iface : Interface) (addr : In6Addr) : Decidable (iface.Lists addr) :=
  inferInstanceAs (Decidable (∃ client ∈ iface.clientList, _))

instance (iface : Interface) (addr : In6Addr) : Decidable (iface.Admits addr) :=
  inferInstanceAs (Decidable (∃ client ∈ iface.clientList, _))

/-! ## The loop over the clients -/

section

variable {clients : List Clients} {iface : Interface} {addr : In6Addr} {chosen : Option In6Addr}

/-- Without a destination the loop sends to every entry that is not ignored. -/
theorem mem_clientDests_none :
    chosen ∈ (clientDests none clients).1 ↔
      ∃ client ∈ clients, chosen = some client.address ∧ client.ignored = false := by
  induction clients with
  | nil => simp [clientDests]
  | cons current rest ih =>
      by_cases ignored : current.ignored = true
      · simp [clientDests, ignored, ih]
      · simp [clientDests, ignored, ih]

/-- With a destination the first entry for it decides. -/
theorem clientDests_some (clients : List Clients) (addr : In6Addr) :
    clientDests (some addr) clients =
      match clients.find? fun client => client.address = addr with
      | none => ([], false)
      | some client => (if client.ignored then [] else [some addr], true) := by
  induction clients with
  | nil => rfl
  | cons current rest ih =>
      by_cases same : current.address = addr
      · cases ignored : current.ignored <;> simp [clientDests, same, ignored]
      · have other : ¬addr = current.address := fun equal => same equal.symm
        simp [clientDests, same, other, ih]

theorem mem_raDests_of_clients (clients : iface.clientList ≠ []) :
    chosen ∈ raDests iface none ↔ ∃ addr, chosen = some addr ∧ iface.Admits addr := by
  simp only [raDests, clients, if_false, decide_true, Bool.or_true, if_true,
    mem_clientDests_none, Interface.Admits]
  constructor
  · rintro ⟨client, listed, rfl, heard⟩
    exact ⟨client.address, rfl, client, listed, rfl, heard⟩
  · rintro ⟨addr, rfl, client, listed, rfl, heard⟩
    exact ⟨client, listed, rfl, heard⟩

/-- A given destination of an interface with clients gets an RA if the first
entry for it is not to be ignored, or if there is none and
`UnrestrictedUnicast` is on. -/
def Interface.Answers (iface : Interface) (addr : In6Addr) : Bool :=
  match iface.clientList.find? fun client => client.address = addr with
  | none => iface.clientList = [] || iface.unrestrictedUnicast
  | some client => !client.ignored

theorem raDests_some (iface : Interface) (addr : In6Addr) :
    raDests iface (some addr) = if iface.Answers addr then [some addr] else [] := by
  by_cases clients : iface.clientList = []
  · simp [raDests, clients, Interface.Answers]
  · simp only [raDests, clients, if_false, clientDests_some, Interface.Answers]
    cases iface.clientList.find? fun client => client.address = addr with
    | none => cases iface.unrestrictedUnicast <;> simp
    | some client => cases heard : client.ignored <;> simp [heard]

theorem raDests_none_of_nil (clients : iface.clientList = []) :
    raDests iface none = if iface.unicastOnly then [] else [none] := by
  simp [raDests, clients]

theorem admits_of_answers (clients : iface.clientList ≠ []) (answers : iface.Answers addr = true) :
    iface.Admits addr ∨ ¬iface.Lists addr ∧ iface.unrestrictedUnicast = true := by
  unfold Interface.Answers at answers
  split at answers
  · rename_i absent
    right
    constructor
    · rintro ⟨client, listed, same⟩
      exact List.find?_eq_none.mp absent client listed (by simpa using same)
    · simpa [clients] using answers
  · rename_i client found
    left
    refine ⟨client, List.mem_of_find?_eq_some found, ?_, by simpa using answers⟩
    simpa using List.find?_some found

end

/-! ## Sending to the chosen destinations -/

section

variable {iface after : Interface} {warned : Bool} {dest asker : Option In6Addr}
  {sent : In6Addr × List Bytes}

theorem raDests_of_settled (same : after.settled = iface.settled) :
    raDests after dest = raDests iface dest := by
  have parts : ∀ iface : Interface, raDests iface dest = raDests iface.settled dest := fun _ => rfl
  rw [parts, same, ← parts]

theorem dest_of_mem_sendRas {envs : Nat → SendEnv} {index : Nat} {dests : List (Option In6Addr)}
    (sentMem : sent ∈ (sendRas envs index warned iface dests).transmissions) :
    ∃ chosen ∈ dests, sent.1 = chosen.getD allHostsAddr := by
  induction dests generalizing index warned iface with
  | nil => cases sentMem
  | cons dest rest ih =>
      unfold sendRas at sentMem
      dsimp only at sentMem
      split at sentMem
      · cases List.mem_singleton.mp sentMem
        exact ⟨dest, List.mem_cons_self, rfl⟩
      · rcases List.mem_cons.mp sentMem with rfl | later
        · exact ⟨dest, List.mem_cons_self, rfl⟩
        · rcases ih later with ⟨chosen, chosenMem, same⟩
          exact ⟨chosen, List.mem_cons_of_mem _ chosenMem, same⟩

/-- What a handler sends goes where `raDests` says, for no destination or for
the address that is answered, and is decided on the interface as it is left. -/
def Handled (asker : Option In6Addr) (outcome : ForallOutcome) : Prop :=
  ∀ sent ∈ outcome.transmissions, ∃ dest, (dest = none ∨ dest = asker) ∧
    ∃ chosen ∈ raDests outcome.iface dest, sent.1 = chosen.getD allHostsAddr

theorem handled_quiet : Handled asker ⟨iface, warned, [], none⟩ := by
  intro sent sentMem
  cases sentMem

theorem Handled.none {outcome : ForallOutcome} (handled : Handled none outcome) :
    Handled asker outcome := by
  intro sent sentMem
  rcases handled sent sentMem with ⟨dest, asked, chosen⟩
  exact ⟨dest, .inl (asked.elim id id), chosen⟩

theorem chosen_of_sendRaForall {setup : SetupEnv} {envs : Nat → SendEnv}
    (sentMem : sent ∈ (sendRaForall setup envs warned iface dest).transmissions) :
    ∃ chosen ∈ raDests (sendRaForall setup envs warned iface dest).iface dest,
      sent.1 = chosen.getD allHostsAddr := by
  unfold sendRaForall at sentMem ⊢
  split at sentMem
  · cases sentMem
  · split at sentMem
    · cases sentMem
    · rename_i ready
      rcases dest_of_mem_sendRas sentMem with ⟨chosen, chosenMem, same⟩
      refine ⟨chosen, ?_, same⟩
      rw [if_neg ready, raDests_of_settled (settled_sendRas _ _ _).1]
      exact chosenMem

theorem handled_sendRaForall (setup : SetupEnv) (envs : Nat → SendEnv) :
    Handled dest (sendRaForall setup envs warned iface dest) :=
  fun _ sentMem => ⟨dest, .inr rfl, chosen_of_sendRaForall sentMem⟩

theorem Handled.of_settled {outcome later : ForallOutcome} (handled : Handled asker outcome)
    (same : later.iface.settled = outcome.iface.settled)
    (sends : later.transmissions = outcome.transmissions) : Handled asker later := by
  intro sent sentMem
  rw [sends] at sentMem
  rcases handled sent sentMem with ⟨dest, asked, chosen, chosenMem, equal⟩
  rw [← raDests_of_settled same] at chosenMem
  exact ⟨dest, asked, chosen, chosenMem, equal⟩

theorem transmissions_rescheduled (outcome : ForallOutcome) (now : Timespec) (rand : Rand) :
    (outcome.rescheduled now rand).transmissions = outcome.transmissions := by
  unfold ForallOutcome.rescheduled
  split <;> rfl

theorem Handled.rescheduled {outcome : ForallOutcome} (handled : Handled asker outcome)
    (now : Timespec) (rand : Rand) : Handled asker (outcome.rescheduled now rand) :=
  handled.of_settled (settled_rescheduled _ _ _) (transmissions_rescheduled _ _ _)

theorem handled_timerHandler (env : TimerEnv) : Handled none (timerHandler env warned iface) :=
  (handled_sendRaForall _ _).rescheduled _ _

theorem handled_kickoffAdverts (env : KickoffEnv) :
    Handled none (kickoffAdverts env warned iface) := by
  unfold kickoffAdverts
  dsimp only
  split
  · exact handled_quiet
  · split
    · apply handled_sendRaForall
    · exact (handled_sendRaForall _ _).of_settled (settled_rescheduleIface _ _) rfl

theorem handled_setupIfaceFoo (setup : SetupEnv) (kickoff : KickoffEnv) :
    Handled none (setupIfaceFoo setup kickoff warned iface) := by
  unfold setupIfaceFoo
  split
  · intro sent sentMem
    cases sentMem
  · split_ifs
    · exact handled_quiet
    · intro sent sentMem
      cases sentMem
    · apply handled_kickoffAdverts

theorem handled_stopAdvertFoo (env : StopEnv) : Handled none (stopAdvertFoo env warned iface) := by
  unfold stopAdvertFoo
  split
  · apply handled_sendRaForall
  · exact handled_quiet

theorem handled_answerRs (env : ProcessEnv) (addr : In6Addr) :
    Handled (some addr) (answerRs env warned iface addr) := by
  unfold answerRs
  dsimp only
  split_ifs
  · apply handled_sendRaForall
  · exact handled_quiet
  · exact ((handled_sendRaForall _ _).rescheduled _ _).none

/-- The source of a router solicitation. -/
def Packet.solicitor (packet : Packet) : Option In6Addr :=
  if packet.msg 0 = ndRouterSolicit then some packet.addr else none

theorem handled_processOn (env : ProcessEnv) (packet : Packet) :
    Handled packet.solicitor (processOn env packet warned iface).value := by
  have ready : ∀ iface : Interface,
      Handled packet.solicitor (processReady env packet warned iface).value := by
    intro iface
    rw [value_processReady]
    split
    · rename_i solicits
      simp only [Packet.solicitor, solicits.2.1, if_true]
      apply handled_answerRs
    · exact handled_quiet
  unfold processOn
  split
  · apply ready
  · split
    · intro sent sentMem
      cases sentMem
    · split
      · exact handled_quiet
      · apply ready

end

/-! ## The daemon -/

def DaemonEvent.solicitor : DaemonEvent → Option In6Addr
  | .receive packet _ => packet.solicitor
  | _ => none

/-- `Handled`, for what the daemon sends on all of its interfaces. -/
def DaemonOutcome.Handled (asker : Option In6Addr) (outcome : DaemonOutcome) : Prop :=
  ∀ sent ∈ outcome.sent, ∃ after, outcome.daemon.ifaces[sent.position]? = some after ∧
    ∃ dest, (dest = none ∨ dest = asker) ∧
      ∃ chosen ∈ raDests after dest, sent.dest = chosen.getD allHostsAddr

section

variable {daemon : Daemon} {iface : Interface} {position : Nat} {asker : Option In6Addr}

theorem handled_unchanged : (DaemonOutcome.unchanged daemon).Handled asker := by
  intro sent sentMem
  cases sentMem

theorem handled_settle {outcome : ForallOutcome} (found : daemon.ifaces[position]? = some iface)
    (handled : Handled asker outcome) : (daemon.settle position outcome).Handled asker := by
  intro sent sentMem
  rcases List.mem_map.mp sentMem with ⟨transmission, transmissionMem, rfl⟩
  have bound := (List.getElem?_eq_some_iff.mp found).1
  exact ⟨outcome.iface, List.getElem?_set_self bound, handled transmission transmissionMem⟩

theorem handled_onIface {handle : Bool → Interface → ForallOutcome}
    (handled : ∀ warned iface, Handled asker (handle warned iface)) :
    (daemon.onIface position handle).Handled asker := by
  unfold Daemon.onIface
  split
  · exact handled_unchanged
  · rename_i found
    exact handled_settle found (handled _ _)

theorem handled_stopAdvertsFrom (envs : Nat → StopEnv) (warned : Bool) (ifaces : List Interface)
    {sent : Sent} (sentMem : sent ∈ (stopAdvertsFrom envs position warned ifaces).sent) :
    ∃ offset after, sent.position = position + offset ∧
      (stopAdvertsFrom envs position warned ifaces).daemon.ifaces[offset]? = some after ∧
      ∃ chosen ∈ raDests after none, sent.dest = chosen.getD allHostsAddr := by
  induction ifaces generalizing position warned with
  | nil => cases sentMem
  | cons iface rest ih =>
      have own : ∀ sent ∈ (stopAdvertFoo (envs position) warned iface).transmissions.map
          fun sent => (⟨position, sent.1, sent.2⟩ : Sent), sent.position = position + 0 ∧
          ∃ chosen ∈ raDests (stopAdvertFoo (envs position) warned iface).iface none,
            sent.dest = chosen.getD allHostsAddr := by
        intro sent ownMem
        rcases List.mem_map.mp ownMem with ⟨transmission, transmissionMem, rfl⟩
        rcases handled_stopAdvertFoo (envs position) transmission transmissionMem with
          ⟨dest, asked, chosen⟩
        rw [asked.elim id id] at chosen
        exact ⟨rfl, chosen⟩
      unfold stopAdvertsFrom at sentMem ⊢
      dsimp only at sentMem ⊢
      split at sentMem
      · rcases own sent sentMem with ⟨place, chosen⟩
        exact ⟨0, _, place, rfl, chosen⟩
      · rcases List.mem_append.mp sentMem with ownMem | laterMem
        · rcases own sent ownMem with ⟨place, chosen⟩
          exact ⟨0, _, place, rfl, chosen⟩
        · rcases ih _ laterMem with ⟨offset, after, place, found, chosen⟩
          exact ⟨offset + 1, after, by omega, found, chosen⟩

theorem handled_step (daemon : Daemon) (event : DaemonEvent) :
    (daemon.step event).Handled event.solicitor := by
  cases event with
  | start position setup kickoff => exact handled_onIface fun _ _ => handled_setupIfaceFoo _ _
  | timer position env => exact handled_onIface fun _ _ => handled_timerHandler _
  | receive packet env =>
      simp only [Daemon.step, value_process]
      split
      · split
        · exact handled_unchanged
        · rename_i found
          exact handled_settle (findIface_spec found).1 (handled_processOn _ _)
      · exact handled_unchanged
  | netlink msgs =>
      intro sent sentMem
      cases sentMem
  | stop envs =>
      intro sent sentMem
      rcases handled_stopAdvertsFrom envs daemon.warned daemon.ifaces sentMem with
        ⟨offset, after, place, found, chosen⟩
      rw [Nat.zero_add] at place
      exact ⟨after, by rw [place]; exact found, none, .inl rfl, chosen⟩

end

/-- Whom `raDests` may choose for an interface with clients. -/
theorem admits_of_mem_raDests {iface : Interface} {dest chosen : Option In6Addr}
    (clients : iface.clientList ≠ []) (chosenMem : chosen ∈ raDests iface dest) :
    ∃ addr, chosen = some addr ∧ (iface.Admits addr ∨
      ¬iface.Lists addr ∧ iface.unrestrictedUnicast = true ∧ dest = some addr) := by
  cases dest with
  | none =>
      rcases (mem_raDests_of_clients clients).mp chosenMem with ⟨addr, rfl, admits⟩
      exact ⟨addr, rfl, .inl admits⟩
  | some addr =>
      rw [raDests_some] at chosenMem
      split at chosenMem
      · rename_i answers
        cases List.mem_singleton.mp chosenMem
        refine ⟨addr, rfl, ?_⟩
        rcases admits_of_answers clients answers with admits | ⟨absent, unrestricted⟩
        · exact .inl admits
        · exact .inr ⟨absent, unrestricted, rfl⟩
      · cases chosenMem

/-- Whom `raDests` may choose for an interface without clients. -/
theorem eq_of_mem_raDests {iface : Interface} {dest chosen : Option In6Addr}
    (clients : iface.clientList = []) (chosenMem : chosen ∈ raDests iface dest) :
    chosen = dest ∧ (dest = none → iface.unicastOnly = false) := by
  simp only [raDests, clients, if_true] at chosenMem
  split at chosenMem
  · cases chosenMem
  · rename_i sends
    refine ⟨List.mem_singleton.mp chosenMem, fun absent => ?_⟩
    simpa [absent] using sends

/-- In every run, an RA for an interface with clients goes to a client that is
not to be ignored, or with `UnrestrictedUnicast` to an unlisted address whose
solicitation it answers. An RA for an interface without clients goes to the
solicitor that it answers, or to the all-hosts group while `UnicastOnly` is
off. -/
theorem sent_admitted {start last : Daemon} {events : List DaemonEvent}
    (run : Run Daemon.Step start events last) (event : DaemonEvent) {sent : Sent}
    (sentMem : sent ∈ (last.step event).sent) :
    ∃ iface after, start.ifaces[sent.position]? = some iface ∧
      (last.step event).daemon.ifaces[sent.position]? = some after ∧
      (iface.clientList ≠ [] → iface.Admits sent.dest ∨
        ¬iface.Lists sent.dest ∧ iface.unrestrictedUnicast = true ∧
          event.solicitor = some sent.dest) ∧
      (iface.Lists sent.dest → iface.Admits sent.dest) ∧
      (iface.clientList = [] → event.solicitor = some sent.dest ∨
        sent.dest = allHostsAddr ∧ after.unicastOnly = false) := by
  rcases handled_step last event sent sentMem with ⟨after, found, dest, asked, chosen, chosenMem, same⟩
  have configs := (config_step last event).trans (config_run run)
  have config : (start.ifaces.map Interface.config)[sent.position]? = some after.config := by
    rw [← configs, List.getElem?_map, found]
    rfl
  rw [List.getElem?_map, Option.map_eq_some_iff] at config
  rcases config with ⟨iface, started, config⟩
  have clients : iface.clientList = after.clientList := by
    have equal := congrArg Interface.clientList config
    exact equal
  have unrestricted : iface.unrestrictedUnicast = after.unrestrictedUnicast := by
    have equal := congrArg Interface.unrestrictedUnicast config
    exact equal
  have admitted : iface.clientList ≠ [] → iface.Admits sent.dest ∨
      ¬iface.Lists sent.dest ∧ iface.unrestrictedUnicast = true ∧
        event.solicitor = some sent.dest := by
    intro nonempty
    rw [clients] at nonempty
    rcases admits_of_mem_raDests nonempty chosenMem with ⟨addr, rfl, admits | ⟨absent, on, rfl⟩⟩
    · left
      simpa only [same, Option.getD_some, Interface.Admits, clients] using admits
    · right
      rcases asked with nothing | solicited
      · cases nothing
      · simpa only [same, Option.getD_some, Interface.Lists, clients, unrestricted, on, true_and,
          ← solicited, and_true] using absent
  refine ⟨iface, after, started, found, admitted, ?_, ?_⟩
  · rintro ⟨client, listed, equal⟩
    rcases admitted (List.ne_nil_of_mem listed) with admits | ⟨absent, -⟩
    · exact admits
    · exact absurd ⟨client, listed, equal⟩ absent
  · intro empty
    rw [clients] at empty
    rcases eq_of_mem_raDests empty chosenMem with ⟨rfl, off⟩
    rcases asked with rfl | solicited
    · exact .inr ⟨same, off rfl⟩
    · cases chosen with
      | none => exact .inr ⟨same, off rfl⟩
      | some addr =>
          left
          rw [← solicited, same]
          rfl

theorem sendRaForall_of_ready {iface : Interface} {setup : SetupEnv} {envs : Nat → SendEnv}
    {warned : Bool} {dest : Option In6Addr} (ready : iface.stateInfo.ready = true)
    (unchanged : iface.stateInfo.changed = false) :
    sendRaForall setup envs warned iface dest =
      sendRas envs 0 warned (countRa iface dest) (raDests iface dest) := by
  have counted : raDests (countRa iface dest) dest = raDests iface dest :=
    raDests_of_settled settled_countRa
  simp [sendRaForall, ensureIfaceSetup, unchanged, ready, counted]

/-- A ready interface with a single client. -/
def serving (client : Clients) : Interface :=
  { appeared with clientList := [client] }

def TimerEnv.ethernet (now : Timespec) : TimerEnv where
  setup := SetupEnv.ethernet
  envs := fun _ => routerEnv now
  intervalRand := 0
  rescheduleTime := now

theorem sent_serving {client : Clients} (heard : client.ignored = false) :
    ∃ messages, messages ≠ [] ∧ ⟨0, client.address, messages⟩ ∈
      ((⟨[serving client], false⟩ : Daemon).step (.timer 0 (.ethernet ⟨100, 0⟩))).sent := by
  have transmits := @sendRa_transmits (routerEnv ⟨100, 0⟩) false false false
    (countRa (serving client) none) (some client.address) sendable_appeared.advertises
    ⟨sendable_appeared.parsed.route_prefixLen, sendable_appeared.parsed.dnssl_parsed,
      sendable_appeared.parsed.hwaddr_le, sendable_appeared.parsed.capport_length⟩
    sendable_appeared.fits sendable_appeared.small rfl (fun _ => rfl)
  refine ⟨_, transmits.2, ?_⟩
  have dests : raDests (serving client) none = [some client.address] := by
    simp [raDests, serving, clientDests, heard]
  have ready := @sendRaForall_of_ready (serving client) SetupEnv.ethernet
    (fun _ => routerEnv ⟨100, 0⟩) false none rfl rfl
  rw [dests, sendRas] at ready
  simp only [transmits.1, sendRas] at ready
  simp only [Daemon.step, Daemon.onIface, List.getElem?_cons_zero, Daemon.settle, timerHandler,
    TimerEnv.ethernet, transmissions_rescheduled, ready]
  exact List.mem_singleton.mpr rfl

theorem sent_admitted_serving :
    ∃ sent ∈ ((⟨[serving ⟨linkLocalAddr, false⟩], false⟩ : Daemon).step
        (.timer 0 (.ethernet ⟨100, 0⟩))).sent,
      sent.messages ≠ [] ∧ (serving ⟨linkLocalAddr, false⟩).Admits sent.dest := by
  rcases @sent_serving ⟨linkLocalAddr, false⟩ rfl with ⟨messages, nonempty, sentMem⟩
  refine ⟨_, sentMem, nonempty, ?_⟩
  rcases sent_admitted (.nil _) _ sentMem with ⟨iface, after, started, -, admitted, -⟩
  cases started
  rcases admitted (List.cons_ne_nil _ _) with admits | ⟨absent, -⟩
  · exact admits
  · exact absurd ⟨_, List.mem_cons_self, rfl⟩ absent

/-- The client list may name the all-hosts group, to which the RAs then go. -/
theorem allHosts_is_client :
    (serving ⟨allHostsAddr, false⟩).clientList ≠ [] ∧ ∃ sent ∈ ((⟨[serving ⟨allHostsAddr, false⟩], false⟩ : Daemon).step
        (.timer 0 (.ethernet ⟨100, 0⟩))).sent,
      sent.messages ≠ [] ∧ sent.dest = allHostsAddr := by
  rcases @sent_serving ⟨allHostsAddr, false⟩ rfl with ⟨messages, nonempty, sentMem⟩
  exact ⟨List.cons_ne_nil _ _, _, sentMem, nonempty, rfl⟩

end Radvd
