import Radvd.Schedule

/-!
# The deadlines of one interface in exact time

The handlers of one interface with the times of its RAs as rational numbers and
one value of the clock for each event. Everything but the times is what the
handlers of the daemon compute; of the times, `send_ra` notes the last RA to the
all-hosts group and `reschedule_iface` the next one.

The deadline in the daemon is at most a nanosecond earlier than the exact one
(`nextMulticast_near`), and the daemon notes an RA where this model does
(`lastMulticast_sendRaForall`).
-/

namespace Radvd

open Wire Runs

/-- One interface in exact time. The clock readings of `iface` are not used. -/
structure ExactState where
  iface : Interface
  lastMulticast : ℚ
  nextMulticast : ℚ
  clock : ℚ
  /-- When RAs were sent to the all-hosts group, the last one first. -/
  sent : List ℚ

/-- Whether `send_ra_forall` without a destination comes to `send_ra` for the
all-hosts group on an interface that advertises. -/
def Interface.reachesGroup (setup : SetupEnv) (iface : Interface) : Bool :=
  match ensureIfaceSetup setup iface with
  | .error _ => false
  | .ok iface => iface.stateInfo.ready && iface.advSendAdvert && (raDests iface none).contains none

/-- The messages at which `process_netlink_msg` touches the interface. -/
def NetlinkMsg.touches (msg : NetlinkMsg) (iface : Interface) : Bool :=
  match msg.type with
  | .newlink | .setlink => true
  | .newaddr | .deladdr => addrsDiffer msg.system iface
  | .dellink | .done | .error | .other => false

namespace ExactState

def reschedule (state : ExactState) (now next : ℚ) : ExactState :=
  { state with nextMulticast := now + effectiveNext state.iface next }

/-- `send_ra_forall` without a destination. The handlers yield nothing if the
program ends. -/
def sendMulticast (state : ExactState) (now : ℚ) (setup : SetupEnv) (envs : Nat → SendEnv)
    (warned : Bool) : Option ExactState :=
  let outcome := sendRaForall setup envs warned state.iface none
  match outcome.exit with
  | some _ => none
  | none =>
      if state.iface.reachesGroup setup then
        some { state with iface := outcome.iface, lastMulticast := now, sent := now :: state.sent }
      else some { state with iface := outcome.iface }

/-- The multicast RA and the random interval that follows it. -/
def sendAndDraw (state : ExactState) (now : ℚ) (setup : SetupEnv) (envs : Nat → SendEnv)
    (warned : Bool) (rand : Rand) : Option ExactState :=
  (state.sendMulticast now setup envs warned).map fun state =>
    state.reschedule now
      (randBetween state.iface.minRtrAdvInterval state.iface.maxRtrAdvInterval rand)

def timerHandler (state : ExactState) (now : ℚ) (warned : Bool) (env : TimerEnv) :
    Option ExactState :=
  state.sendAndDraw now env.setup env.envs warned env.intervalRand

def kickoffAdverts (state : ExactState) (now : ℚ) (warned : Bool) (env : KickoffEnv) :
    Option ExactState :=
  if state.iface.unicastOnly then some state
  else
    (sendMulticast { state with lastMulticast := now } now env.setup env.envs warned).map
      fun state =>
        state.reschedule now (min maxInitialRtrAdvertInterval state.iface.maxRtrAdvInterval)

def touch (state : ExactState) (now : ℚ) : ExactState :=
  { state with
    iface := { state.iface with
      stateInfo := { state.iface.stateInfo with changed := true, ready := false, racount := 0 } }
    }.reschedule now 0

/-- The delay of an answer to a solicitation. -/
def answerDelay (delayRand : Rand) : ℚ :=
  maxRaDelaySeconds * delayRand.val / randBound

/-- The last multicast RA is too recent for another one. -/
def TooSoon (state : ExactState) (now : ℚ) : Prop :=
  now - state.lastMulticast < state.iface.minDelayBetweenRAs

instance (state : ExactState) (now : ℚ) : Decidable (state.TooSoon now) :=
  inferInstanceAs (Decidable (_ < _))

def answerRs (state : ExactState) (now : ℚ) (warned : Bool) (env : ProcessEnv)
    (addr : In6Addr) : Option ExactState :=
  if state.iface.AnswersUnicast addr then
    let outcome := sendRaForall env.sendSetup env.envs warned state.iface (some addr)
    match outcome.exit with
    | some _ => none
    | none => some { state with iface := outcome.iface }
  else if state.TooSoon now then
    some (state.reschedule now (state.iface.minDelayBetweenRAs - now + state.lastMulticast +
      answerDelay env.delayRand))
  else state.sendAndDraw now env.sendSetup env.envs warned env.intervalRand

/-- `process` for a packet that gets past the checks before the interface is
looked up. -/
def process (state : ExactState) (now : ℚ) (warned : Bool) (packet : Packet)
    (env : ProcessEnv) : Option ExactState :=
  if state.iface.stateInfo.ready then
    if packet.Solicits then state.answerRs now warned env packet.addr else some state
  else
    match setupIface env.setup state.iface with
    | .error _ => none
    | .ok (iface, ret) =>
        if ret ≠ 0 then some { state with iface := iface }
        else if packet.Solicits then
          { state with iface := iface }.answerRs now warned env packet.addr
        else some { state with iface := iface }

/-- A netlink message about the interface. -/
def netlink (state : ExactState) (now : ℚ) (msg : NetlinkMsg) : ExactState :=
  if msg.touches state.iface then state.touch now else state

end ExactState

/-! ## Events -/

/-- An event at the given time, with the static variable of
`check_ip6_forwarding` as the other interfaces have left it. -/
inductive ExactEvent where
  | timer (now : ℚ) (warned : Bool) (env : TimerEnv)
  | receive (now : ℚ) (warned : Bool) (packet : Packet) (env : ProcessEnv)
  | netlink (now : ℚ) (msg : NetlinkMsg)

def ExactEvent.now : ExactEvent → ℚ
  | .timer now _ _ => now
  | .receive now _ _ _ => now
  | .netlink now _ => now

def ExactState.handle (state : ExactState) : ExactEvent → Option ExactState
  | .timer now warned env => state.timerHandler now warned env
  | .receive now warned packet env =>
      if packet.Accepted ∧ packet.ifindex = state.iface.props.ifIndex then
        state.process now warned packet env
      else some state
  | .netlink now msg => some (state.netlink now msg)

/-- A timer does not expire before the deadline. -/
def ExactState.Allows (state : ExactState) : ExactEvent → Prop
  | .timer now _ _ => state.clock ≤ now ∧ state.nextMulticast ≤ now
  | .receive now _ _ _ => state.clock ≤ now
  | .netlink now _ => state.clock ≤ now

instance (state : ExactState) (event : ExactEvent) : Decidable (state.Allows event) :=
  match event with
  | .timer _ _ _ => inferInstanceAs (Decidable (_ ∧ _))
  | .receive _ _ _ _ => inferInstanceAs (Decidable (_ ≤ _))
  | .netlink _ _ => inferInstanceAs (Decidable (_ ≤ _))

/-- A step: time does not go backwards, and the timer does not expire before the
deadline. -/
structure ExactState.Step (state : ExactState) (event : ExactEvent) (next : ExactState) :
    Prop where
  allowed : state.Allows event
  handled : (state.handle event).map (fun after => { after with clock := event.now }) = some next

/-- The events one after the other. -/
def ExactState.follow (state : ExactState) : List ExactEvent → Option ExactState
  | [] => some state
  | event :: rest =>
      if state.Allows event then
        ((state.handle event).map fun after => { after with clock := event.now }).bind
          fun next => next.follow rest
      else none

theorem ExactState.run_of_follow {state last : ExactState} {events : List ExactEvent}
    (followed : state.follow events = some last) : Run ExactState.Step state events last := by
  induction events generalizing state with
  | nil =>
      cases followed
      exact .nil _
  | cons event rest ih =>
      unfold follow at followed
      split at followed
      · rename_i allowed
        rcases Option.bind_eq_some_iff.mp followed with ⟨next, handled, later⟩
        exact .cons ⟨allowed, handled⟩ (ih later)
      · cases followed

/-- The state after the kickoff at `now` of an interface that has just been set up
for the first time, does not have `UnicastOnly` set and serves no list of
clients. -/
def ExactState.KickedOff (state : ExactState) (now : ℚ) : Prop :=
  ∃ setup loaded iface warned env, loaded.Loaded ∧
    setupIface setup loaded = .ok (iface, 0) ∧ iface.clientList = [] ∧
    iface.unicastOnly = false ∧
    (ExactState.kickoffAdverts ⟨iface, 0, 0, now, []⟩ now warned env) = some state

/-! ## The daemon in exact time -/

section

variable {iface : Interface} {warned : Bool}

theorem lastMulticast_sendRa (env : SendEnv) (dest : Option In6Addr) :
    (sendRa env warned iface dest).iface.times.lastMulticast =
      if iface.advSendAdvert ∧ dest = none then env.multicastTime
      else iface.times.lastMulticast := by
  unfold sendRa
  rcases advertises : iface.advSendAdvert with _ | _
  · simp
  · have aged : (agedIface env iface dest).times.lastMulticast =
        if dest = none then env.multicastTime else iface.times.lastMulticast := by
      cases dest <;> rfl
    simp only [Bool.not_true, Bool.false_eq_true, if_false, true_and]
    split
    · exact aged
    · exact aged

theorem lastMulticast_sendRas_of_some {envs : Nat → SendEnv} {index : Nat}
    {dests : List (Option In6Addr)} (unicast : none ∉ dests) :
    (sendRas envs index warned iface dests).iface.times.lastMulticast =
      iface.times.lastMulticast := by
  induction dests generalizing index warned iface with
  | nil => rfl
  | cons dest rest ih =>
      simp only [List.mem_cons, not_or] at unicast
      have first := @lastMulticast_sendRa iface warned (envs index) dest
      rw [if_neg fun both => unicast.1 both.2.symm] at first
      unfold sendRas
      dsimp only
      split
      · exact first
      · exact (ih unicast.2).trans first

theorem raDests_of_mem_none (group : none ∈ raDests iface none) : raDests iface none = [none] := by
  by_cases clients : iface.clientList = []
  · rw [raDests_none_of_nil clients] at group ⊢
    split at group
    · cases group
    · rename_i multicast
      rw [if_neg multicast]
  · rcases (mem_raDests_of_clients clients).mp group with ⟨client, same, -⟩
    cases same

/-- The daemon notes the time of a multicast RA where the exact model does. -/
theorem lastMulticast_sendRaForall {setup : SetupEnv} {envs : Nat → SendEnv} :
    (sendRaForall setup envs warned iface none).iface.times.lastMulticast =
      if iface.reachesGroup setup then (envs 0).multicastTime
      else iface.times.lastMulticast := by
  unfold sendRaForall Interface.reachesGroup
  rcases done : ensureIfaceSetup setup iface with exit | after
  · rfl
  · have times : after.times = iface.times := by
      unfold ensureIfaceSetup at done
      split at done
      · rcases result : setupIface setup iface with exit | ⟨known, ret⟩
        · rw [result] at done
          cases done
        · rw [result] at done
          cases done
          exact (frame_setupIface result).times_eq
      · cases done
        rfl
    have counted : (countRa after none).times = iface.times := by
      rw [← times]
      unfold countRa
      split <;> rfl
    have advertises : (countRa after none).advSendAdvert = after.advSendAdvert := by
      unfold countRa
      split <;> rfl
    have dests : raDests (countRa after none) none = raDests after none :=
      raDests_of_settled settled_countRa
    dsimp only
    by_cases ready : after.stateInfo.ready = true
    · simp only [ready, Bool.not_true, Bool.false_eq_true, if_false, Bool.true_and, dests]
      by_cases group : none ∈ raDests after none
      · have single := @lastMulticast_sendRa (countRa after none) warned (envs 0) none
        rw [advertises, counted] at single
        rw [raDests_of_mem_none group]
        simp only [sendRas, List.contains_cons, BEq.rfl, Bool.true_or, Bool.and_true]
        split <;> simpa using single
      · have same := @lastMulticast_sendRas_of_some (countRa after none) warned envs 0 _ group
        rw [same, counted, if_neg]
        simp [group]
    · have unready : after.stateInfo.ready = false := by simpa using ready
      simp only [unready, Bool.not_false, if_true, times, Bool.false_and, Bool.false_eq_true,
        if_false]

theorem netlinkTouch_eq (msg : NetlinkMsg) :
    netlinkTouch msg iface = if msg.touches iface then touchIface msg.now iface else iface := by
  unfold netlinkTouch NetlinkMsg.touches
  split <;> simp_all

/-- The deadline of the daemon is the exact one, cut to nanoseconds. -/
theorem nextMulticast_near {now : Timespec} {next : ℚ} (valid : now.Valid)
    (fits : Fits (effectiveNext iface next)) :
    let deadline := secondsOf (rescheduleIface now iface next).times.nextMulticast
    let exact := secondsOf now + effectiveNext iface next
    exact - 1 / 1000000000 < deadline ∧ deadline ≤ exact := by
  dsimp only
  rw [nextMulticast_rescheduleIface, nextTimespec_of_fits valid fits]
  generalize effectiveNext iface next = interval
  have below := Int.floor_le (1000000000 * interval)
  have above := Int.lt_floor_add_one (1000000000 * interval)
  unfold secondsOf
  push_cast
  constructor <;> linarith

end

end Radvd
