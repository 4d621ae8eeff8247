import Radvd.ExactTime

/-!
# The spacing of multicast RAs

In exact time, two multicast RAs of an interface should be at least
`MinDelayBetweenRAs` and, while the link is left alone, at most
`MaxRtrAdvInterval` apart.

Only `process_rs` looks at the time of the last multicast RA. The timer sends at
whatever deadline was set last: `touch_iface` sets it a second ahead
(`multicasts_not_apart`), and a deferred solicitation in the initial phase
starts the interval anew (`multicasts_not_within`). Where the deadlines that are
set keep to the bounds, so do the RAs (`ExactState.multicasts_apart` and
`ExactState.multicasts_within`).
-/

namespace Radvd

open Runs

section

variable {iface after : Interface} {dest : Option In6Addr} {outcome : ForallOutcome} {rand : Rand}

theorem Interface.Accepted.of_config (accepted : iface.Accepted)
    (same : after.config = iface.config) (min : after.minRtrAdvInterval = iface.minRtrAdvInterval) :
    after.Accepted := by
  have max := maxRtrAdvInterval_of_config same
  have delay : after.minDelayBetweenRAs = iface.minDelayBetweenRAs := by
    have equal := congrArg Interface.minDelayBetweenRAs same
    exact equal
  constructor
  · rw [min]
    exact accepted.min_ge
  · rw [min, max]
    exact accepted.min_le
  · rw [max]
    exact accepted.max_ge
  · rw [max]
    exact accepted.max_le
  · rw [delay]
    exact accepted.delay_ge

theorem Interface.Accepted.min_nonneg (accepted : iface.Accepted) :
    0 ≤ iface.minRtrAdvInterval := by
  have bound := accepted.min_ge
  linarith

theorem minDelay_of_config (same : after.config = iface.config) :
    after.minDelayBetweenRAs = iface.minDelayBetweenRAs := by
  have equal := congrArg Interface.minDelayBetweenRAs same
  exact equal

/-- The interval for a random draw, once the interface is set up or has failed to
be. -/
theorem effectiveNext_drawn (accepted : iface.Accepted)
    (unchanged : iface.stateInfo.changed = false) :
    effectiveNext iface (randBetween iface.minRtrAdvInterval iface.maxRtrAdvInterval rand) =
      if iface.stateInfo.ready = true then
        if iface.stateInfo.racount < maxInitialRtrAdvertisements then
          min maxInitialRtrAdvertInterval iface.maxRtrAdvInterval
        else randBetween iface.minRtrAdvInterval iface.maxRtrAdvInterval rand
      else 10 * iface.maxRtrAdvInterval := by
  have bounds := randBetween_mem accepted.min_le_max rand
  have positive := accepted.min_ge
  have nonzero : randBetween iface.minRtrAdvInterval iface.maxRtrAdvInterval rand ≠ 0 := by
    linarith
  unfold effectiveNext
  rw [unchanged, if_neg nonzero]
  rcases iface.stateInfo.ready with _ | _
  · simp
  · simp

theorem effectiveNext_touched :
    effectiveNext { iface with
      stateInfo := { iface.stateInfo with changed := true, ready := false, racount := 0 } } 0 =
      1 := by
  unfold effectiveNext
  simp

end

/-! ## Sending -/

namespace ExactState

/-- What a multicast RA does to the state. -/
structure Multicast (before after : ExactState) (now : ℚ) : Prop where
  coherent : after.iface.Coherent
  config_eq : after.iface.config = before.iface.config
  min_eq : 0 ≤ before.iface.minRtrAdvInterval →
    after.iface.minRtrAdvInterval = before.iface.minRtrAdvInterval
  unchanged : after.iface.stateInfo.changed = false
  ready_of : before.iface.stateInfo.ready = true → after.iface.stateInfo.ready = true
  racount_eq : after.iface.stateInfo.racount =
    if after.iface.stateInfo.ready = true ∧
      before.iface.stateInfo.racount < maxInitialRtrAdvertisements then
      before.iface.stateInfo.racount + 1 else before.iface.stateInfo.racount
  noted : (after.lastMulticast = now ∧ after.sent = now :: before.sent) ∨
    (after.lastMulticast = before.lastMulticast ∧ after.sent = before.sent)

theorem multicast_sendMulticast {state after : ExactState} {now : ℚ} {setup : SetupEnv}
    {envs : Nat → SendEnv} {warned : Bool} (coherent : state.iface.Coherent)
    (done : state.sendMulticast now setup envs warned = some after) :
    Multicast state after now := by
  have sent := @sentFor_sendRaForall state.iface warned none setup envs coherent
  unfold sendMulticast at done
  generalize sendRaForall setup envs warned state.iface none = outcome at sent done
  rcases exits : outcome.exit with _ | exit
  · simp only [exits] at done
    have racount := sent.racount_eq
    simp only [and_true] at racount
    have unchanged := sent.unchanged exits
    split at done
    · cases done
      exact ⟨sent.coherent, sent.config_eq, sent.min_eq, unchanged, sent.ready_of, racount,
        .inl ⟨rfl, rfl⟩⟩
    · cases done
      exact ⟨sent.coherent, sent.config_eq, sent.min_eq, unchanged, sent.ready_of, racount,
        .inr ⟨rfl, rfl⟩⟩
  · simp only [exits] at done
    cases done

theorem settled_sendRaForall_of_ready {iface : Interface} {setup : SetupEnv}
    {envs : Nat → SendEnv} {warned : Bool} {dest : Option In6Addr} (coherent : iface.Coherent)
    (ready : iface.stateInfo.ready = true) :
    (sendRaForall setup envs warned iface dest).iface.settled = iface.settled := by
  rw [sendRaForall_of_ready ready (coherent.unchanged_of ready)]
  exact (settled_sendRas _ _ _).1.trans settled_countRa

/-- On a ready interface without clients, the RA is noted if it advertises. -/
theorem sendMulticast_of_ready {state after : ExactState} {now : ℚ} {setup : SetupEnv}
    {envs : Nat → SendEnv} {warned : Bool} (coherent : state.iface.Coherent)
    (ready : state.iface.stateInfo.ready = true) (clients : state.iface.clientList = [])
    (multicasts : state.iface.unicastOnly = false)
    (done : state.sendMulticast now setup envs warned = some after) :
    after.iface.settled = state.iface.settled ∧ after.clock = state.clock ∧
      (after.lastMulticast = if state.iface.advSendAdvert then now else state.lastMulticast) ∧
      after.sent = if state.iface.advSendAdvert then now :: state.sent else state.sent := by
  have reaches : state.iface.reachesGroup setup = state.iface.advSendAdvert := by
    simp [Interface.reachesGroup, ensureIfaceSetup, coherent.unchanged_of ready, ready,
      raDests_none_of_nil clients, multicasts]
  have settled := @settled_sendRaForall_of_ready state.iface setup envs warned none coherent ready
  unfold sendMulticast at done
  generalize sendRaForall setup envs warned state.iface none = outcome at settled done
  dsimp only at done
  rw [reaches] at done
  split at done
  · cases done
  · split at done
    · rename_i advertises
      cases done
      simp [settled, advertises]
    · rename_i silent
      cases done
      simp [settled, silent]

/-- What holds of every state after the kickoff: an interface that is not ready
has its RAs counted anew, and the last RA is in the past. -/
structure Sound (state : ExactState) : Prop where
  coherent : state.iface.Coherent
  accepted : state.iface.Accepted
  idle : state.iface.stateInfo.ready = false → state.iface.stateInfo.racount = 0
  last_le : state.lastMulticast ≤ state.clock
  sent_le : ∀ time ∈ state.sent.head?, time ≤ state.lastMulticast

/-! ## Not too close -/

/-- The deadline leaves the minimal delay, and so did all RAs. -/
structure Apart (state : ExactState) : Prop where
  sound : state.Sound
  delay_le : state.iface.minDelayBetweenRAs ≤
    min maxInitialRtrAdvertInterval state.iface.maxRtrAdvInterval
  deadline : state.lastMulticast + state.iface.minDelayBetweenRAs ≤ state.nextMulticast
  spaced : state.sent.IsChain fun later earlier =>
    earlier + state.iface.minDelayBetweenRAs ≤ later

section

variable {state after : ExactState} {now : ℚ}

theorem Multicast.accepted (multicast : Multicast state after now)
    (accepted : state.iface.Accepted) : after.iface.Accepted :=
  accepted.of_config multicast.config_eq (multicast.min_eq accepted.min_nonneg)

theorem Multicast.idle (multicast : Multicast state after now)
    (idle : state.iface.stateInfo.ready = false → state.iface.stateInfo.racount = 0)
    (unready : after.iface.stateInfo.ready = false) : after.iface.stateInfo.racount = 0 := by
  rw [multicast.racount_eq, if_neg (by simp [unready])]
  apply idle
  apply Bool.eq_false_of_not_eq_true
  intro ready
  rw [multicast.ready_of ready] at unready
  cases unready

/-- A multicast RA that does not come too soon, and the interval after it. -/
theorem apart_sendAndDraw {setup : SetupEnv} {envs : Nat → SendEnv} {warned : Bool} {rand : Rand}
    (apart : state.Apart) (clock : state.clock ≤ now)
    (waited : state.lastMulticast + state.iface.minDelayBetweenRAs ≤ now)
    (drawn : state.iface.stateInfo.ready = true → 2 ≤ state.iface.stateInfo.racount →
      state.iface.minDelayBetweenRAs ≤
        randBetween state.iface.minRtrAdvInterval state.iface.maxRtrAdvInterval rand)
    (done : state.sendAndDraw now setup envs warned rand = some after) :
    Apart { after with clock := now } := by
  unfold sendAndDraw at done
  rcases sending : state.sendMulticast now setup envs warned with _ | sent
  · rw [sending] at done
    cases done
  rw [sending] at done
  cases done
  have sound := apart.sound
  have multicast := multicast_sendMulticast sound.coherent sending
  have accepted := multicast.accepted sound.accepted
  have delay := minDelay_of_config multicast.config_eq
  have max := maxRtrAdvInterval_of_config multicast.config_eq
  have min := multicast.min_eq sound.accepted.min_nonneg
  have interval : state.iface.minDelayBetweenRAs ≤ effectiveNext sent.iface
      (randBetween sent.iface.minRtrAdvInterval sent.iface.maxRtrAdvInterval rand) := by
    rw [effectiveNext_drawn accepted multicast.unchanged, max, min]
    split
    · rename_i ready
      split
      · exact apart.delay_le
      · rename_i counted
        have racount := multicast.racount_eq
        simp only [ready, true_and, maxInitialRtrAdvertisements] at racount counted
        have often : 2 ≤ state.iface.stateInfo.racount := by
          split at racount <;> omega
        apply drawn _ often
        apply Bool.eq_true_of_not_eq_false
        intro unready
        have none := sound.idle unready
        omega
    · have bound := apart.delay_le.trans (min_le_right _ _)
      have positive := sound.accepted.max_ge
      linarith
  have noted : sent.lastMulticast ≤ now ∧
      (∀ time ∈ sent.sent.head?, time ≤ sent.lastMulticast) ∧
      sent.sent.IsChain fun later earlier => earlier + state.iface.minDelayBetweenRAs ≤ later := by
    rcases multicast.noted with ⟨last, history⟩ | ⟨last, history⟩
    · rw [last, history]
      refine ⟨le_rfl, by simp, List.isChain_cons.mpr ⟨?_, apart.spaced⟩⟩
      intro earlier first
      linarith [sound.sent_le earlier first]
    · rw [last, history]
      exact ⟨sound.last_le.trans clock, sound.sent_le, apart.spaced⟩
  refine ⟨⟨multicast.coherent, accepted, multicast.idle sound.idle, noted.1, noted.2.1⟩, ?_, ?_, ?_⟩
  · change sent.iface.minDelayBetweenRAs ≤ _ ⊓ sent.iface.maxRtrAdvInterval
    rw [delay, max]
    exact apart.delay_le
  · change sent.lastMulticast + sent.iface.minDelayBetweenRAs ≤ now + effectiveNext sent.iface _
    rw [delay]
    linarith [noted.1]
  · change sent.sent.IsChain fun later earlier => earlier + sent.iface.minDelayBetweenRAs ≤ later
    rw [delay]
    exact noted.2.2

/-- A new interface of the same configuration. -/
theorem Apart.with_iface {iface : Interface} (apart : state.Apart) (coherent : iface.Coherent)
    (same : iface.config = state.iface.config)
    (min : iface.minRtrAdvInterval = state.iface.minRtrAdvInterval)
    (idle : iface.stateInfo.ready = false → iface.stateInfo.racount = 0) :
    Apart { state with iface := iface } := by
  have delay := minDelay_of_config same
  have max := maxRtrAdvInterval_of_config same
  have sound := apart.sound
  refine ⟨⟨coherent, sound.accepted.of_config same min, idle, sound.last_le, sound.sent_le⟩,
    ?_, ?_, ?_⟩
  · dsimp only
    rw [delay, max]
    exact apart.delay_le
  · dsimp only
    rw [delay]
    exact apart.deadline
  · dsimp only
    rw [delay]
    exact apart.spaced

theorem Apart.with_deadline {deadline : ℚ} (apart : state.Apart)
    (later : state.lastMulticast + state.iface.minDelayBetweenRAs ≤ deadline) :
    Apart { state with nextMulticast := deadline } :=
  ⟨⟨apart.sound.coherent, apart.sound.accepted, apart.sound.idle, apart.sound.last_le,
    apart.sound.sent_le⟩, apart.delay_le, later, apart.spaced⟩

theorem Apart.with_clock (apart : state.Apart) (later : state.clock ≤ now) :
    Apart { state with clock := now } :=
  ⟨⟨apart.sound.coherent, apart.sound.accepted, apart.sound.idle,
    apart.sound.last_le.trans later, apart.sound.sent_le⟩, apart.delay_le, apart.deadline,
    apart.spaced⟩

theorem answerDelay_nonneg (rand : Rand) : 0 ≤ answerDelay rand := by
  unfold answerDelay maxRaDelaySeconds randBound
  positivity

/-- The interval of a deferred answer. -/
theorem effectiveNext_deferred {rand : Rand} (ready : state.iface.stateInfo.ready = true)
    (soon : state.TooSoon now) :
    now + effectiveNext state.iface (state.iface.minDelayBetweenRAs - now +
        state.lastMulticast + answerDelay rand) =
      if state.iface.stateInfo.racount < maxInitialRtrAdvertisements then
        now + min maxInitialRtrAdvertInterval state.iface.maxRtrAdvInterval
      else state.lastMulticast + state.iface.minDelayBetweenRAs + answerDelay rand := by
  have delay := answerDelay_nonneg rand
  have nonzero : state.iface.minDelayBetweenRAs - now + state.lastMulticast +
      answerDelay rand ≠ 0 := by
    unfold TooSoon at soon
    linarith
  unfold effectiveNext
  rw [ready, if_neg nonzero]
  simp only [Bool.not_true, Bool.and_false, Bool.false_eq_true, if_false]
  split
  · rfl
  · ring

theorem apart_answerRs {warned : Bool} {env : ProcessEnv} {addr : In6Addr} (apart : state.Apart)
    (clock : state.clock ≤ now) (ready : state.iface.stateInfo.ready = true)
    (drawn : state.iface.AnswersUnicast addr = false → ¬state.TooSoon now →
      2 ≤ state.iface.stateInfo.racount → state.iface.minDelayBetweenRAs ≤
        randBetween state.iface.minRtrAdvInterval state.iface.maxRtrAdvInterval env.intervalRand)
    (done : state.answerRs now warned env addr = some after) :
    Apart { after with clock := now } := by
  have sound := apart.sound
  unfold answerRs at done
  split at done
  · have sent := @sentFor_sendRaForall state.iface warned (some addr) env.sendSetup env.envs
      sound.coherent
    generalize sendRaForall env.sendSetup env.envs warned state.iface (some addr) = outcome
      at sent done
    rcases exits : outcome.exit with _ | exit
    · simp only [exits] at done
      cases done
      refine Apart.with_clock (apart.with_iface sent.coherent sent.config_eq
        (sent.min_eq sound.accepted.min_nonneg) ?_) clock
      intro unready
      rw [sent.ready_of ready] at unready
      cases unready
    · simp only [exits] at done
      cases done
  · rename_i multicast
    split at done
    · rename_i soon
      cases done
      refine Apart.with_clock (apart.with_deadline ?_) clock
      rw [effectiveNext_deferred ready soon]
      split
      · linarith [apart.delay_le, sound.last_le]
      · linarith [answerDelay_nonneg env.delayRand]
    · rename_i rested
      apply apart_sendAndDraw apart clock _ _ done
      · unfold TooSoon at rested
        linarith
      · exact fun _ => drawn (by simpa using multicast) rested

/-- The draws after the initial phase leave the minimal delay, and the interface
is not touched less than the delay, but for a second, after a multicast RA. -/
def KeepsApart (state : ExactState) : ExactEvent → Prop
  | .timer _ _ env => state.iface.stateInfo.ready = true → 2 ≤ state.iface.stateInfo.racount →
      state.iface.minDelayBetweenRAs ≤
        randBetween state.iface.minRtrAdvInterval state.iface.maxRtrAdvInterval env.intervalRand
  | .receive now _ packet env => packet.Accepted → packet.Solicits →
      packet.ifindex = state.iface.props.ifIndex → state.iface.stateInfo.ready = true →
      state.iface.AnswersUnicast packet.addr = false → ¬state.TooSoon now →
      2 ≤ state.iface.stateInfo.racount → state.iface.minDelayBetweenRAs ≤
        randBetween state.iface.minRtrAdvInterval state.iface.maxRtrAdvInterval env.intervalRand
  | .netlink now msg => msg.touches state.iface = true →
      state.lastMulticast + state.iface.minDelayBetweenRAs ≤ now + 1

theorem apart_process {warned : Bool} {packet : Packet} {env : ProcessEnv} (apart : state.Apart)
    (clock : state.clock ≤ now) (accepted : packet.Accepted)
    (index : packet.ifindex = state.iface.props.ifIndex)
    (keeps : state.KeepsApart (.receive now warned packet env))
    (done : state.process now warned packet env = some after) :
    Apart { after with clock := now } := by
  unfold process at done
  split at done
  · rename_i ready
    split at done
    · rename_i solicits
      exact apart_answerRs apart clock ready (keeps accepted solicits index ready) done
    · cases done
      exact apart.with_clock clock
  · rename_i unready
    simp only [Bool.not_eq_true] at unready
    rcases result : setupIface env.setup state.iface with exit | ⟨iface, ret⟩
    · rw [result] at done
      cases done
    have setUp := setupIface_setUp result
    have racount : iface.stateInfo.racount = 0 := by
      rw [setUp.stateInfo_eq]
      exact apart.sound.idle unready
    have kept := apart.with_iface setUp.coherent setUp.config_eq
      (setUp.min_eq apart.sound.accepted.min_nonneg) fun _ => racount
    rw [result] at done
    dsimp only at done
    split at done
    · cases done
      exact kept.with_clock clock
    · rename_i succeeded
      split at done
      · apply apart_answerRs kept clock _ _ done
        · dsimp only
          rw [setUp.stateInfo_eq]
          simpa using succeeded
        · intro _ _ often
          dsimp only at often
          omega
      · cases done
        exact kept.with_clock clock

theorem apart_touch (apart : state.Apart) (clock : state.clock ≤ now)
    (later : state.lastMulticast + state.iface.minDelayBetweenRAs ≤ now + 1) :
    Apart { state.touch now with clock := now } := by
  have unready : ({ state.iface with stateInfo :=
      { state.iface.stateInfo with changed := true, ready := false, racount := 0 } } :
      Interface).Coherent := ⟨fun ready => (by cases ready), fun ready => (by cases ready)⟩
  refine Apart.with_clock (Apart.with_deadline
    (apart.with_iface unready rfl rfl fun _ => rfl) ?_) clock
  dsimp only
  rw [effectiveNext_touched]
  exact later

theorem apart_step {event : ExactEvent} (step : Guarded Step KeepsApart state event after)
    (apart : state.Apart) : after.Apart := by
  obtain ⟨keeps, allowed, handled⟩ := step
  rcases done : state.handle event with _ | next
  · rw [done] at handled
    cases handled
  rw [done] at handled
  cases handled
  cases event with
  | timer now warned env =>
      apply apart_sendAndDraw apart allowed.1 _ keeps done
      exact apart.deadline.trans allowed.2
  | receive now warned packet env =>
      simp only [handle] at done
      split at done
      · rename_i ours
        exact apart_process apart allowed ours.1 ours.2 keeps done
      · cases done
        exact apart.with_clock allowed
  | netlink now msg =>
      simp only [handle, netlink] at done
      split at done
      · rename_i touches
        cases done
        exact apart_touch apart allowed (keeps touches)
      · cases done
        exact apart.with_clock allowed

/-- The first RA and the first deadline. -/
structure Started (state : ExactState) (now : ℚ) : Prop where
  coherent : state.iface.Coherent
  accepted : state.iface.Accepted
  ready : state.iface.stateInfo.ready = true
  last_eq : state.lastMulticast = now
  clock_eq : state.clock = now
  deadline_eq : state.nextMulticast =
    now + min maxInitialRtrAdvertInterval state.iface.maxRtrAdvInterval
  sent_eq : state.sent = if state.iface.advSendAdvert then [now] else []
  clients : state.iface.clientList = []
  multicasts : state.iface.unicastOnly = false

theorem KickedOff.started (kicked : state.KickedOff now) : state.Started now := by
  obtain ⟨setup, loaded, iface, warned, env, fresh, result, clients, multicasts, done⟩ := kicked
  have setUp := setupIface_setUp result
  have ready : iface.stateInfo.ready = true := by
    rw [setUp.stateInfo_eq]
    simp
  unfold kickoffAdverts at done
  rw [if_neg (by simp [multicasts])] at done
  rcases sending : sendMulticast ⟨iface, now, 0, now, []⟩ now env.setup env.envs warned with
    _ | sent
  · rw [sending] at done
    cases done
  rw [sending] at done
  cases done
  have multicast := multicast_sendMulticast setUp.coherent sending
  obtain ⟨settled, clock, history⟩ := sendMulticast_of_ready setUp.coherent ready clients
    multicasts sending
  have accepted := multicast.accepted (setUp.accepted_of rfl)
  have stillReady := multicast.ready_of ready
  have racount : sent.iface.stateInfo.racount = 1 := by
    have fromZero : iface.stateInfo.racount = 0 := by
      rw [setUp.stateInfo_eq, fresh.2]
      rfl
    rw [multicast.racount_eq, if_pos ⟨stillReady, by rw [fromZero]; decide⟩, fromZero]
  have interval : effectiveNext sent.iface
      (min maxInitialRtrAdvertInterval sent.iface.maxRtrAdvInterval) =
      min maxInitialRtrAdvertInterval sent.iface.maxRtrAdvInterval := by
    unfold effectiveNext
    have positive := accepted.fits_initial.1
    rw [stillReady, if_neg (by simp), if_neg (by linarith), racount, if_pos (by decide)]
  have advertises : sent.iface.advSendAdvert = iface.advSendAdvert := by
    have equal := congrArg Interface.advSendAdvert settled
    exact equal
  refine ⟨multicast.coherent, accepted, stillReady, ?_, clock, ?_, ?_,
    (congrArg Interface.clientList settled).trans clients,
    (congrArg Interface.unicastOnly settled).trans multicasts⟩
  · change sent.lastMulticast = now
    rw [history.1]
    split <;> rfl
  · change now + effectiveNext sent.iface _ = _
    rw [interval]
    rfl
  · change sent.sent = if sent.iface.advSendAdvert then [now] else []
    rw [history.2, advertises]

end

/-- In every run after the kickoff in which the draws and the netlink messages
leave the minimal delay, successive multicast RAs are that far apart. -/
theorem multicasts_apart {start last : ExactState} {now : ℚ} {events : List ExactEvent}
    (kicked : start.KickedOff now)
    (delay_le : start.iface.minDelayBetweenRAs ≤
      min maxInitialRtrAdvertInterval start.iface.maxRtrAdvInterval)
    (run : Run (Guarded Step KeepsApart) start events last) :
    last.sent.IsChain fun later earlier => earlier + last.iface.minDelayBetweenRAs ≤ later := by
  have apart : last.Apart := by
    apply run.invariant
    · exact fun state event next step => apart_step step
    · have started := kicked.started
      refine ⟨⟨started.coherent, started.accepted, ?_, ?_, ?_⟩, delay_le, ?_, ?_⟩
      · intro unready
        rw [started.ready] at unready
        cases unready
      · rw [started.last_eq, started.clock_eq]
      · rw [started.sent_eq, started.last_eq]
        split <;> simp
      · rw [started.last_eq, started.deadline_eq]
        linarith
      · rw [started.sent_eq]
        split <;> simp
  exact apart.spaced

/-! ## Not too far -/

/-- A ready interface that advertises to the group, whose deadline is at most the
maximal interval after its last RA. -/
structure Within (state : ExactState) : Prop where
  coherent : state.iface.Coherent
  accepted : state.iface.Accepted
  ready : state.iface.stateInfo.ready = true
  advertises : state.iface.advSendAdvert = true
  clients : state.iface.clientList = []
  multicasts : state.iface.unicastOnly = false
  noted : state.sent.head? = some state.lastMulticast
  deadline : state.nextMulticast ≤ state.lastMulticast + state.iface.maxRtrAdvInterval
  spaced : state.sent.IsChain fun later earlier =>
    later ≤ earlier + state.iface.maxRtrAdvInterval

section

variable {state after : ExactState} {now : ℚ}

theorem within_sendAndDraw {setup : SetupEnv} {envs : Nat → SendEnv} {warned : Bool} {rand : Rand}
    (within : state.Within) (prompt : now ≤ state.nextMulticast)
    (done : state.sendAndDraw now setup envs warned rand = some after) :
    Within { after with clock := now } := by
  unfold sendAndDraw at done
  rcases sending : state.sendMulticast now setup envs warned with _ | sent
  · rw [sending] at done
    cases done
  rw [sending] at done
  cases done
  obtain ⟨settled, -, last, history⟩ := sendMulticast_of_ready within.coherent within.ready
    within.clients within.multicasts sending
  rw [if_pos within.advertises] at last history
  have multicast := multicast_sendMulticast within.coherent sending
  have accepted := multicast.accepted within.accepted
  have ready := multicast.ready_of within.ready
  have max := maxRtrAdvInterval_of_config multicast.config_eq
  have interval : effectiveNext sent.iface (randBetween sent.iface.minRtrAdvInterval
      sent.iface.maxRtrAdvInterval rand) ≤ sent.iface.maxRtrAdvInterval := by
    rw [effectiveNext_drawn accepted multicast.unchanged, if_pos ready]
    split
    · exact min_le_right _ _
    · exact (randBetween_mem accepted.min_le_max rand).2
  have advertises : sent.iface.advSendAdvert = true :=
    (congrArg Interface.advSendAdvert settled).trans within.advertises
  have clients : sent.iface.clientList = [] :=
    (congrArg Interface.clientList settled).trans within.clients
  have multicasts : sent.iface.unicastOnly = false :=
    (congrArg Interface.unicastOnly settled).trans within.multicasts
  refine ⟨multicast.coherent, accepted, ready, advertises, clients, multicasts, ?_, ?_, ?_⟩
  · change sent.sent.head? = some sent.lastMulticast
    rw [history, last]
    rfl
  · change now + effectiveNext sent.iface _ ≤ sent.lastMulticast + sent.iface.maxRtrAdvInterval
    rw [last]
    linarith
  · change sent.sent.IsChain fun later earlier => later ≤ earlier + sent.iface.maxRtrAdvInterval
    rw [history, max]
    refine List.isChain_cons.mpr ⟨?_, within.spaced⟩
    intro earlier first
    rw [within.noted] at first
    cases first
    exact prompt.trans within.deadline

/-- Solicitations and timers that expire on time. -/
structure OnTimeStep (state : ExactState) (event : ExactEvent) (next : ExactState) : Prop where
  step : state.Step event next
  onTime : event.now ≤ state.nextMulticast
  quiet : ∀ now msg, event ≠ .netlink now msg

/-- A solicitation that is deferred does not put the RA off for too long. -/
def KeepsWithin (state : ExactState) : ExactEvent → Prop
  | .receive now _ packet env => packet.Accepted → packet.Solicits →
      packet.ifindex = state.iface.props.ifIndex →
      state.iface.AnswersUnicast packet.addr = false → state.TooSoon now →
      if state.iface.stateInfo.racount < maxInitialRtrAdvertisements then
        now + min maxInitialRtrAdvertInterval state.iface.maxRtrAdvInterval ≤
          state.lastMulticast + state.iface.maxRtrAdvInterval
      else state.iface.minDelayBetweenRAs + answerDelay env.delayRand ≤
        state.iface.maxRtrAdvInterval
  | _ => True

theorem Within.with_clock (within : state.Within) : Within { state with clock := now } :=
  ⟨within.coherent, within.accepted, within.ready, within.advertises, within.clients,
    within.multicasts, within.noted, within.deadline, within.spaced⟩

theorem within_answerRs {warned : Bool} {env : ProcessEnv} {addr : In6Addr}
    (within : state.Within) (prompt : now ≤ state.nextMulticast)
    (keeps : state.iface.AnswersUnicast addr = false → state.TooSoon now →
      if state.iface.stateInfo.racount < maxInitialRtrAdvertisements then
        now + min maxInitialRtrAdvertInterval state.iface.maxRtrAdvInterval ≤
          state.lastMulticast + state.iface.maxRtrAdvInterval
      else state.iface.minDelayBetweenRAs + answerDelay env.delayRand ≤
        state.iface.maxRtrAdvInterval)
    (done : state.answerRs now warned env addr = some after) :
    Within { after with clock := now } := by
  unfold answerRs at done
  split at done
  · have sent := @sentFor_sendRaForall state.iface warned (some addr) env.sendSetup env.envs
      within.coherent
    have settled := @settled_sendRaForall_of_ready state.iface env.sendSetup env.envs warned
      (some addr) within.coherent within.ready
    generalize sendRaForall env.sendSetup env.envs warned state.iface (some addr) = outcome
      at sent settled done
    rcases exits : outcome.exit with _ | exit
    · simp only [exits] at done
      cases done
      have max := maxRtrAdvInterval_of_config sent.config_eq
      refine ⟨sent.coherent, within.accepted.of_settled settled, sent.ready_of within.ready,
        (congrArg Interface.advSendAdvert settled).trans within.advertises,
        (congrArg Interface.clientList settled).trans within.clients,
        (congrArg Interface.unicastOnly settled).trans within.multicasts, within.noted, ?_, ?_⟩
      · dsimp only
        rw [max]
        exact within.deadline
      · dsimp only
        rw [max]
        exact within.spaced
    · simp only [exits] at done
      cases done
  · rename_i multicast
    split at done
    · rename_i soon
      cases done
      have bound := keeps (by simpa using multicast) soon
      refine ⟨within.coherent, within.accepted, within.ready, within.advertises, within.clients,
        within.multicasts, within.noted, ?_, within.spaced⟩
      change now + effectiveNext state.iface _ ≤
        state.lastMulticast + state.iface.maxRtrAdvInterval
      rw [effectiveNext_deferred within.ready soon]
      split at bound
      · rename_i initial
        rw [if_pos initial]
        exact bound
      · rename_i counted
        rw [if_neg counted]
        linarith
    · exact within_sendAndDraw within prompt done

theorem within_step {event : ExactEvent}
    (step : Guarded OnTimeStep KeepsWithin state event after) (within : state.Within) :
    after.Within := by
  obtain ⟨keeps, ⟨-, handled⟩, onTime, quiet⟩ := step
  rcases done : state.handle event with _ | next
  · rw [done] at handled
    cases handled
  rw [done] at handled
  cases handled
  cases event with
  | timer now warned env => exact within_sendAndDraw within onTime done
  | receive now warned packet env =>
      simp only [handle] at done
      split at done
      · rename_i ours
        unfold process at done
        rw [if_pos within.ready] at done
        split at done
        · rename_i solicits
          exact within_answerRs within onTime (keeps ours.1 solicits ours.2) done
        · cases done
          exact within.with_clock
      · cases done
        exact within.with_clock
  | netlink now msg => exact absurd rfl (quiet now msg)

end

/-- In every run of solicitations and timers that expire on time, in which no
solicitation puts the RA off for too long, the deadline is at most the maximal
interval after the last multicast RA, and so are successive RAs. -/
theorem multicasts_within {start last : ExactState} {now : ℚ} {events : List ExactEvent}
    (kicked : start.KickedOff now) (advertises : start.iface.advSendAdvert = true)
    (run : Run (Guarded OnTimeStep KeepsWithin) start events last) :
    last.nextMulticast ≤ last.lastMulticast + last.iface.maxRtrAdvInterval ∧
      last.sent.IsChain fun later earlier => later ≤ earlier + last.iface.maxRtrAdvInterval := by
  have within : last.Within := by
    apply run.invariant
    · exact fun state event next step => within_step step
    · have started := kicked.started
      have history := started.sent_eq
      rw [if_pos advertises] at history
      refine ⟨started.coherent, started.accepted, started.ready, advertises, started.clients,
        started.multicasts, ?_, ?_, ?_⟩
      · rw [history, started.last_eq]
        rfl
      · rw [started.last_eq, started.deadline_eq]
        linarith [min_le_right maxInitialRtrAdvertInterval start.iface.maxRtrAdvInterval]
      · rw [history]
        simp
  exact ⟨within.deadline, within.spaced⟩

end ExactState

/-! ## A wired interface -/

/-- An interface that advertises, with a `MaxRtrAdvInterval` of `max` seconds. -/
def wired (max : ℚ) : Interface :=
  { ifaceInitDefaults with
    advSendAdvert := true
    maxRtrAdvInterval := max
    props := { ifaceInitDefaults.props with name := decrementing.props.name } }

/-- What follows its kickoff at time 0. -/
def wiredRun (max : ℚ) (events : List ExactEvent) : Option (ExactState × ExactState) :=
  (setupIface SetupEnv.ethernet (wired max)).toOption.bind fun ready =>
    if ready.2 = 0 ∧ ready.1.clientList = [] ∧ ready.1.unicastOnly = false then
      (ExactState.kickoffAdverts ⟨ready.1, 0, 0, 0, []⟩ 0 false (.ethernet ⟨0, 0⟩)).bind fun start =>
        (start.follow events).map fun last => (start, last)
    else none

theorem run_of_wiredRun {max : ℚ} {events : List ExactEvent} {start last : ExactState}
    (followed : wiredRun max events = some (start, last)) :
    start.KickedOff 0 ∧ Run ExactState.Step start events last := by
  unfold wiredRun at followed
  rcases Option.bind_eq_some_iff.mp followed with ⟨⟨iface, ret⟩, done, later⟩
  split at later
  · rename_i ready
    rcases Option.bind_eq_some_iff.mp later with ⟨kicked, kickoff, rest⟩
    rcases Option.map_eq_some_iff.mp rest with ⟨reached, run, same⟩
    cases same
    obtain ⟨succeeded, clients, multicasts⟩ := ready
    dsimp only at succeeded
    subst succeeded
    refine ⟨⟨SetupEnv.ethernet, wired max, iface, false, .ethernet ⟨0, 0⟩, ⟨rfl, rfl⟩, ?_, clients,
      multicasts, kickoff⟩, ExactState.run_of_follow run⟩
    rcases result : setupIface SetupEnv.ethernet (wired max) with exit | pair
    · rw [result] at done
      cases done
    · rw [result] at done
      cases done
      rfl
  · cases later

/-- What is seen of the run. -/
theorem exists_wiredRun {α : Type} {observe : ExactState × ExactState → α} {max : ℚ}
    {events : List ExactEvent} {seen : α}
    (followed : (wiredRun max events).map observe = some seen) :
    ∃ start last, start.KickedOff 0 ∧ Run ExactState.Step start events last ∧
      observe (start, last) = seen := by
  rcases Option.map_eq_some_iff.mp followed with ⟨⟨start, last⟩, reached, same⟩
  have run := run_of_wiredRun reached
  exact ⟨start, last, run.1, run.2, same⟩

theorem multicasts_apart_wired :
    ∃ start last : ExactState, start.KickedOff 0 ∧ last.sent = [16, 0] ∧
      last.sent.IsChain fun later earlier => earlier + last.iface.minDelayBetweenRAs ≤ later := by
  have followed : (wiredRun 16 [.timer 16 false (.ethernet ⟨16, 0⟩)]).map (fun run =>
      (run.2.sent, run.1.iface.minDelayBetweenRAs, run.1.iface.maxRtrAdvInterval,
        run.1.iface.stateInfo.racount)) = some ([16, 0], 3, 16, 1) := by
    with_unfolding_all decide
  rcases exists_wiredRun followed with ⟨start, last, kicked, run, seen⟩
  simp only [Prod.mk.injEq] at seen
  obtain ⟨history, delay, max, racount⟩ := seen
  refine ⟨start, last, kicked, history, ?_⟩
  cases run with
  | cons step rest =>
      cases rest
      apply ExactState.multicasts_apart kicked
      · rw [delay, max]
        unfold maxInitialRtrAdvertInterval
        norm_num
      · refine .cons ⟨?_, step⟩ (.nil _)
        intro _ often
        omega

/-- A change of the link half a second after an RA leads to the next one a second
later, where three seconds are to be between them. -/
theorem multicasts_not_apart :
    ∃ (start last : ExactState) (events : List ExactEvent), start.KickedOff 0 ∧
      Run ExactState.Step start events last ∧ last.sent = [3 / 2, 0] ∧
      ¬last.sent.IsChain fun later earlier => earlier + last.iface.minDelayBetweenRAs ≤ later := by
  have followed : (wiredRun 16 [.netlink (1 / 2) ⟨.setlink, 2, none, .ethernet, ⟨0, 0⟩⟩,
      .timer (3 / 2) false (.ethernet ⟨1, 0⟩)]).map (fun run =>
      (run.2.sent, run.2.iface.minDelayBetweenRAs)) = some ([3 / 2, 0], 3) := by
    with_unfolding_all decide
  rcases exists_wiredRun followed with ⟨start, last, kicked, run, seen⟩
  simp only [Prod.mk.injEq] at seen
  refine ⟨start, last, _, kicked, run, seen.1, ?_⟩
  rw [seen.1, seen.2]
  norm_num

theorem multicasts_within_wired :
    ∃ start last : ExactState, start.KickedOff 0 ∧ last.sent = [16, 0] ∧
      last.nextMulticast ≤ last.lastMulticast + last.iface.maxRtrAdvInterval ∧
      last.sent.IsChain fun later earlier => later ≤ earlier + last.iface.maxRtrAdvInterval := by
  have followed : (wiredRun 16 [.timer 16 false (.ethernet ⟨16, 0⟩)]).map (fun run =>
      (run.2.sent, run.1.iface.advSendAdvert, run.1.nextMulticast)) = some ([16, 0], true, 16) := by
    with_unfolding_all decide
  rcases exists_wiredRun followed with ⟨start, last, kicked, run, seen⟩
  simp only [Prod.mk.injEq] at seen
  obtain ⟨history, advertises, deadline⟩ := seen
  refine ⟨start, last, kicked, history, ?_⟩
  cases run with
  | cons step rest =>
      cases rest
      have onTime := ExactState.OnTimeStep.mk step deadline.ge fun now msg same => by cases same
      have keeps : start.KeepsWithin (.timer 16 false (.ethernet ⟨16, 0⟩)) := trivial
      exact ExactState.multicasts_within kicked advertises (.cons ⟨keeps, onTime⟩ (.nil _))

/-- A solicitation 2.9 s after the first RA puts the second one off until 18.9 s,
where 16 s are allowed. -/
theorem multicasts_not_within :
    ∃ (start last : ExactState) (events : List ExactEvent), start.KickedOff 0 ∧
      start.iface.advSendAdvert = true ∧ Run ExactState.OnTimeStep start events last ∧
      last.nextMulticast = 189 / 10 ∧
      ¬last.nextMulticast ≤ last.lastMulticast + last.iface.maxRtrAdvInterval := by
  have followed : (wiredRun 16 [.receive (29 / 10) false (solicitation In6Addr.unspecified)
      (.ethernet ⟨2, 0⟩)]).map (fun run => (run.1.iface.advSendAdvert, run.1.nextMulticast,
        run.2.nextMulticast, run.2.lastMulticast, run.2.iface.maxRtrAdvInterval)) =
      some (true, 16, 189 / 10, 0, 16) := by
    with_unfolding_all decide
  rcases exists_wiredRun followed with ⟨start, last, kicked, run, seen⟩
  simp only [Prod.mk.injEq] at seen
  obtain ⟨advertises, first, next, noted, max⟩ := seen
  cases run with
  | cons step rest =>
      cases rest
      have onTime := ExactState.OnTimeStep.mk step (by rw [first, ExactEvent.now]; norm_num)
        fun now msg same => by cases same
      refine ⟨start, last, _, kicked, advertises, .cons onTime (.nil _), next, ?_⟩
      rw [next, noted, max]
      norm_num

end Radvd
