import Radvd.System

/-!
# What a run leaves alone

The settings of an interface that no step of the daemon changes
(`config_step`). Setting up an interface fills in defaults and measures the
device; everything else that happens to an interface leaves these parts alone
as well (`settled`).
-/

namespace Radvd

open Wire Access

/-- The interface without what sending, rescheduling and touching change. -/
def Interface.settled (iface : Interface) : Interface :=
  { iface with
    stateInfo := ifaceInitDefaults.stateInfo
    times := ifaceInitDefaults.times
    advPrefixList := [] }

/-- The interface without what any step changes. -/
def Interface.config (iface : Interface) : Interface :=
  { iface.settled with
    unicastOnly := false
    minRtrAdvInterval := 0
    props := { ifaceInitDefaults.props with name := iface.props.name }
    raHeaderInfo := { iface.raHeaderInfo with advDefaultLifetime := 0 }
    sllao := ifaceInitDefaults.sllao
    mipv6 := { iface.mipv6 with homeAgentLifetime := 0 } }

section

variable {iface iface' : Interface} {warned : Bool} {dest : Option In6Addr}

theorem config_of_settled (same : iface'.settled = iface.settled) :
    iface'.config = iface.config := by
  have parts : ∀ iface : Interface, iface.config = iface.settled.config := fun _ => rfl
  rw [parts, same, ← parts]

/-! ## Setting up -/

/-- What the steps of `setup_iface` keep, apart from the first and the last. -/
structure Kept (before after : Interface) : Prop where
  config_eq : after.config = before.config
  stateInfo_eq : after.stateInfo = before.stateInfo
  unicastOnly_of : before.unicastOnly = true → after.unicastOnly = true
  min_eq : 0 ≤ before.minRtrAdvInterval → after.minRtrAdvInterval = before.minRtrAdvInterval

theorem Kept.refl (iface : Interface) : Kept iface iface :=
  ⟨rfl, rfl, id, fun _ => rfl⟩

theorem Kept.trans {first second third : Interface} (one : Kept first second)
    (two : Kept second third) : Kept first third :=
  ⟨two.config_eq.trans one.config_eq, two.stateInfo_eq.trans one.stateInfo_eq,
    two.unicastOnly_of ∘ one.unicastOnly_of, by
      intro nonneg
      have first := one.min_eq nonneg
      rw [← first] at nonneg ⊢
      exact two.min_eq nonneg⟩

theorem Remeasured.kept (measured : Remeasured iface iface') : Kept iface iface' := by
  refine ⟨?_, ?_, measured.unicastOnly_of, ?_⟩
  · have name := measured.name_eq
    rw [measured.rest_eq]
    simp only [Interface.config, Interface.settled, name]
  · rw [measured.rest_eq]
  · rw [measured.rest_eq]
    exact fun _ => rfl

theorem kept_fillDefaults : Kept iface (fillDefaults iface) := by
  have min : 0 ≤ iface.minRtrAdvInterval →
      (fillDefaults iface).minRtrAdvInterval = iface.minRtrAdvInterval := by
    intro nonneg
    unfold fillDefaults
    dsimp only
    rw [if_neg (not_lt.mpr nonneg)]
    split_ifs <;> rfl
  refine ⟨?_, ?_, ?_, min⟩
  all_goals
    unfold fillDefaults
    dsimp only
    split_ifs
    all_goals first | rfl | exact id

/-- The intervals that `check_iface` accepts, with or without the extensions of
Mobile IPv6. -/
structure Interface.Accepted (iface : Interface) : Prop where
  min_ge : 3 / 100 ≤ iface.minRtrAdvInterval
  min_le : iface.minRtrAdvInterval ≤ 3 / 4 * iface.maxRtrAdvInterval
  max_ge : 7 / 100 ≤ iface.maxRtrAdvInterval
  max_le : iface.maxRtrAdvInterval ≤ 65535
  delay_ge : 3 / 100 ≤ iface.minDelayBetweenRAs

theorem accepted_checkIface {env : SetupEnv} {ret : Int}
    (done : checkIface env iface = .ok (iface', ret)) (accepts : ¬ret < 0) : iface'.Accepted := by
  unfold checkIface at done
  rcases forwarding : checkIp6IfaceForwarding env with exit | value
  · rw [forwarding] at done
    cases done
  · rw [forwarding] at done
    cases done
    split at accepts
    · rename_i checks
      simp only [ifaceChecks, List.all_cons, id_eq, Bool.and_eq_true, Bool.not_eq_true',
        Bool.or_eq_false_iff, decide_eq_false_iff_not, not_lt] at checks
      obtain ⟨⟨minGe, minLe⟩, ⟨maxGe, maxLe⟩, delayGe, -⟩ := checks
      refine ⟨?_, minLe, ?_, maxLe, ?_⟩
      · split at minGe
        · exact minGe
        · linarith
      · split at maxGe
        · exact maxGe
        · linarith
      · split at delayGe
        · linarith
        · linarith
    · exact absurd (by decide) accepts

/-- A set-up clears `changed`, sets `ready` exactly if it succeeds, for which it
must have accepted the intervals and joined the group, and keeps the
configuration. -/
structure SetUp (env : SetupEnv) (before after : Interface) (ret : Int) : Prop where
  ret_nonpos : ret ≤ 0
  config_eq : after.config = before.config
  unicastOnly_of : before.unicastOnly = true → after.unicastOnly = true
  stateInfo_eq : after.stateInfo =
    { before.stateInfo with changed := false, ready := decide (ret = 0) }
  joins_of : ret = 0 → env.joins = true
  accepted_of : ret = 0 → after.Accepted
  min_eq : 0 ≤ before.minRtrAdvInterval → after.minRtrAdvInterval = before.minRtrAdvInterval

theorem Kept.setUp {env : SetupEnv} {ret : Int} (failed : ret < 0)
    (kept : Kept iface.unready iface') :
    SetUp env iface iface' ret where
  ret_nonpos := failed.le
  config_eq := kept.config_eq
  unicastOnly_of := kept.unicastOnly_of
  stateInfo_eq := by
    rw [kept.stateInfo_eq, decide_eq_false failed.ne]
    rfl
  joins_of := fun succeeded => absurd succeeded failed.ne
  accepted_of := fun succeeded => absurd succeeded failed.ne
  min_eq := kept.min_eq

theorem setupIface_setUp {env : SetupEnv} {ret : Int}
    (done : setupIface env iface = .ok (iface', ret)) : SetUp env iface iface' ret := by
  cases setupIface_cases done with
  | device failed measured => exact measured.kept.setUp failed
  | checked measured failed filled =>
      exact (measured.kept.trans (kept_fillDefaults.trans filled.kept)).setUp failed
  | @ready known _ measured _ check accepts _ _ joins =>
      have addrs := @remeasured_setupIfaceAddrs env (fillDefaults known)
      have kept := measured.kept.trans (kept_fillDefaults.trans addrs.kept)
      have accepted : (setupIfaceAddrs env (fillDefaults known)).1.Accepted := by
        have before := accepted_checkIface check accepts
        rw [addrs.rest_eq]
        exact ⟨before.min_ge, before.min_le, before.max_ge, before.max_le, before.delay_ge⟩
      refine ⟨le_rfl, kept.config_eq, kept.unicastOnly_of, ?_, fun _ => joins, fun _ => ?_,
        kept.min_eq⟩
      · simp [Interface.readied, kept.stateInfo_eq, Interface.unready]
      · exact ⟨accepted.min_ge, accepted.min_le, accepted.max_ge, accepted.max_le,
          accepted.delay_ge⟩

/-! ## Sending -/

theorem settled_agedIface (env : SendEnv) : (agedIface env iface dest).settled = iface.settled := by
  cases dest <;> rfl

theorem settled_sendRa (env : SendEnv) :
    (sendRa env warned iface dest).iface.settled = iface.settled := by
  unfold sendRa
  split
  · rfl
  · dsimp only
    split <;> exact settled_agedIface env

theorem stateInfo_sendRa (env : SendEnv) :
    (sendRa env warned iface dest).iface.stateInfo = iface.stateInfo := by
  unfold sendRa
  split
  · rfl
  · dsimp only
    split <;> cases dest <;> rfl

theorem settled_sendRas (envs : Nat → SendEnv) (index : Nat) (dests : List (Option In6Addr)) :
    (sendRas envs index warned iface dests).iface.settled = iface.settled ∧
      (sendRas envs index warned iface dests).iface.stateInfo = iface.stateInfo := by
  induction dests generalizing index warned iface with
  | nil => exact ⟨rfl, rfl⟩
  | cons dest rest ih =>
      unfold sendRas
      dsimp only
      split
      · exact ⟨settled_sendRa _, stateInfo_sendRa _⟩
      · rw [(ih _).1, (ih _).2]
        exact ⟨settled_sendRa _, stateInfo_sendRa _⟩

theorem settled_countRa : (countRa iface dest).settled = iface.settled := by
  unfold countRa
  split <;> rfl

theorem settled_rescheduleIface (now : Timespec) (next : ℚ) :
    (rescheduleIface now iface next).settled = iface.settled := rfl

theorem settled_rescheduled (outcome : ForallOutcome) (now : Timespec) (rand : Rand) :
    (outcome.rescheduled now rand).iface.settled = outcome.iface.settled := by
  unfold ForallOutcome.rescheduled
  split <;> rfl

theorem config_ensureIfaceSetup {setup : SetupEnv}
    (done : ensureIfaceSetup setup iface = .ok iface') : iface'.config = iface.config := by
  unfold ensureIfaceSetup at done
  split at done
  · rcases result : setupIface setup iface with exit | ⟨after, ret⟩
    · rw [result] at done
      cases done
    · rw [result] at done
      cases done
      exact (setupIface_setUp result).config_eq
  · cases done
    rfl

theorem config_sendRaForall (setup : SetupEnv) (envs : Nat → SendEnv) :
    (sendRaForall setup envs warned iface dest).iface.config = iface.config := by
  unfold sendRaForall
  split
  · rfl
  · rename_i ensured done
    have same := config_ensureIfaceSetup done
    split
    · exact same
    · apply Eq.trans _ same
      apply config_of_settled
      exact (settled_sendRas _ _ _).1.trans settled_countRa

/-! ## Being ready -/

/-- An interface was only made ready after its intervals were accepted, and it is
not marked as changed while it is ready. -/
structure Interface.Coherent (iface : Interface) : Prop where
  accepted_of : iface.stateInfo.ready = true → iface.Accepted
  unchanged_of : iface.stateInfo.ready = true → iface.stateInfo.changed = false

theorem Interface.Accepted.of_settled (accepted : iface.Accepted)
    (same : iface'.settled = iface.settled) : iface'.Accepted := by
  have min : iface'.minRtrAdvInterval = iface.minRtrAdvInterval := by
    have equal := congrArg Interface.minRtrAdvInterval same
    exact equal
  have max : iface'.maxRtrAdvInterval = iface.maxRtrAdvInterval := by
    have equal := congrArg Interface.maxRtrAdvInterval same
    exact equal
  have delay : iface'.minDelayBetweenRAs = iface.minDelayBetweenRAs := by
    have equal := congrArg Interface.minDelayBetweenRAs same
    exact equal
  constructor
  · rw [min]
    exact accepted.min_ge
  · rw [min, max]
    exact accepted.min_le
  · rw [max]
    exact accepted.max_ge
  · rw [max]
    exact accepted.max_le
  · rw [delay]
    exact accepted.delay_ge

theorem Interface.Coherent.of_settled (coherent : iface.Coherent)
    (same : iface'.settled = iface.settled)
    (ready : iface'.stateInfo.ready = iface.stateInfo.ready)
    (changed : iface'.stateInfo.changed = iface.stateInfo.changed) : iface'.Coherent := by
  constructor
  · rw [ready]
    exact fun isReady => (coherent.accepted_of isReady).of_settled same
  · rw [ready, changed]
    exact coherent.unchanged_of

theorem maxRtrAdvInterval_of_config (same : iface'.config = iface.config) :
    iface'.maxRtrAdvInterval = iface.maxRtrAdvInterval := by
  have equal := congrArg Interface.maxRtrAdvInterval same
  exact equal

theorem SetUp.coherent {env : SetupEnv} {ret : Int} (setUp : SetUp env iface iface' ret) :
    iface'.Coherent := by
  constructor
  · intro ready
    rw [setUp.stateInfo_eq] at ready
    exact setUp.accepted_of (by simpa using ready)
  · rw [setUp.stateInfo_eq]
    exact fun _ => rfl

theorem nextMulticast_sendRa (env : SendEnv) :
    (sendRa env warned iface dest).iface.times.nextMulticast = iface.times.nextMulticast := by
  unfold sendRa
  split
  · rfl
  · dsimp only
    split <;> cases dest <;> rfl

theorem nextMulticast_sendRas (envs : Nat → SendEnv) (index : Nat)
    (dests : List (Option In6Addr)) :
    (sendRas envs index warned iface dests).iface.times.nextMulticast =
      iface.times.nextMulticast := by
  induction dests generalizing index warned iface with
  | nil => rfl
  | cons dest rest ih =>
      unfold sendRas
      dsimp only
      split
      · exact nextMulticast_sendRa _
      · exact (ih _).trans (nextMulticast_sendRa _)

/-- An interface that has been sent for: it keeps its deadline, stays ready if it
was, and unless the program ends it is set up or has failed to be. -/
structure SentFor (before : Interface) (dest : Option In6Addr) (outcome : ForallOutcome) :
    Prop where
  coherent : outcome.iface.Coherent
  config_eq : outcome.iface.config = before.config
  deadline_eq : outcome.iface.times.nextMulticast = before.times.nextMulticast
  min_eq : 0 ≤ before.minRtrAdvInterval →
    outcome.iface.minRtrAdvInterval = before.minRtrAdvInterval
  unchanged : outcome.exit = none → outcome.iface.stateInfo.changed = false
  ready_of : before.stateInfo.ready = true → outcome.iface.stateInfo.ready = true
  racount_eq : outcome.iface.stateInfo.racount =
    if outcome.iface.stateInfo.ready ∧ before.stateInfo.racount < maxInitialRtrAdvertisements ∧
      dest = none then before.stateInfo.racount + 1 else before.stateInfo.racount

/-- What `ensure_iface_setup` does to a coherent interface. -/
structure Ensured (before after : Interface) : Prop where
  coherent : after.Coherent
  config_eq : after.config = before.config
  times_eq : after.times = before.times
  min_eq : 0 ≤ before.minRtrAdvInterval → after.minRtrAdvInterval = before.minRtrAdvInterval
  unchanged : after.stateInfo.changed = false
  ready_of : before.stateInfo.ready = true → after.stateInfo.ready = true
  racount_eq : after.stateInfo.racount = before.stateInfo.racount

theorem ensured_ensureIfaceSetup {setup : SetupEnv} (coherent : iface.Coherent)
    (done : ensureIfaceSetup setup iface = .ok iface') : Ensured iface iface' := by
  unfold ensureIfaceSetup at done
  split at done
  · rename_i changed
    rcases result : setupIface setup iface with exit | ⟨after, ret⟩
    · rw [result] at done
      cases done
    · rw [result] at done
      cases done
      have setUp := setupIface_setUp result
      have stateInfo := setUp.stateInfo_eq
      refine ⟨setUp.coherent, setUp.config_eq, (frame_setupIface result).times_eq, setUp.min_eq,
        by rw [stateInfo], ?_, by rw [stateInfo]⟩
      intro ready
      rw [coherent.unchanged_of ready] at changed
      cases changed
  · rename_i unchanged
    cases done
    exact ⟨coherent, rfl, rfl, fun _ => rfl, by simpa using unchanged, id, rfl⟩

theorem sentFor_sendRaForall (setup : SetupEnv) (envs : Nat → SendEnv)
    (coherent : iface.Coherent) :
    SentFor iface dest (sendRaForall setup envs warned iface dest) := by
  unfold sendRaForall
  split
  · rename_i exit failed
    refine ⟨coherent, rfl, rfl, fun _ => rfl, fun ends => (by cases ends), id, ?_⟩
    rw [if_neg]
    rintro ⟨ready, -⟩
    rw [ensureIfaceSetup, if_neg (by simp [coherent.unchanged_of ready])] at failed
    cases failed
  · rename_i after done
    have ensured := ensured_ensureIfaceSetup coherent done
    split
    · rename_i unready
      refine ⟨ensured.coherent, ensured.config_eq, by rw [ensured.times_eq], ensured.min_eq,
        fun _ => ensured.unchanged, ensured.ready_of, ?_⟩
      rw [if_neg, ensured.racount_eq]
      rintro ⟨ready, -⟩
      dsimp only at ready
      rw [ready] at unready
      cases unready
    · rename_i ready
      have counted : (countRa after dest).times = after.times ∧
          (countRa after dest).stateInfo.ready = after.stateInfo.ready ∧
          (countRa after dest).stateInfo.changed = after.stateInfo.changed := by
        unfold countRa
        split <;> exact ⟨rfl, rfl, rfl⟩
      have racount : (countRa after dest).stateInfo.racount =
          if after.stateInfo.racount < maxInitialRtrAdvertisements ∧ dest = none then
            after.stateInfo.racount + 1 else after.stateInfo.racount := by
        unfold countRa
        split <;> rfl
      have sent := @settled_sendRas (countRa after dest) warned envs 0
        (raDests (countRa after dest) dest)
      have deadline := @nextMulticast_sendRas (countRa after dest) warned envs 0
        (raDests (countRa after dest) dest)
      have settled := sent.1.trans settled_countRa
      have min := congrArg Interface.minRtrAdvInterval settled
      rw [counted.1, ensured.times_eq] at deadline
      dsimp only
      refine ⟨?_, (config_of_settled settled).trans ensured.config_eq, deadline, ?_, ?_, ?_, ?_⟩
      · apply ensured.coherent.of_settled settled
        · rw [sent.2, counted.2.1]
        · rw [sent.2, counted.2.2]
      · intro nonneg
        exact min.trans (ensured.min_eq nonneg)
      · intro _
        rw [sent.2, counted.2.2]
        exact ensured.unchanged
      · intro wasReady
        rw [sent.2, counted.2.1]
        exact ensured.ready_of wasReady
      · rw [sent.2, counted.2.1, racount, ensured.racount_eq]
        simp only [Bool.not_eq_true', Bool.not_eq_false] at ready
        simp [ready]

/-! ## The handlers -/

theorem config_timerHandler (env : TimerEnv) :
    (timerHandler env warned iface).iface.config = iface.config := by
  unfold timerHandler
  apply Eq.trans (config_of_settled (settled_rescheduled _ _ _))
  apply config_sendRaForall

theorem config_kickoffAdverts (env : KickoffEnv) :
    (kickoffAdverts env warned iface).iface.config = iface.config := by
  unfold kickoffAdverts
  dsimp only
  split
  · rfl
  · split
    · apply Eq.trans (config_sendRaForall _ _)
      rfl
    · apply Eq.trans (config_of_settled (settled_rescheduleIface _ _))
      apply Eq.trans (config_sendRaForall _ _)
      rfl

theorem config_setupIfaceFoo (setup : SetupEnv) (kickoff : KickoffEnv) :
    (setupIfaceFoo setup kickoff warned iface).iface.config = iface.config := by
  unfold setupIfaceFoo
  split
  · rfl
  · rename_i after ret done
    have same := (setupIface_setUp done).config_eq
    split_ifs
    · exact same
    · exact same
    · exact (config_kickoffAdverts _).trans same

theorem config_stopAdvertFoo (env : StopEnv) :
    (stopAdvertFoo env warned iface).iface.config = iface.config := by
  unfold stopAdvertFoo
  split
  · apply Eq.trans (config_sendRaForall _ _)
    rfl
  · rfl

theorem config_answerRs (env : ProcessEnv) (addr : In6Addr) :
    (answerRs env warned iface addr).iface.config = iface.config := by
  unfold answerRs
  dsimp only
  split_ifs
  · apply config_sendRaForall
  · rfl
  · apply Eq.trans (config_of_settled (settled_rescheduled _ _ _))
    apply config_sendRaForall

theorem config_processOn (env : ProcessEnv) (packet : Packet) :
    (processOn env packet warned iface).value.iface.config = iface.config := by
  have ready : ∀ iface : Interface,
      (processReady env packet warned iface).value.iface.config = iface.config := by
    intro iface
    rw [value_processReady]
    split
    · apply config_answerRs
    · rfl
  unfold processOn
  split
  · apply ready
  · split
    · rfl
    · rename_i after ret done
      have same := (setupIface_setUp done).config_eq
      split
      · exact same
      · exact (ready after).trans same

theorem config_netlinkTouch (msg : NetlinkMsg) : (netlinkTouch msg iface).config = iface.config := by
  unfold netlinkTouch
  split
  · rfl
  · rfl
  · split <;> rfl
  · split <;> rfl
  all_goals rfl

end

/-! ## The daemon -/

/-- No step changes what the configuration says about an interface. -/
theorem config_step (daemon : Daemon) (event : DaemonEvent) :
    (daemon.step event).daemon.ifaces.map Interface.config =
      daemon.ifaces.map Interface.config := by
  let same (before after : Interface) : Prop := after.config = before.config
  have related : event.Relates daemon same := by
    cases event with
    | start position setup kickoff => exact fun iface _ => config_setupIfaceFoo setup kickoff
    | timer position env => exact fun iface _ => config_timerHandler env
    | receive packet env => exact fun _ _ iface _ => config_processOn env packet
    | netlink msgs => exact fun msg _ iface => config_netlinkTouch msg
    | stop envs => exact fun iface _ position warned => config_stopAdvertFoo (envs position)
  have stepped : List.Forall₂ same daemon.ifaces (daemon.step event).daemon.ifaces := by
    apply forall₂_step _ _ related
    · exact fun iface => rfl
    · exact fun first second third one two => Eq.trans two one
  generalize (daemon.step event).daemon.ifaces = after at stepped
  generalize daemon.ifaces = before at stepped
  induction stepped with
  | nil => rfl
  | cons equal _ ih => rw [List.map_cons, List.map_cons, equal, ih]

theorem config_run {start last : Daemon} {events : List DaemonEvent}
    (run : Runs.Run Daemon.Step start events last) :
    last.ifaces.map Interface.config = start.ifaces.map Interface.config := by
  let same (daemon : Daemon) : Prop :=
    daemon.ifaces.map Interface.config = start.ifaces.map Interface.config
  have kept : same last := by
    apply run.invariant
    · rintro daemon event next ⟨-, rfl⟩ before
      exact (config_step daemon event).trans before
    · exact rfl
  exact kept

end Radvd
