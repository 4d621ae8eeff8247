import Radvd.Solicited

/-!
# The scheduler of the main loop

`find_iface_by_time` and the time that `main_loop` waits, and the deadlines that
`reschedule_iface` sets. The milliseconds to a deadline are narrowed to an `int`
twice, so a deadline that is too far away spoils the wait for all interfaces
(`mainLoopTimeout_negative`).

As long as the intervals that are used fit (`LoopEvent.FittingIntervals`), every
deadline is set ahead and never further away than an `int` can tell
(`paced_step`), so that the main loop waits for the earliest of them
(`mainLoop_pollsForEarliest`).
-/

namespace Radvd

open Runs

/-! ## Waiting for the earliest deadline -/

/-- `next_time_msec`. -/
def nextTimeMsec (now : Timespec) (iface : Interface) : Nat :=
  let diffMs := timespecdiff iface.times.nextMulticast now
  if diffMs ≤ 0 then 0 else diffMs.toNat

/-- The conversion of `uint64_t` to `int`, which keeps the low 32 bits. -/
def narrowToInt (value : Nat) : Int :=
  Int.bmod value 4294967296

/-- The loop of `find_iface_by_time`. -/
def findIfaceByTimeFrom (now : Timespec) (timeout : Int) (next : Interface) :
    List Interface → Interface
  | [] => next
  | iface :: rest =>
      let t := narrowToInt (nextTimeMsec now iface)
      if timeout > t then findIfaceByTimeFrom now t iface rest
      else findIfaceByTimeFrom now timeout next rest

/-- `find_iface_by_time`, with one reading of the clock for all interfaces. -/
def findIfaceByTime (now : Timespec) : List Interface → Option Interface
  | [] => none
  | iface :: rest =>
      some (findIfaceByTimeFrom now (narrowToInt (nextTimeMsec now iface)) iface rest)

/-- The variable `timeout` of `main_loop`. -/
def mainLoopTimeout (now : Timespec) (ifaces : List Interface) : Option Int :=
  (findIfaceByTime now ifaces).map fun next => narrowToInt (nextTimeMsec now next)

/-- What `main_loop` hands to `ppoll`. -/
def pollTimespec (timeout : Int) : Timespec where
  tvSec := timeout.tdiv 1000
  tvNsec := (timeout - 1000 * timeout.tdiv 1000) * 1000000

/-- The milliseconds until the deadline of an interface. -/
def remaining (now : Timespec) (iface : Interface) : Int :=
  max 0 (timespecdiff iface.times.nextMulticast now)

/-- The main loop waits for the interface with the earliest deadline. -/
def PollsForEarliest (now : Timespec) (ifaces : List Interface) : Prop :=
  ifaces ≠ [] → ∃ iface ∈ ifaces, findIfaceByTime now ifaces = some iface ∧
    (∀ other ∈ ifaces, remaining now iface ≤ remaining now other) ∧
    mainLoopTimeout now ifaces = some (remaining now iface) ∧
    (pollTimespec (remaining now iface)).Valid

section

variable {now : Timespec} {iface : Interface} {ifaces : List Interface}

theorem narrowToInt_nextTimeMsec (bound : timespecdiff iface.times.nextMulticast now ≤ 2147483647) :
    narrowToInt (nextTimeMsec now iface) = remaining now iface := by
  unfold narrowToInt nextTimeMsec remaining Int.bmod
  dsimp only
  split_ifs <;> omega

theorem findIfaceByTimeFrom_spec {timeout : Int} {next : Interface}
    (current : timeout = narrowToInt (nextTimeMsec now next)) :
    let found := findIfaceByTimeFrom now timeout next ifaces
    found ∈ next :: ifaces ∧ ∀ other ∈ next :: ifaces,
      narrowToInt (nextTimeMsec now found) ≤ narrowToInt (nextTimeMsec now other) := by
  induction ifaces generalizing timeout next with
  | nil => simp [findIfaceByTimeFrom]
  | cons iface rest ih =>
      unfold findIfaceByTimeFrom
      dsimp only
      split
      · rename_i earlier
        have later := @ih (narrowToInt (nextTimeMsec now iface)) iface rfl
        refine ⟨List.mem_cons_of_mem next later.1, ?_⟩
        simp only [List.mem_cons, forall_eq_or_imp] at later ⊢
        exact ⟨by omega, later.2⟩
      · rename_i notEarlier
        have later := ih current
        simp only [List.mem_cons, forall_eq_or_imp] at later ⊢
        refine ⟨?_, later.2.1, by omega, later.2.2⟩
        rcases later.1 with same | member
        · exact .inl same
        · exact .inr (.inr member)

/-- With no deadline further away than the range of `int` allows, the wait is the
least time to a deadline. -/
theorem pollsForEarliest_of_bounded
    (bounded : ∀ iface ∈ ifaces, timespecdiff iface.times.nextMulticast now ≤ 2147483647) :
    PollsForEarliest now ifaces := by
  intro nonempty
  obtain ⟨first, rest, rfl⟩ := List.exists_cons_of_ne_nil nonempty
  have spec := @findIfaceByTimeFrom_spec now rest _ first rfl
  dsimp only at spec
  generalize found : findIfaceByTimeFrom now (narrowToInt (nextTimeMsec now first)) first rest =
    next at spec
  have result : findIfaceByTime now (first :: rest) = some next := congrArg some found
  have narrow := narrowToInt_nextTimeMsec (bounded next spec.1)
  refine ⟨next, spec.1, result, ?_, ?_, ?_⟩
  · intro other otherMem
    rw [← narrow, ← narrowToInt_nextTimeMsec (bounded other otherMem)]
    exact spec.2 other otherMem
  · unfold mainLoopTimeout
    rw [result]
    exact congrArg some narrow
  · have nonneg : 0 ≤ remaining now next := le_max_left _ _
    unfold Timespec.Valid pollTimespec
    dsimp only
    rw [Int.tdiv_eq_ediv_of_nonneg nonneg]
    omega

end

/-! ## Setting a deadline -/

/-- The interval that `reschedule_iface` puts in place of the one it is given. -/
def effectiveNext (iface : Interface) (next : ℚ) : ℚ :=
  if !iface.stateInfo.changed && !iface.stateInfo.ready then 10 * iface.maxRtrAdvInterval
  else if next = 0 then 1
  else if iface.stateInfo.racount < maxInitialRtrAdvertisements then
    min maxInitialRtrAdvertInterval iface.maxRtrAdvInterval
  else next

theorem nextMulticast_rescheduleIface (now : Timespec) (iface : Interface) (next : ℚ) :
    (rescheduleIface now iface next).times.nextMulticast =
      nextTimespec now (effectiveNext iface next) := rfl

/-- An interval of at least a nanosecond whose milliseconds fit in an `int`. -/
def Fits (next : ℚ) : Prop :=
  1 / 1000000000 ≤ next ∧ next < 2147483648 / 1000

theorem nextTimespec_of_fits {now : Timespec} {next : ℚ} (valid : now.Valid) (fits : Fits next) :
    nextTimespec now next =
      ⟨now.tvSec + ⌊next⌋, now.tvNsec + (⌊1000000000 * next⌋ - 1000000000 * ⌊next⌋)⟩ := by
  obtain ⟨lower, upper⟩ := fits
  have nonneg : 0 ≤ next := by linarith
  have whole : toCInt next = ⌊next⌋ := by
    have below : ⌊next⌋ < 2147483648 := Int.floor_lt.mpr (by push_cast; linarith)
    have above : 0 ≤ ⌊next⌋ := Int.floor_nonneg.mpr nonneg
    unfold toCInt truncate
    rw [if_pos nonneg, if_pos ⟨by omega, by omega⟩]
  have fraction : 0 ≤ (now.tvNsec : ℚ) + 1000000000 * (next - ⌊next⌋) := by
    have nsec : (0 : ℚ) ≤ now.tvNsec := by exact_mod_cast valid.2.1
    have part : 0 ≤ next - ⌊next⌋ := Int.fract_nonneg next
    positivity
  have shifted : (now.tvNsec : ℚ) + 1000000000 * (next - ⌊next⌋) =
      1000000000 * next + ((now.tvNsec - 1000000000 * ⌊next⌋ : Int) : ℚ) := by
    push_cast
    ring
  unfold nextTimespec truncate
  rw [whole, if_pos fraction, shifted, Int.floor_add_intCast]
  congr 1
  ring

/-- The deadline of a fitting interval lies after the reading it is set at. At no
later reading is it further away than an `int` can tell. -/
theorem nextTimespec_spec {now : Timespec} {next : ℚ} (valid : now.Valid) (fits : Fits next) :
    0 < (nextTimespec now next).since now ∧
      ∀ later, later.Valid → now.Before later →
        timespecdiff (nextTimespec now next) later ≤ 2147483647 := by
  rw [nextTimespec_of_fits valid fits]
  obtain ⟨lower, upper⟩ := fits
  have positive : 0 < ⌊1000000000 * next⌋ := by
    apply Int.lt_of_lt_of_le (by decide : (0 : Int) < 1)
    apply Int.le_floor.mpr
    push_cast
    linarith
  have bound : ⌊1000000000 * next⌋ < 2147483648000000 := by
    apply Int.floor_lt.mpr
    push_cast
    linarith
  have wholeLe : 1000000000 * ⌊next⌋ ≤ ⌊1000000000 * next⌋ := by
    apply Int.le_floor.mpr
    push_cast
    linarith [Int.floor_le next]
  have lessThan : ⌊1000000000 * next⌋ < 1000000000 * ⌊next⌋ + 1000000000 := by
    apply Int.floor_lt.mpr
    push_cast
    linarith [Int.lt_floor_add_one next]
  generalize ⌊1000000000 * next⌋ = nanoseconds at *
  generalize ⌊next⌋ = seconds at *
  constructor
  · unfold Timespec.since
    dsimp only
    omega
  · intro later laterValid before
    simp only [Timespec.Valid, Timespec.Before, timespecdiff] at *
    have truncated : (now.tvNsec + (nanoseconds - 1000000000 * seconds) - later.tvNsec).tdiv
          (1000 * 1000) ≤
        max 0 ((now.tvNsec + (nanoseconds - 1000000000 * seconds) - later.tvNsec) / 1000000) := by
      rcases le_total 0 (now.tvNsec + (nanoseconds - 1000000000 * seconds) - later.tvNsec) with
        nonneg | nonpos
      · rw [Int.tdiv_eq_ediv_of_nonneg nonneg]
        exact le_max_right _ _
      · apply le_max_of_le_left
        have nonneg := Int.tdiv_nonneg (neg_nonneg.mpr nonpos) (by decide : (0 : Int) ≤ 1000 * 1000)
        rw [Int.neg_tdiv] at nonneg
        exact neg_nonneg.mp nonneg
    omega

theorem randBetween_mem {lower upper : ℚ} (ordered : lower ≤ upper) (rand : Rand) :
    lower ≤ randBetween lower upper rand ∧ randBetween lower upper rand ≤ upper := by
  have bound : (rand.val : ℚ) ≤ 2147483648 := by exact_mod_cast rand.isLt.le
  have width : 0 ≤ upper - lower := by linarith
  have share : (upper - lower) / randBound * rand.val =
      (upper - lower) * (rand.val / 2147483648) := by
    unfold randBound
    push_cast
    ring
  have part : (rand.val : ℚ) / 2147483648 ≤ 1 := by
    apply (div_le_one (by norm_num)).mpr
    exact bound
  have nonneg : 0 ≤ (rand.val : ℚ) / 2147483648 := by positivity
  unfold randBetween
  rw [share]
  constructor <;> nlinarith

theorem Interface.Accepted.min_le_max {iface : Interface} (accepted : iface.Accepted) :
    iface.minRtrAdvInterval ≤ iface.maxRtrAdvInterval := by
  have bound := accepted.min_le
  have positive := accepted.max_ge
  linarith

/-- The interval of the first advertisements. -/
theorem Interface.Accepted.fits_initial {iface : Interface} (accepted : iface.Accepted) :
    Fits (min maxInitialRtrAdvertInterval iface.maxRtrAdvInterval) := by
  have lower := accepted.max_ge
  have upper := accepted.max_le
  unfold maxInitialRtrAdvertInterval
  constructor
  · apply le_min <;> linarith
  · apply (min_le_right _ _).trans_lt
    linarith

/-! ## The handlers -/

/-- What holds of an interface at all times: it is coherent, and its deadline is
never too far away. -/
structure Timely (clock : Timespec) (iface : Interface) : Prop where
  deadline : ∀ now, now.Valid → clock.Before now →
    timespecdiff iface.times.nextMulticast now ≤ 2147483647
  coherent : iface.Coherent

/-- The deadline is the same, or lies after a reading of the clock that was taken
to set it. -/
def Ahead (readings : List Timespec) (before after : Interface) : Prop :=
  after.times.nextMulticast = before.times.nextMulticast ∨
    ∃ reading ∈ readings, 0 < after.times.nextMulticast.since reading

section

variable {clock now : Timespec} {iface iface' : Interface} {warned : Bool} {dest : Option In6Addr}

/-- Setting up keeps the deadline. -/
theorem timely_setupIface {env : SetupEnv} {ret : Int}
    (done : setupIface env iface = .ok (iface', ret)) (timely : Timely clock iface) :
    Timely clock iface' ∧ iface'.times = iface.times := by
  have times := (frame_setupIface done).times_eq
  refine ⟨⟨?_, (setupIface_setUp done).coherent⟩, times⟩
  rw [times]
  exact timely.deadline

theorem timely_readied {env : ProcessEnv} (found : readied env iface = some iface')
    (timely : Timely clock iface) :
    Timely clock iface' ∧ iface'.times.nextMulticast = iface.times.nextMulticast := by
  unfold readied at found
  split at found
  · cases found
    exact ⟨timely, rfl⟩
  · split at found
    · rename_i done
      cases found
      have kept := timely_setupIface done timely
      exact ⟨kept.1, by rw [kept.2]⟩
    · cases found

theorem Timely.sent {outcome : ForallOutcome} (timely : Timely clock iface)
    (sent : SentFor iface dest outcome) : Timely clock outcome.iface := by
  refine ⟨?_, sent.coherent⟩
  rw [sent.deadline_eq]
  exact timely.deadline

theorem timely_stopAdvertFoo {env : StopEnv} (timely : Timely clock iface) :
    Timely clock (stopAdvertFoo env warned iface).iface ∧
      (stopAdvertFoo env warned iface).iface.times.nextMulticast = iface.times.nextMulticast := by
  unfold stopAdvertFoo
  split
  · have ceasing : Timely clock { iface with
        stateInfo := { iface.stateInfo with ceaseAdv := true } } :=
      ⟨timely.deadline, timely.coherent.of_settled rfl rfl rfl⟩
    have sent := @sentFor_sendRaForall _ warned none env.setup env.envs ceasing.coherent
    exact ⟨ceasing.sent sent, sent.deadline_eq⟩
  · exact ⟨timely, rfl⟩

/-- Where the interval fits, the deadline lies after the reading it is set at, and
not too far. -/
theorem timely_rescheduleIface {next : ℚ} (valid : now.Valid) (before : now.Before clock)
    (timely : Timely clock iface) (fits : Fits (effectiveNext iface next)) :
    Timely clock (rescheduleIface now iface next) ∧
      0 < (rescheduleIface now iface next).times.nextMulticast.since now := by
  have spec := nextTimespec_spec valid fits
  rw [← nextMulticast_rescheduleIface] at spec
  refine ⟨⟨?_, timely.coherent.of_settled rfl rfl rfl⟩, spec.1⟩
  intro later laterValid laterBefore
  exact spec.2 later laterValid (before.trans laterBefore)

/-- An interface that is ready has accepted intervals; one that is not gets ten
times its maximal interval or the delay of a second. -/
theorem Interface.Coherent.fits_effectiveNext {next : ℚ} (coherent : iface.Coherent)
    (idle : iface.stateInfo.changed = false → iface.stateInfo.ready = false →
      Fits (10 * iface.maxRtrAdvInterval))
    (ready_of : next ≠ 0 → iface.stateInfo.changed = true → iface.stateInfo.ready = true)
    (fits : iface.stateInfo.ready = true → next ≠ 0 → 3 ≤ iface.stateInfo.racount → Fits next) :
    Fits (effectiveNext iface next) := by
  unfold effectiveNext
  split
  · rename_i settled
    simp only [Bool.and_eq_true, Bool.not_eq_true'] at settled
    exact idle settled.1 settled.2
  rename_i settled
  split
  · constructor <;> norm_num
  rename_i nonzero
  have ready : iface.stateInfo.ready = true := by
    simp only [Bool.and_eq_true, Bool.not_eq_true', not_and, Bool.not_eq_false] at settled
    rcases unchanged : iface.stateInfo.changed with _ | _
    · exact settled unchanged
    · exact ready_of nonzero unchanged
  split
  · exact (coherent.accepted_of ready).fits_initial
  · rename_i counted
    exact fits ready nonzero (by simpa [maxInitialRtrAdvertisements] using counted)

/-! ### One handler -/

/-- A handler that sets a deadline at the given readings keeps what holds at all
times. -/
def KeepsTime (clock : Timespec) (readings : List Timespec) (before after : Interface) : Prop :=
  Timely clock before → Timely clock after ∧ Ahead readings before after

variable {readings : List Timespec}

theorem KeepsTime.refl (iface : Interface) : KeepsTime clock readings iface iface :=
  fun timely => ⟨timely, .inl rfl⟩

theorem KeepsTime.trans {first second third : Interface}
    (one : KeepsTime clock readings first second) (two : KeepsTime clock readings second third) :
    KeepsTime clock readings first third := by
  intro timely
  have middle := one timely
  have last := two middle.1
  refine ⟨last.1, ?_⟩
  rcases last.2 with same | ahead
  · unfold Ahead
    rw [same]
    exact middle.2
  · exact .inr ahead

section

variable (valid : now.Valid) (before : now.Before clock)
include valid before

theorem timely_rescheduled {outcome : ForallOutcome} {rand : Rand}
    (timely : Timely clock iface) (sent : SentFor iface dest outcome)
    (idle : iface.stateInfo.ready = false → Fits (10 * iface.maxRtrAdvInterval)) :
    Timely clock (outcome.rescheduled now rand).iface ∧
      Ahead [now] iface (outcome.rescheduled now rand).iface ∧
      ((outcome.rescheduled now rand).exit = none →
        0 < (outcome.rescheduled now rand).iface.times.nextMulticast.since now) := by
  rw [exit_rescheduled]
  unfold ForallOutcome.rescheduled
  split
  · rename_i exit exits
    refine ⟨timely.sent sent, .inl sent.deadline_eq, ?_⟩
    rw [exits]
    exact fun survives => by cases survives
  · rename_i survives
    have unchanged := sent.unchanged survives
    have fits : Fits (effectiveNext outcome.iface (randBetween outcome.iface.minRtrAdvInterval
        outcome.iface.maxRtrAdvInterval rand)) := by
      apply sent.coherent.fits_effectiveNext
      · intro _ unready
        rw [maxRtrAdvInterval_of_config sent.config_eq]
        apply idle
        apply Bool.eq_false_of_not_eq_true
        intro ready
        rw [sent.ready_of ready] at unready
        cases unready
      · intro _ changed
        rw [unchanged] at changed
        cases changed
      · intro ready _ _
        have accepted := sent.coherent.accepted_of ready
        have bounds := randBetween_mem accepted.min_le_max rand
        have lower := accepted.min_ge
        have upper := accepted.max_le
        constructor <;> linarith
    have later := timely_rescheduleIface valid before (timely.sent sent) fits
    exact ⟨later.1, .inr ⟨now, List.mem_singleton_self now, later.2⟩, fun _ => later.2⟩

/-- The timer, where ten times the maximal interval fits if the interface is not
ready. -/
theorem timely_timerHandler {env : TimerEnv} (reads : env.rescheduleTime = now)
    (idle : iface.stateInfo.ready = false → Fits (10 * iface.maxRtrAdvInterval))
    (timely : Timely clock iface) :
    Timely clock (timerHandler env warned iface).iface ∧
      Ahead [now] iface (timerHandler env warned iface).iface ∧
      ((timerHandler env warned iface).exit = none →
        0 < (timerHandler env warned iface).iface.times.nextMulticast.since now) := by
  subst reads
  exact timely_rescheduled valid before timely
    (sentFor_sendRaForall env.setup env.envs timely.coherent) idle

theorem keepsTime_kickoffAdverts {env : KickoffEnv} (reads : env.rescheduleTime = now)
    (ready : iface.stateInfo.ready = true) :
    KeepsTime clock [now] iface (kickoffAdverts env warned iface).iface := by
  intro timely
  have noted : ∀ times : Times, times.nextMulticast = iface.times.nextMulticast →
      Timely clock { iface with times := times } := by
    intro times same
    refine ⟨?_, timely.coherent.of_settled rfl rfl rfl⟩
    dsimp only
    rw [same]
    exact timely.deadline
  unfold kickoffAdverts
  dsimp only
  split
  · exact ⟨noted _ rfl, .inl rfl⟩
  · have noting := noted
      { iface.times with lastRaTime := env.now, lastMulticast := env.multicastTime } rfl
    have sent := @sentFor_sendRaForall _ warned none env.setup env.envs noting.coherent
    generalize sendRaForall env.setup env.envs warned _ none = outcome at sent ⊢
    have initialFits : outcome.exit = none → Fits (effectiveNext outcome.iface
        (min maxInitialRtrAdvertInterval outcome.iface.maxRtrAdvInterval)) := by
      intro survives
      apply sent.coherent.fits_effectiveNext
      · intro _ unready
        rw [sent.ready_of ready] at unready
        cases unready
      · exact fun _ _ => sent.ready_of ready
      · exact fun ready _ _ => (sent.coherent.accepted_of ready).fits_initial
    split
    · exact ⟨noting.sent sent, .inl sent.deadline_eq⟩
    · rename_i survives
      subst reads
      have later := timely_rescheduleIface valid before (noting.sent sent)
        (initialFits survives)
      exact ⟨later.1, .inr ⟨_, List.mem_singleton_self _, later.2⟩⟩

theorem keepsTime_setupIfaceFoo {setup : SetupEnv} {kickoff : KickoffEnv}
    (reads : kickoff.rescheduleTime = now) :
    KeepsTime clock [now] iface (setupIfaceFoo setup kickoff warned iface).iface := by
  intro timely
  unfold setupIfaceFoo
  split
  · exact ⟨timely, .inl rfl⟩
  · rename_i after ret done
    have kept := timely_setupIface done timely
    have same : after.times.nextMulticast = iface.times.nextMulticast := by rw [kept.2]
    split_ifs with failed
    · exact ⟨kept.1, .inl same⟩
    · exact ⟨kept.1, .inl same⟩
    · have setUp := setupIface_setUp done
      have ready : after.stateInfo.ready = true := by
        rw [setUp.stateInfo_eq]
        exact decide_eq_true (le_antisymm setUp.ret_nonpos (not_lt.mp failed))
      have later := @keepsTime_kickoffAdverts clock now after warned valid before kickoff
        reads ready kept.1
      unfold Ahead at later ⊢
      rw [← same]
      exact later

/-- The answer to a solicitation, where the interval of a deferred answer fits. -/
theorem keepsTime_answerRs {env : ProcessEnv} {addr : In6Addr}
    (reads : env.rescheduleTime = now) (ready : iface.stateInfo.ready = true)
    (fits : iface.Defers addr env.now = true → 3 ≤ iface.stateInfo.racount →
      iface.deferredNext env.now env.delayRand ≠ 0 →
      Fits (iface.deferredNext env.now env.delayRand)) :
    KeepsTime clock [now] iface (answerRs env warned iface addr).iface := by
  intro timely
  subst reads
  have never : iface.stateInfo.ready = false → Fits (10 * iface.maxRtrAdvInterval) := by
    intro unready
    rw [ready] at unready
    cases unready
  rcases unicast : iface.AnswersUnicast addr with _ | _
  · rcases defers : iface.Defers addr env.now with _ | _
    · rw [answerRs_of_multicast unicast defers]
      have sent := @sentFor_sendRaForall iface warned none env.sendSetup env.envs timely.coherent
      have later := @timely_rescheduled clock _ iface none valid before _ env.intervalRand timely
        sent never
      exact ⟨later.1, later.2.1⟩
    · rw [answerRs_of_defers defers]
      have fitting : Fits (effectiveNext iface (iface.deferredNext env.now env.delayRand)) := by
        apply timely.coherent.fits_effectiveNext
        · exact fun _ => never
        · exact fun _ _ => ready
        · exact fun _ nonzero counted => fits defers counted nonzero
      have later := timely_rescheduleIface valid before timely fitting
      exact ⟨later.1, .inr ⟨_, List.mem_singleton_self _, later.2⟩⟩
  · rw [answerRs_of_unicast unicast]
    have sent := @sentFor_sendRaForall iface warned (some addr) env.sendSetup env.envs
      timely.coherent
    exact ⟨timely.sent sent, .inl sent.deadline_eq⟩

theorem keepsTime_processOn {env : ProcessEnv} {packet : Packet}
    (reads : env.rescheduleTime = now)
    (fits : packet.Solicits → ∀ answering, readied env iface = some answering →
      answering.Defers packet.addr env.now = true → 3 ≤ answering.stateInfo.racount →
      answering.deferredNext env.now env.delayRand ≠ 0 →
      Fits (answering.deferredNext env.now env.delayRand)) :
    KeepsTime clock [now] iface (processOn env packet warned iface).value.iface := by
  rcases value_processOn env packet warned iface with
    ⟨answering, found, same⟩ | ⟨after, ret, done, -, same⟩ | ⟨exit, same⟩
  · have answered : KeepsTime clock [now] answering
        (processOn env packet warned iface).value.iface := by
      rw [same]
      split
      · rename_i solicits
        exact keepsTime_answerRs valid before reads (ready_of_readied found).1
          (fits solicits answering found)
      · exact KeepsTime.refl answering
    intro timely
    have kept := timely_readied found timely
    have later := answered kept.1
    unfold Ahead at later ⊢
    rw [← kept.2]
    exact later
  · intro timely
    have kept := timely_setupIface done timely
    rw [same]
    exact ⟨kept.1, .inl (by rw [kept.2])⟩
  · rw [same]
    exact KeepsTime.refl iface

theorem keepsTime_netlinkTouch {msg : NetlinkMsg} (reads : msg.now = now)
    (listed : now ∈ readings) : KeepsTime clock readings iface (netlinkTouch msg iface) := by
  have touched : KeepsTime clock readings iface (touchIface msg.now iface) := by
    intro timely
    subst reads
    have unready : Timely clock { iface with
        stateInfo := { iface.stateInfo with changed := true, ready := false, racount := 0 } } :=
      ⟨timely.deadline, fun ready => (by cases ready), fun ready => (by cases ready)⟩
    have later := timely_rescheduleIface valid before unready
      (unready.coherent.fits_effectiveNext (fun changed => by cases changed)
        (fun nonzero => absurd rfl nonzero) fun ready => by cases ready)
    exact ⟨later.1, .inr ⟨_, listed, later.2⟩⟩
  unfold netlinkTouch
  split
  · exact touched
  · exact touched
  · split
    · exact touched
    · exact KeepsTime.refl iface
  · split
    · exact touched
    · exact KeepsTime.refl iface
  all_goals exact KeepsTime.refl iface

end

end

/-! ## Runs of the main loop -/

/-- What the main loop reacts to. -/
inductive LoopEvent where
  | daemon (event : DaemonEvent)
  /-- `reload_config`, at SIGHUP, frees the interfaces and reads the file anew. Before
  that it runs `cleanup_ifaces`, whose effect ends with the old interfaces, and after
  it `setup_ifaces`, whose kickoffs are steps of their own. -/
  | reload (ifaces : List Interface)
  /-- `reset_prefix_lifetimes`, at SIGUSR1. -/
  | reset

/-- The daemon and the reading of the clock at the end of the last step. -/
structure LoopState where
  daemon : Daemon
  clock : Timespec

/-- The readings of the clock at which deadlines are set. -/
def DaemonEvent.readings : DaemonEvent → List Timespec
  | .start _ _ kickoff => [kickoff.rescheduleTime]
  | .timer _ env => [env.rescheduleTime]
  | .receive _ env => [env.rescheduleTime]
  | .netlink msgs => msgs.map NetlinkMsg.now
  | .stop _ => []

def LoopEvent.readings : LoopEvent → List Timespec
  | .daemon event => event.readings
  | _ => []

/-- An interface as the parser leaves it. -/
def Interface.Loaded (iface : Interface) : Prop :=
  iface.times = ifaceInitDefaults.times ∧ iface.stateInfo = ifaceInitDefaults.stateInfo

/-- What an event makes of the daemon. -/
def LoopState.Becomes (state : LoopState) (event : LoopEvent) (next : LoopState) : Prop :=
  match event with
  | .daemon event => state.daemon.Step event next.daemon
  | .reload ifaces => (∀ iface ∈ ifaces, iface.Loaded) ∧
      next.daemon = ⟨ifaces, state.daemon.warned⟩
  | .reset => next.daemon =
      ⟨state.daemon.ifaces.map resetPrefixLifetimes, state.daemon.warned⟩

/-- A step of the main loop: the clock does not go backwards, and what is read in
between lies between the readings before and after. -/
structure LoopState.Step (state : LoopState) (event : LoopEvent) (next : LoopState) : Prop where
  becomes : state.Becomes event next
  clock_valid : next.clock.Valid
  before : state.clock.Before next.clock
  readings : ∀ reading ∈ event.readings, reading.Valid ∧ reading.Before next.clock

/-- The deadlines that an event sets come from intervals that fit: ten times the
maximal interval at a timer of an interface that is not ready, and what is left
of the minimal delay at a solicitation that is deferred. -/
def LoopEvent.FittingIntervals (state : LoopState) : LoopEvent → Prop
  | .daemon (.timer position _) => ∀ iface, state.daemon.ifaces[position]? = some iface →
      iface.stateInfo.ready = false → Fits (10 * iface.maxRtrAdvInterval)
  | .daemon (.receive packet env) => packet.Accepted → packet.Solicits →
      ∀ position iface answering,
        findIfaceByIndex state.daemon.ifaces packet.ifindex = some (position, iface) →
        readied env iface = some answering → answering.Defers packet.addr env.now = true →
        3 ≤ answering.stateInfo.racount → answering.deferredNext env.now env.delayRand ≠ 0 →
        Fits (answering.deferredNext env.now env.delayRand)
  | _ => True

/-- Every deadline that the event sets lies after the reading of the clock it is
set at; a timer always sets one. -/
def LoopEvent.SetsAhead (state : LoopState) (event : LoopEvent) (next : LoopState) : Prop :=
  match event with
  | .daemon event =>
      List.Forall₂ (Ahead event.readings) state.daemon.ifaces next.daemon.ifaces ∧
        ∀ position env iface, event = .timer position env →
          next.daemon.ifaces[position]? = some iface →
          0 < iface.times.nextMulticast.since env.rescheduleTime
  | _ => True

def LoopState.Paced (state : LoopState) : Prop :=
  ∀ iface ∈ state.daemon.ifaces, Timely state.clock iface

section

variable {state next : LoopState} {event : LoopEvent}

theorem Interface.Loaded.timely {clock : Timespec} {iface : Interface} (loaded : iface.Loaded) :
    Timely clock iface := by
  obtain ⟨times, stateInfo⟩ := loaded
  refine ⟨?_, ?_, ?_⟩
  · intro now valid _
    have truncated : (0 - now.tvNsec).tdiv (1000 * 1000) ≤ 0 := by
      rw [Int.zero_sub, Int.neg_tdiv]
      exact neg_nonpos.mpr (Int.tdiv_nonneg valid.2.1 (by decide))
    have seconds := valid.1
    rw [times]
    unfold timespecdiff ifaceInitDefaults
    dsimp only
    omega
  · intro ready
    rw [stateInfo] at ready
    cases ready
  · intro ready
    rw [stateInfo] at ready
    cases ready

theorem Timely.later {clock clock' : Timespec} {iface : Interface} (timely : Timely clock iface)
    (before : clock.Before clock') : Timely clock' iface :=
  ⟨fun now valid later => timely.deadline now valid (before.trans later), timely.coherent⟩

theorem relates_keepsTime {daemon : Daemon} {event : DaemonEvent} {clock : Timespec}
    (readings : ∀ reading ∈ event.readings, reading.Valid ∧ reading.Before clock)
    (fitting : (LoopEvent.daemon event).FittingIntervals ⟨daemon, clock⟩) :
    event.Relates daemon (KeepsTime clock event.readings) := by
  cases event with
  | start position setup kickoff =>
      intro iface found
      have read := readings kickoff.rescheduleTime (List.mem_singleton_self _)
      exact keepsTime_setupIfaceFoo read.1 read.2 rfl
  | timer position env =>
      intro iface found timely
      have read := readings env.rescheduleTime (List.mem_singleton_self _)
      have kept := @timely_timerHandler clock _ iface daemon.warned read.1 read.2 env rfl
        (fitting iface found) timely
      exact ⟨kept.1, kept.2.1⟩
  | receive packet env =>
      intro accepted position iface found
      have read := readings env.rescheduleTime (List.mem_singleton_self _)
      apply keepsTime_processOn read.1 read.2 rfl
      intro solicits answering ready
      exact fitting accepted solicits position iface answering found ready
  | netlink msgs =>
      intro msg msgMem iface
      have listed : msg.now ∈ msgs.map NetlinkMsg.now := List.mem_map_of_mem msgMem
      have read := readings msg.now listed
      exact keepsTime_netlinkTouch read.1 read.2 rfl listed
  | stop envs =>
      intro iface _ position warned timely
      have kept := @timely_stopAdvertFoo clock iface warned (envs position) timely
      exact ⟨kept.1, .inl kept.2⟩

theorem forall₂_keepsTime {clock : Timespec} {readings : List Timespec}
    {before after : List Interface}
    (related : List.Forall₂ (KeepsTime clock readings) before after)
    (timely : ∀ iface ∈ before, Timely clock iface) :
    (∀ iface ∈ after, Timely clock iface) ∧ List.Forall₂ (Ahead readings) before after := by
  induction related with
  | nil => exact ⟨by simp, .nil⟩
  | cons keeps _ ih =>
      simp only [List.mem_cons, forall_eq_or_imp] at timely ⊢
      have first := keeps timely.1
      have others := ih timely.2
      exact ⟨⟨first.1, others.1⟩, .cons first.2 others.2⟩

/-- One step of the main loop with fitting intervals. -/
theorem paced_step (step : Guarded LoopState.Step LoopEvent.FittingIntervals state event next)
    (paced : state.Paced) : next.Paced ∧ event.SetsAhead state next := by
  obtain ⟨fitting, becomes, -, before, readings⟩ := step
  have timely : ∀ iface ∈ state.daemon.ifaces, Timely next.clock iface :=
    fun iface member => (paced iface member).later before
  unfold LoopState.Paced LoopEvent.SetsAhead
  unfold LoopState.Becomes at becomes
  cases event with
  | reload ifaces =>
      dsimp only at becomes ⊢
      rw [becomes.2]
      exact ⟨fun iface member => (becomes.1 iface member).timely, trivial⟩
  | reset =>
      dsimp only at becomes ⊢
      rw [becomes]
      refine ⟨?_, trivial⟩
      intro iface member
      rcases List.mem_map.mp member with ⟨old, oldMem, rfl⟩
      have kept := timely old oldMem
      exact ⟨kept.deadline, kept.coherent.of_settled rfl rfl rfl⟩
  | daemon event =>
      obtain ⟨survives, stepped⟩ := becomes
      have related := @relates_keepsTime state.daemon event next.clock readings (by
        cases event <;> exact fitting)
      have forall₂ : List.Forall₂ (KeepsTime next.clock event.readings) state.daemon.ifaces
          (state.daemon.step event).daemon.ifaces := by
        apply forall₂_step _ _ related
        · exact KeepsTime.refl
        · exact fun _ _ _ => KeepsTime.trans
      rw [stepped] at forall₂
      have kept := forall₂_keepsTime forall₂ timely
      refine ⟨kept.1, kept.2, ?_⟩
      rintro position env after rfl found
      rw [← stepped] at found
      simp only [Daemon.step] at survives found
      rcases present : state.daemon.ifaces[position]? with _ | iface
      · simp only [Daemon.onIface, present, DaemonOutcome.unchanged] at found
        cases found
      · have bound := (List.getElem?_eq_some_iff.mp present).1
        simp only [Daemon.onIface, present, Daemon.settle, List.getElem?_set_self bound,
          Option.some.injEq] at survives found
        subst found
        have read := readings env.rescheduleTime (List.mem_singleton_self _)
        exact (timely_timerHandler read.1 read.2 rfl (fitting iface present)
          (timely iface (List.mem_of_getElem? present))).2.2 survives

end

/-! ## A device that is missing -/

/-- An interface that could not be set up. -/
def idle (max : ℚ) : Interface :=
  { intervalDefaults max with stateInfo := { ifaceInitDefaults.stateInfo with changed := false } }

def SetupEnv.noDevice : SetupEnv :=
  { SetupEnv.ethernet with ifNametoindex := 0 }

def KickoffEnv.ethernet (now : Timespec) : KickoffEnv where
  now := now
  multicastTime := now
  setup := SetupEnv.ethernet
  envs := fun _ => routerEnv now
  rescheduleTime := now

/-- The state after the timer of a missing device has expired at `now`. -/
def expired (max : ℚ) (now : Timespec) : LoopState :=
  ⟨⟨[rescheduleIface now (idle max) (randBetween (-1) max 0)], false⟩, now⟩

theorem step_missing (max : ℚ) {clock : Timespec} (valid : clock.Valid) :
    LoopState.Step ⟨⟨[intervalDefaults max], false⟩, clock⟩
      (.daemon (.start 0 .noDevice (.ethernet clock))) ⟨⟨[idle max], false⟩, clock⟩ where
  becomes := ⟨rfl, rfl⟩
  clock_valid := valid
  before := .refl clock
  readings := by
    intro reading member
    rw [List.mem_singleton.mp member]
    exact ⟨valid, .refl clock⟩

theorem step_idle (max : ℚ) {clock now : Timespec} (valid : now.Valid)
    (before : clock.Before now) :
    LoopState.Step ⟨⟨[idle max], false⟩, clock⟩ (.daemon (.timer 0 (.ethernet now)))
      (expired max now) where
  becomes := ⟨rfl, rfl⟩
  clock_valid := valid
  before := before
  readings := by
    intro reading member
    rw [List.mem_singleton.mp member]
    exact ⟨valid, .refl now⟩

end Radvd
