import Radvd.Ageing

/-!
# How long a prefix with `DecrementLifetimes` lives

Two bounds on the lifetimes of a prefix along the runs of the transition system,
from above and from below.

An RA ages a prefix by the seconds `update_iface_times` counts since the previous
one (`agedBy_ageEntry`), so over a run the seconds that get lost in the division
add up (`AgedBy.trans`, `agedBy_run`), and a prefix can outlive its configuration.
From below, a prefix is aged by no more than the time since it was initialised as
long as the reference time is not older than that (`AgeBound`).
-/

namespace Radvd

open Wire Runs

/-! ## What an RA does to a prefix -/

def SameConfig (entry entry' : AdvPrefix) : Prop :=
  entry' = { entry with
    currValidlft := entry'.currValidlft
    currPreferredlft := entry'.currPreferredlft }

theorem SameConfig.refl (entry : AdvPrefix) : SameConfig entry entry := rfl

theorem SameConfig.trans {first second third : AdvPrefix} (one : SameConfig first second)
    (two : SameConfig second third) : SameConfig first third := by
  simp only [SameConfig] at *
  rw [two, one]

theorem SameConfig.decrements {entry entry' : AdvPrefix} (same : SameConfig entry entry')
    (decrements : entry.decrementLifetimesFlag = true) : entry'.decrementLifetimesFlag = true := by
  rw [same]
  exact decrements

theorem sameConfig_ageEntry (ceaseAdv : Bool) (secs : Int) (entry : AdvPrefix) :
    SameConfig entry (ageEntry ceaseAdv secs entry) := by
  simp only [ageEntry]
  split <;> rfl

theorem sameConfig_resetEntry (entry : AdvPrefix) : SameConfig entry (resetEntry entry) := by
  simp only [resetEntry]
  split <;> rfl

/-- A prefix after `secs` seconds were counted. Once the preferred lifetime is
used up the valid lifetime is left alone, so only a lower bound is known of it. -/
structure AgedBy (secs : Int) (entry entry' : AdvPrefix) : Prop where
  nonneg : 0 ≤ secs
  config : SameConfig entry entry'
  preferred : (entry'.currPreferredlft.toNat : Int) =
    max 0 (entry.currPreferredlft.toNat - secs)
  valid : 0 < entry'.currPreferredlft.toNat ∨ entry'.currValidlft.toNat = 0 →
    (entry'.currValidlft.toNat : Int) = max 0 (entry.currValidlft.toNat - secs)
  le_valid : (entry.currValidlft.toNat : Int) - secs ≤ entry'.currValidlft.toNat

theorem AgedBy.refl (entry : AdvPrefix) : AgedBy 0 entry entry :=
  ⟨le_rfl, .refl entry, by omega, by omega, by omega⟩

theorem AgedBy.trans {secs secs' : Int} {first second third : AdvPrefix}
    (one : AgedBy secs first second) (two : AgedBy secs' second third) :
    AgedBy (secs + secs') first third := by
  rcases one with ⟨nonneg, config, preferred, valid, le_valid⟩
  rcases two with ⟨nonneg', config', preferred', valid', le_valid'⟩
  exact ⟨by omega, config.trans config', by omega, by omega, by omega⟩

theorem agedBy_ageEntry {ceaseAdv : Bool} {secs : Int} {entry : AdvPrefix}
    (nonneg : 0 ≤ secs) (decrements : entry.decrementLifetimesFlag = true)
    (stays : (ceaseAdv && entry.deprecatePrefixFlag) = false) :
    AgedBy secs entry (ageEntry ceaseAdv secs entry) := by
  have config := sameConfig_ageEntry ceaseAdv secs entry
  rw [ageEntry, decrements, stays] at config ⊢
  by_cases alive : entry.currPreferredlft > 0
  · simp only [Bool.not_true, Bool.false_or, alive, decide_true, Bool.not_false, Bool.and_self,
      if_true] at config ⊢
    have preferred := toNat_decrementLifetime nonneg entry.currPreferredlft
    have valid := toNat_decrementLifetime nonneg entry.currValidlft
    refine ⟨nonneg, config, preferred, fun _ => valid, ?_⟩
    dsimp only
    omega
  · simp only [Bool.not_true, Bool.false_or, alive, decide_false, Bool.false_and,
      Bool.false_eq_true, if_false] at config ⊢
    have zero : entry.currPreferredlft.toNat = 0 := by
      have : ¬0 < entry.currPreferredlft.toNat := alive
      omega
    exact ⟨nonneg, config, by omega, by omega, by omega⟩

theorem valid_ageEntry {ceaseAdv : Bool} {secs : Int} {entry : AdvPrefix}
    (nonneg : 0 ≤ secs) (decrements : entry.decrementLifetimesFlag = true)
    (stays : (ceaseAdv && entry.deprecatePrefixFlag) = false)
    (alive : 0 < entry.currPreferredlft ∨ entry.currValidlft = 0) :
    ((ageEntry ceaseAdv secs entry).currValidlft.toNat : Int) =
      max 0 (entry.currValidlft.toNat - secs) := by
  rw [ageEntry, decrements, stays]
  rcases alive with alive | used
  · simp only [Bool.not_true, Bool.false_or, gt_iff_lt, alive, decide_true, Bool.not_false,
      Bool.and_self, if_true]
    exact toNat_decrementLifetime nonneg entry.currValidlft
  · have zero := toNat_decrementLifetime nonneg entry.currValidlft
    rw [used] at zero ⊢
    split
    · exact zero
    · rw [used]
      change (0 : Int) = max 0 (0 - secs)
      omega

def AgeState.entry (state : AgeState) (index : Nat) : Option AdvPrefix :=
  state.iface.advPrefixList[index]?

section Steps

variable {state next : AgeState} {env : SendEnv} {dest : Option In6Addr}

theorem advPrefixList_agedIface (env : SendEnv) (iface : Interface) (dest : Option In6Addr) :
    (agedIface env iface dest).advPrefixList = iface.advPrefixList.map
      (ageEntry iface.stateInfo.ceaseAdv (secsSinceLastRa env.now iface.times.lastRaTime)) := by
  cases dest <;> rfl

theorem lastRaTime_agedIface (env : SendEnv) (iface : Interface) (dest : Option In6Addr) :
    (agedIface env iface dest).times.lastRaTime = env.now := by
  cases dest <;> rfl

theorem AgeStep.sendRa_spec (step : AgeStep state (.sendRa env dest) next)
    (advertises : state.iface.advSendAdvert = true) :
    next.iface.advPrefixList = state.iface.advPrefixList.map (ageEntry
      state.iface.stateInfo.ceaseAdv
      (secsSinceLastRa env.now state.iface.times.lastRaTime)) ∧
      next.iface.times.lastRaTime = env.now ∧ next.clock = env.now ∧ next.init = state.init ∧
      env.now.Valid ∧ state.clock.Before env.now := by
  cases step with
  | sendRa valid later _ =>
      refine ⟨?_, ?_, rfl, rfl, valid, later⟩
      · simp only [iface_sendRa, advertises, if_true, advPrefixList_agedIface]
      · simp only [iface_sendRa, advertises, if_true, lastRaTime_agedIface]

theorem AgeStep.entry_sendRa (step : AgeStep state (.sendRa env dest) next)
    (advertises : state.iface.advSendAdvert = true) (index : Nat) :
    next.entry index = (state.entry index).map (ageEntry state.iface.stateInfo.ceaseAdv
      (secsSinceLastRa env.now state.iface.times.lastRaTime)) := by
  rw [AgeState.entry, (step.sendRa_spec advertises).1, List.getElem?_map]
  rfl

end Steps

/-! ## Seconds that get lost -/

def raTimes : List AgeEvent → List Timespec
  | [] => []
  | .sendRa env _ :: rest => env.now :: raTimes rest
  | _ :: rest => raTimes rest

/-- The seconds that are lost between the readings of a list, the first of which
follows on `last`. -/
def lostSecs (last : Timespec) : List Timespec → Int
  | [] => 0
  | now :: rest => (if losesSecond now last then 1 else 0) + lostSecs now rest

theorem lostSecs_concat (last now : Timespec) (times : List Timespec) :
    lostSecs last (times ++ [now]) =
      lostSecs last times + if losesSecond now (times.getLastD last) then 1 else 0 := by
  induction times generalizing last with
  | nil => simp [lostSecs]
  | cons time rest ih => simp only [List.cons_append, lostSecs, ih, List.getLastD_cons, add_assoc]

/-- The events that age the prefix at position `index`: RAs that are sent and are
not the farewell of that prefix. Other events may not touch the lifetimes. -/
def Ages (index : Nat) (state : AgeState) : AgeEvent → Prop
  | .sendRa _ _ => state.iface.advSendAdvert = true ∧
      ∀ entry, state.entry index = some entry →
        (state.iface.stateInfo.ceaseAdv && entry.deprecatePrefixFlag) = false
  | .other _ => True
  | _ => False

/-- The reference time is the time of the last RA or of the kickoff. -/
structure InStep (state : AgeState) : Prop where
  lastRaTime_eq : state.iface.times.lastRaTime = state.clock
  valid : state.clock.Valid

variable {index : Nat} {entry : AdvPrefix}

theorem clock_run {state last : AgeState} {events : List AgeEvent}
    (run : Run (Guarded AgeStep (Ages index)) state events last) :
    last.clock = (raTimes events).getLastD state.clock := by
  induction run with
  | nil => rfl
  | @cons state next last event events first _ ih =>
      rcases first with ⟨ages, step⟩
      cases step with
      | sendRa => simpa only [raTimes, List.getLastD_cons] using ih
      | other => exact ih
      | _ => exact ages.elim

theorem agedBy_sendRa {state next : AgeState} {env : SendEnv} {dest : Option In6Addr}
    (inStep : InStep state) (found : state.entry index = some entry)
    (decrements : entry.decrementLifetimesFlag = true)
    (ages : Ages index state (.sendRa env dest)) (step : AgeStep state (.sendRa env dest) next) :
    InStep next ∧ next.clock = env.now ∧ ∃ secs entry', next.entry index = some entry' ∧
      secs = (env.now.tvSec - state.clock.tvSec -
        if losesSecond env.now state.clock then 1 else 0) ∧ AgedBy secs entry entry' ∧
      (0 < entry.currPreferredlft ∨ entry.currValidlft = 0 →
        (entry'.currValidlft.toNat : Int) = max 0 (entry.currValidlft.toNat - secs)) := by
  rcases step.sendRa_spec ages.1 with ⟨-, lastEq, clockEq, -, valid, later⟩
  have entryEq := step.entry_sendRa ages.1 index
  rw [found, inStep.lastRaTime_eq] at entryEq
  have nonneg := secsSinceLastRa_nonneg env.now state.clock
  have stays := ages.2 entry found
  exact ⟨⟨lastEq.trans clockEq.symm, clockEq ▸ valid⟩, clockEq, _, _, entryEq,
    secsSinceLastRa_eq valid inStep.valid later, agedBy_ageEntry nonneg decrements stays,
    valid_ageEntry nonneg decrements stays⟩

/-- A run of RAs ages a prefix by the whole seconds of the clock, less those that
are lost. -/
theorem agedBy_run {state last : AgeState} {events : List AgeEvent}
    (run : Run (Guarded AgeStep (Ages index)) state events last) (inStep : InStep state)
    (found : state.entry index = some entry)
    (decrements : entry.decrementLifetimesFlag = true) :
    InStep last ∧ ∃ entry', last.entry index = some entry' ∧
      AgedBy (last.clock.tvSec - state.clock.tvSec - lostSecs state.clock (raTimes events))
        entry entry' := by
  induction run generalizing entry with
  | nil state => exact ⟨inStep, entry, found, by simpa [raTimes, lostSecs] using AgedBy.refl entry⟩
  | @cons state next last event events first _ ih =>
      rcases first with ⟨ages, step⟩
      cases event with
      | sendRa env dest =>
          rcases agedBy_sendRa inStep found decrements ages step with
            ⟨nextInStep, clockEq, secs, entry', found', secsEq, aged, -⟩
          have decrements' := aged.config.decrements decrements
          rcases ih nextInStep found' decrements' with ⟨lastInStep, entry'', found'', aged'⟩
          refine ⟨lastInStep, entry'', found'', ?_⟩
          have both := aged.trans aged'
          rw [clockEq, secsEq] at both
          convert both using 1
          rw [raTimes, lostSecs]
          omega
      | other iface =>
          cases step with
          | other prefixes lastRaTime =>
              exact ih ⟨lastRaTime.trans inStep.lastRaTime_eq, inStep.valid⟩
                (by rw [AgeState.entry, prefixes]; exact found) decrements
      | _ => exact ages.elim

/-! ## The bound from above -/

theorem kickedOff_spec {boot start : AgeState} {loaded t0 : Timespec} {iface : Interface}
    {setups : List AgeEvent} (onlySetup : ∀ event ∈ setups, ∃ iface, event = .other iface)
    (run : Run AgeStep boot (.load loaded iface :: setups ++ [.kickoff t0]) start) :
    InStep start ∧ start.clock = t0 ∧ start.iface.advPrefixList = iface.advPrefixList ∧
      iface.Fresh := by
  rcases run.of_append with ⟨middle, front, back⟩
  cases front with
  | cons first rest =>
      cases first with
      | load _ _ fresh =>
          have kept : middle.iface.advPrefixList = iface.advPrefixList := by
            clear back run
            generalize before : AgeState.mk iface boot.warned loaded loaded = state at rest
            have same : state.iface.advPrefixList = iface.advPrefixList := by rw [← before]
            clear before
            induction rest with
            | nil => exact same
            | cons first _ ih =>
                rcases onlySetup _ (List.mem_cons_self ..) with ⟨after, rfl⟩
                cases first with
                | other prefixes _ =>
                    exact ih (fun event mem => onlySetup event (List.mem_cons_of_mem _ mem))
                      (prefixes.trans same)
          cases back with
          | cons kickoff done =>
              cases done
              cases kickoff with
              | kickoff valid _ => exact ⟨⟨rfl, valid⟩, rfl, kept, fresh⟩

/-- A lifetime that is left `elapsed` seconds after it was initialised to
`configured`, with a tolerance of one second. -/
def WithinSecond (left configured : UInt32) (elapsed : Int) : Prop :=
  (left.toNat : Int) ≤ max 0 (configured.toNat - elapsed) + 1

/-- The RAs at the given times since `t0`, the last one at `tn`, lose at most one
second more than the whole seconds of the clock exceed the time elapsed, or the
seconds that are counted use up the lifetime but for one. -/
def LosesLittle (configured : UInt32) (t0 tn : Timespec) (times : List Timespec) : Prop :=
  lostSecs t0 times ≤ tn.tvSec - t0.tvSec - tn.floorSince t0 + 1 ∨
    configured.toNat ≤ tn.tvSec - t0.tvSec - lostSecs t0 times + 1

theorem withinSecond_iff {left configured : UInt32} {t0 tn : Timespec} {times : List Timespec}
    (leftEq : (left.toNat : Int) =
      max 0 (configured.toNat - (tn.tvSec - t0.tvSec - lostSecs t0 times))) :
    WithinSecond left configured (tn.floorSince t0) ↔ LosesLittle configured t0 tn times := by
  simp only [WithinSecond, LosesLittle]
  omega

/-- For an interface that is kicked off at `t0` and every sequence of RAs after
it that are not farewells of the prefix: the preferred lifetime after the last RA
is that of the configuration less the whole seconds elapsed, up to a second,
exactly if the RAs lose little. The same holds of the valid lifetime unless the
preferred lifetime was used up before, which stops the ageing. -/
theorem lifetimes_left_iff {boot start middle final : AgeState} {loaded t0 : Timespec}
    {iface : Interface} {setups events : List AgeEvent} {env : SendEnv} {dest : Option In6Addr}
    {before after : AdvPrefix} (onlySetup : ∀ event ∈ setups, ∃ iface, event = .other iface)
    (kickedOff : Run AgeStep boot (.load loaded iface :: setups ++ [.kickoff t0]) start)
    (run : Run (Guarded AgeStep (Ages index)) start events middle)
    (last : Guarded AgeStep (Ages index) middle (.sendRa env dest) final)
    (found : iface.advPrefixList[index]? = some entry)
    (decrements : entry.decrementLifetimesFlag = true)
    (foundBefore : middle.entry index = some before)
    (foundAfter : final.entry index = some after) :
    (WithinSecond after.currPreferredlft entry.advPreferredLifetime (env.now.floorSince t0) ↔
        LosesLittle entry.advPreferredLifetime t0 env.now (raTimes events ++ [env.now])) ∧
      (0 < before.currPreferredlft ∨ before.currValidlft = 0 →
        (WithinSecond after.currValidlft entry.advValidLifetime (env.now.floorSince t0) ↔
          LosesLittle entry.advValidLifetime t0 env.now (raTimes events ++ [env.now]))) := by
  rcases kickedOff_spec onlySetup kickedOff with ⟨inStep, rfl, listEq, fresh⟩
  have foundStart : start.entry index = some entry := by
    rw [AgeState.entry, listEq]
    exact found
  rcases fresh.lifetimes_eq entry (List.mem_of_getElem? found) with ⟨validEq, preferredEq⟩
  rcases agedBy_run run inStep foundStart decrements with ⟨middleInStep, entry', found', aged⟩
  obtain rfl : entry' = before := Option.some.inj (found'.symm.trans foundBefore)
  have decrements' := aged.config.decrements decrements
  rcases last with ⟨ages, step⟩
  rcases agedBy_sendRa middleInStep found' decrements' ages step with
    ⟨-, clockEq, secs, entry'', found'', secsEq, aged', validLeft⟩
  obtain rfl : entry'' = after := Option.some.inj (found''.symm.trans foundAfter)
  have lost := lostSecs_concat start.clock env.now (raTimes events)
  rw [← clock_run run] at lost
  constructor
  · apply withinSecond_iff
    rw [(aged.trans aged').preferred, preferredEq, lost, secsEq]
    congr 2
    omega
  · intro alive
    apply withinSecond_iff
    have validBefore := aged.valid (alive.imp id fun used => by rw [used]; rfl)
    have nonneg := aged'.nonneg
    have nonneg' := aged.nonneg
    rw [validLeft alive, validBefore, validEq]
    omega

theorem ages_of_sendable {state : AgeState} (sendable : Sendable state.iface) (env : SendEnv)
    (dest : Option In6Addr) : Ages index state (.sendRa env dest) := by
  refine ⟨sendable.advertises, ?_⟩
  intro entry found
  rw [sendable.keeps entry (List.mem_of_getElem? found), Bool.and_false]

def clientAddr : In6Addr :=
  ⟨#[0xfe, 0x80, 0, 0, 0, 0, 0, 0, 0, 0, 0, 0, 0, 0, 0, 2], rfl⟩

def solicited (times : List Timespec) : List AgeEvent :=
  times.map fun now => .sendRa (routerEnv now) (some clientAddr)

def afterSolicited (times : List Timespec) : AgeState :=
  { kickedOff with
    iface := times.foldl (fun iface now => agedIface (routerEnv now) iface (some clientAddr))
      kickedOff.iface
    clock := times.getLastD kickedOff.clock }

theorem run_solicited {times : List Timespec} (valid : ∀ now ∈ times, now.Valid)
    (ordered : ((⟨100, 0⟩ : Timespec) :: times).IsChain Timespec.Before) :
    Run (Guarded AgeStep fun state event => Sendable state.iface ∧
        ∃ now, event = .sendRa (routerEnv now) (some clientAddr)) kickedOff (solicited times)
      (afterSolicited times) :=
  (sendable_decrementing.setLastRaTime ⟨100, 0⟩).run (some clientAddr) valid ordered

theorem run_ages {times : List Timespec} (valid : ∀ now ∈ times, now.Valid)
    (ordered : ((⟨100, 0⟩ : Timespec) :: times).IsChain Timespec.Before) :
    Run (Guarded AgeStep (Ages index)) kickedOff (solicited times) (afterSolicited times) := by
  apply (run_solicited valid ordered).mono
  rintro state event next ⟨⟨sendable, now, rfl⟩, step⟩
  exact ⟨ages_of_sendable sendable _ _, step⟩

theorem lifetimes_left_iff_solicited :
    ∃ before after, (afterSolicited [⟨101, 0⟩]).entry 0 = some before ∧
      (afterSolicited [⟨101, 0⟩, ⟨102, 0⟩]).entry 0 = some after ∧
      (WithinSecond after.currPreferredlft 10 (Timespec.floorSince ⟨102, 0⟩ ⟨100, 0⟩) ↔
        LosesLittle 10 ⟨100, 0⟩ ⟨102, 0⟩ [⟨101, 0⟩, ⟨102, 0⟩]) ∧
      (WithinSecond after.currValidlft 10 (Timespec.floorSince ⟨102, 0⟩ ⟨100, 0⟩) ↔
        LosesLittle 10 ⟨100, 0⟩ ⟨102, 0⟩ [⟨101, 0⟩, ⟨102, 0⟩]) := by
  have sendable : Sendable (afterSolicited [⟨101, 0⟩]).iface :=
    (sendable_decrementing.setLastRaTime ⟨100, 0⟩).agedIface _ _
  have last : Guarded AgeStep (Ages 0) (afterSolicited [⟨101, 0⟩])
      (.sendRa (routerEnv ⟨102, 0⟩) (some clientAddr))
      (afterSolicited [⟨101, 0⟩, ⟨102, 0⟩]) :=
    ⟨ages_of_sendable sendable _ _, sendable.sendRa (some clientAddr) (by decide) (by decide)⟩
  have settled := lifetimes_left_iff (List.forall_mem_nil _) run_kickedOff
    (run_ages (by decide) (by decide)) last rfl rfl rfl rfl
  exact ⟨_, _, rfl, rfl, settled.1, settled.2 (.inl (by decide))⟩

/-- Three responses within 2.7 seconds, 0.9 seconds apart, do not age the prefix. -/
theorem not_withinSecond_solicited :
    Run AgeStep ⟨decrementing, false, ⟨0, 0⟩, ⟨0, 0⟩⟩
        [.load ⟨90, 0⟩ decrementing, .kickoff ⟨100, 0⟩] kickedOff ∧
      Run (Guarded AgeStep (Ages 0)) kickedOff
        (solicited [⟨100, 900000000⟩, ⟨101, 800000000⟩, ⟨102, 700000000⟩])
        (afterSolicited [⟨100, 900000000⟩, ⟨101, 800000000⟩, ⟨102, 700000000⟩]) ∧
      ∃ entry, (afterSolicited [⟨100, 900000000⟩, ⟨101, 800000000⟩,
          ⟨102, 700000000⟩]).entry 0 = some entry ∧
        entry.decrementLifetimesFlag = true ∧
        ¬WithinSecond entry.currPreferredlft entry.advPreferredLifetime
          (Timespec.floorSince ⟨102, 700000000⟩ ⟨100, 0⟩) ∧
        ¬WithinSecond entry.currValidlft entry.advValidLifetime
          (Timespec.floorSince ⟨102, 700000000⟩ ⟨100, 0⟩) := by
  refine ⟨run_kickedOff, run_ages (by decide) (by decide), _, rfl, rfl, ?_, ?_⟩ <;>
    · simp only [WithinSecond]
      decide

/-! ## The bound from below -/

/-- An RA that is sent finds a reference time that is not in an earlier second
than the last initialisation of the lifetimes. -/
def ReferenceCurrent (state : AgeState) : AgeEvent → Prop
  | .sendRa _ _ => state.iface.advSendAdvert = true →
      state.init.tvSec ≤ state.iface.times.lastRaTime.tvSec
  | _ => True

/-- `left` is at least what remains of `configured` after the seconds that the
clock shows between the initialisation and the reference time. -/
def AgedAtMost (configured left : UInt32) (init lastRaTime : Timespec) : Prop :=
  (configured.toNat : Int) ≤ left.toNat + max 0 (lastRaTime.tvSec - init.tvSec)

/-- The invariant: no prefix was aged by more than the clock shows. -/
structure AgeBound (state : AgeState) : Prop where
  clock_valid : state.clock.Valid
  init_valid : state.init.Valid
  lastRaTime_valid : state.iface.times.lastRaTime.Valid
  init_before : state.init.Before state.clock
  lastRaTime_before : state.iface.times.lastRaTime.Before state.clock
  lifetimes : ∀ entry ∈ state.iface.advPrefixList, entry.decrementLifetimesFlag = true →
    AgedAtMost entry.advValidLifetime entry.currValidlft state.init
        state.iface.times.lastRaTime ∧
      AgedAtMost entry.advPreferredLifetime entry.currPreferredlft state.init
        state.iface.times.lastRaTime

theorem ageBound_load {iface : Interface} (fresh : iface.Fresh) (warned : Bool) {now : Timespec}
    (valid : now.Valid) : AgeBound ⟨iface, warned, now, now⟩ where
  clock_valid := valid
  init_valid := valid
  lastRaTime_valid := by
    rw [fresh.lastRaTime_eq]
    decide
  init_before := .refl now
  lastRaTime_before := by
    rw [fresh.lastRaTime_eq]
    simp only [Timespec.Valid, Timespec.Before] at *
    omega
  lifetimes := by
    intro entry mem _
    rcases fresh.lifetimes_eq entry mem with ⟨validEq, preferredEq⟩
    rw [AgedAtMost, AgedAtMost, validEq, preferredEq]
    omega

theorem AgedAtMost.mono {configured left : UInt32} {init last now : Timespec}
    (aged : AgedAtMost configured left init last) (later : last.tvSec ≤ now.tvSec) :
    AgedAtMost configured left init now := by
  simp only [AgedAtMost] at *
  omega

theorem AgedAtMost.decrement {configured left : UInt32} {init last now : Timespec} {secs : Int}
    (aged : AgedAtMost configured left init last) (nonneg : 0 ≤ secs)
    (counted : secs ≤ now.tvSec - last.tvSec) (current : init.tvSec ≤ last.tvSec) :
    AgedAtMost configured (decrementLifetime secs left) init now := by
  have left' := toNat_decrementLifetime nonneg left
  simp only [AgedAtMost] at *
  omega

/-- What an RA does to a prefix keeps it within the bound if the reference time is
current. -/
theorem agedAtMost_ageEntry {entry : AdvPrefix} {init last now : Timespec} {secs : Int}
    (ceaseAdv : Bool) (nonneg : 0 ≤ secs) (counted : secs ≤ now.tvSec - last.tvSec)
    (current : init.tvSec ≤ last.tvSec)
    (aged : AgedAtMost entry.advValidLifetime entry.currValidlft init last ∧
      AgedAtMost entry.advPreferredLifetime entry.currPreferredlft init last) :
    AgedAtMost (ageEntry ceaseAdv secs entry).advValidLifetime
        (ageEntry ceaseAdv secs entry).currValidlft init now ∧
      AgedAtMost (ageEntry ceaseAdv secs entry).advPreferredLifetime
        (ageEntry ceaseAdv secs entry).currPreferredlft init now := by
  simp only [ageEntry]
  split
  · exact aged.imp (·.decrement nonneg counted current) (·.decrement nonneg counted current)
  · have moved : last.tvSec ≤ now.tvSec := by omega
    exact aged.imp (·.mono moved) (·.mono moved)

theorem ageBound_sendRa {state next : AgeState} {env : SendEnv} {dest : Option In6Addr}
    (current : ReferenceCurrent state (.sendRa env dest))
    (step : AgeStep state (.sendRa env dest) next) (bound : AgeBound state) : AgeBound next := by
  rcases bound with ⟨-, initValid, lastValid, initBefore, lastBefore, lifetimes⟩
  by_cases advertises : state.iface.advSendAdvert = true
  · rcases step.sendRa_spec advertises with ⟨listEq, lastEq, clockEq, initEq, valid, later⟩
    have nonneg := secsSinceLastRa_nonneg env.now state.iface.times.lastRaTime
    have counted := secsSinceLastRa_le valid lastValid (lastBefore.trans later)
    refine ⟨clockEq ▸ valid, initEq ▸ initValid, lastEq ▸ valid, ?_, ?_, ?_⟩
    · rw [initEq, clockEq]
      exact initBefore.trans later
    · rw [lastEq, clockEq]
      exact .refl _
    · rw [listEq, lastEq, initEq]
      refine List.forall_mem_map.mpr ?_
      intro entry mem decrements
      rw [sameConfig_ageEntry] at decrements
      exact agedAtMost_ageEntry _ nonneg counted (current advertises)
        (lifetimes entry mem decrements)
  · cases step with
    | sendRa valid later _ =>
        have same : (sendRa env state.warned state.iface dest).iface = state.iface := by
          rw [iface_sendRa, if_neg advertises]
        refine ⟨valid, initValid, ?_, initBefore.trans later, ?_, ?_⟩
        · simpa only [same] using lastValid
        · simpa only [same] using lastBefore.trans later
        · simpa only [same] using lifetimes

theorem ageBound_step {state next : AgeState} {event : AgeEvent}
    (step : Guarded AgeStep ReferenceCurrent state event next) (bound : AgeBound state) :
    AgeBound next := by
  rcases step with ⟨current, step⟩
  cases event with
  | load now iface =>
      cases step with
      | load valid _ fresh => exact ageBound_load fresh _ valid
  | kickoff now =>
      cases step with
      | kickoff valid later =>
          refine ⟨valid, bound.init_valid, valid, bound.init_before.trans later, .refl now, ?_⟩
          intro entry mem decrements
          have moved := (bound.lastRaTime_before.trans later).tvSec_le
          exact (bound.lifetimes entry mem decrements).imp (·.mono moved) (·.mono moved)
  | sendRa env dest => exact ageBound_sendRa current step bound
  | reset now =>
      cases step with
      | reset valid later =>
          refine ⟨valid, valid, bound.lastRaTime_valid, .refl now,
            bound.lastRaTime_before.trans later, ?_⟩
          refine List.forall_mem_map.mpr ?_
          intro entry _ decrements
          have decrements' : entry.decrementLifetimesFlag = true := by
            rw [sameConfig_resetEntry entry] at decrements
            exact decrements
          rw [resetEntry, if_pos decrements', AgedAtMost, AgedAtMost]
          dsimp only
          omega
  | other iface =>
      cases step with
      | other prefixes lastRaTime =>
          refine ⟨bound.clock_valid, bound.init_valid, ?_, bound.init_before, ?_, ?_⟩
          · simpa only [lastRaTime] using bound.lastRaTime_valid
          · simpa only [lastRaTime] using bound.lastRaTime_before
          · simpa only [lastRaTime, prefixes] using bound.lifetimes

/-- In every run from the loading of a configuration on, of interfaces that are
kicked off at start-up or not, RAs and resets, whose RAs all find a current
reference time: at every moment no prefix was aged by more than the time since
its lifetimes were last initialised. -/
theorem lifetimes_ge_unelapsed {boot state : AgeState} {loaded moment : Timespec}
    {iface : Interface} {events : List AgeEvent}
    (run : Run (Guarded AgeStep ReferenceCurrent) boot (.load loaded iface :: events) state)
    (valid : moment.Valid) (later : state.clock.Before moment) {entry : AdvPrefix}
    (mem : entry ∈ state.iface.advPrefixList)
    (decrements : entry.decrementLifetimesFlag = true) :
    max 0 (entry.advValidLifetime.toNat - moment.ceilSince state.init) ≤
        entry.currValidlft.toNat ∧
      max 0 (entry.advPreferredLifetime.toNat - moment.ceilSince state.init) ≤
        entry.currPreferredlft.toNat := by
  have bound : AgeBound state := by
    cases run with
    | cons first rest =>
        rcases first with ⟨-, step⟩
        cases step with
        | load valid _ fresh =>
            exact rest.invariant (fun _ _ _ => ageBound_step) (ageBound_load fresh _ valid)
  rcases bound.lifetimes entry mem decrements with ⟨validBound, preferredBound⟩
  have elapsed := Timespec.le_ceilSince bound.init_valid valid
  have initLe := (bound.init_before.trans later).tvSec_le
  have lastLe := (bound.lastRaTime_before.trans later).tvSec_le
  simp only [AgedAtMost] at validBound preferredBound
  omega

theorem lifetimes_ge_unelapsed_decrementing :
    ∃ state entry, Run (Guarded AgeStep ReferenceCurrent) ⟨decrementing, false, ⟨0, 0⟩, ⟨0, 0⟩⟩
        [.load ⟨90, 0⟩ decrementing, .kickoff ⟨100, 0⟩, .sendRa (routerEnv ⟨101, 0⟩) none,
          .reset ⟨101, 500000000⟩, .sendRa (routerEnv ⟨104, 0⟩) none] state ∧
      state.entry 0 = some entry ∧ entry.currValidlft = 7 ∧ entry.currPreferredlft = 7 ∧
      max 0 ((entry.advValidLifetime.toNat : Int) -
          Timespec.ceilSince ⟨104, 0⟩ ⟨101, 500000000⟩) ≤ entry.currValidlft.toNat ∧
      max 0 ((entry.advPreferredLifetime.toNat : Int) -
          Timespec.ceilSince ⟨104, 0⟩ ⟨101, 500000000⟩) ≤ entry.currPreferredlft.toNat := by
  have sendable := sendable_decrementing.setLastRaTime ⟨100, 0⟩
  have first := sendable.sendRa none
    (by decide : (⟨101, 0⟩ : Timespec).Valid) (by decide : kickedOff.clock.Before ⟨101, 0⟩)
  have second := @Sendable.sendRa
    ⟨resetPrefixLifetimes (agedIface (routerEnv ⟨101, 0⟩) kickedOff.iface none), false,
      ⟨101, 500000000⟩, ⟨101, 500000000⟩⟩
    (sendable.agedIface _ none).reset ⟨104, 0⟩ none (by decide) (by decide)
  -- the RA before the reset is in the same second, so the reference time is current
  have run : Run (Guarded AgeStep ReferenceCurrent) ⟨decrementing, false, ⟨0, 0⟩, ⟨0, 0⟩⟩
      [.load ⟨90, 0⟩ decrementing, .kickoff ⟨100, 0⟩, .sendRa (routerEnv ⟨101, 0⟩) none,
        .reset ⟨101, 500000000⟩, .sendRa (routerEnv ⟨104, 0⟩) none] _ :=
    .cons ⟨trivial, .load (by decide) (by decide) fresh_decrementing⟩
      (.cons ⟨trivial, .kickoff (by decide) (by decide)⟩
        (.cons ⟨fun _ => by decide, first⟩
          (.cons ⟨trivial, .reset (by decide) (by decide)⟩
            (.cons ⟨fun _ => by decide, second⟩ (.nil _)))))
  exact ⟨_, _, run, rfl, by decide, by decide,
    lifetimes_ge_unelapsed run (by decide) (by decide) (List.mem_of_getElem? (i := 0) rfl) rfl⟩

def SetupEnv.ethernet : SetupEnv where
  ifNametoindex := 2
  siocgifflags := some { up := true, running := true, multicast := true, pointopoint := false }
  device := Device.ethernet
  ifaceForwarding := .value 1
  getifaddrs := some
    [{ ifaName := decrementing.props.name
       ifaAddr := some (.inet6 linkLocalAddr In6Addr.unspecified) }]
  joins := true

/-- The interface after a set-up that did not find the device. -/
def missing : Interface :=
  { decrementing with stateInfo := { decrementing.stateInfo with changed := false } }

/-- The interface after a set-up that finds the device at second 94. -/
def appeared : Interface :=
  { decrementing with
    minRtrAdvInterval := 198
    stateInfo := { ready := true, changed := false, ceaseAdv := false, racount := 0 }
    props :=
      { name := decrementing.props.name
        ifIndex := 2
        ifAddr := linkLocalAddr
        ifAddrs := [linkLocalAddr, In6Addr.unspecified]
        addrsCount := 1
        ifAddrRasrc := some .ifAddr
        maxRaOptionSize := 1210 }
    times := { decrementing.times with nextMulticast := ⟨95, 0⟩ }
    sllao :=
      { ifHwaddr := ⟨#[2, 2, 2, 2, 2, 2, 0, 0, 0, 0, 0, 0, 0, 0, 0, 0], rfl⟩
        ifHwaddrLen := 48
        ifPrefixLen := 64
        ifMaxmtu := 1500 }
    mipv6 := { decrementing.mipv6 with homeAgentLifetime := 1800 } }

theorem setupIface_missing :
    setupIface SetupEnv.ethernet (touchIface ⟨94, 0⟩ missing) = .ok (appeared, 0) := by
  have done : (setupIface SetupEnv.ethernet (touchIface ⟨94, 0⟩ missing)).toOption =
      some (appeared, 0) := by
    with_unfolding_all decide
  rcases result : setupIface SetupEnv.ethernet (touchIface ⟨94, 0⟩ missing) with exit | pair
  · rw [result] at done
    cases done
  · rw [result] at done
    cases done
    rfl

theorem sendable_appeared : Sendable (countRa appeared none) where
  advertises := rfl
  parsed := ⟨sendable_decrementing.parsed.route_prefixLen,
    sendable_decrementing.parsed.dnssl_parsed, by decide,
    sendable_decrementing.parsed.capport_length⟩
  fits := sendable_decrementing.fits
  small := by decide
  keeps := sendable_decrementing.keeps

theorem iface_sendRaForall_missing :
    (sendRaForall SetupEnv.ethernet (fun _ => routerEnv ⟨95, 0⟩) false
        (touchIface ⟨94, 0⟩ missing) none).iface =
      agedIface (routerEnv ⟨95, 0⟩) (countRa appeared none) none := by
  have ensured : ensureIfaceSetup SetupEnv.ethernet (touchIface ⟨94, 0⟩ missing) =
      .ok appeared := by
    rw [ensureIfaceSetup, setupIface_missing]
    rfl
  have dests : raDests (countRa appeared none) none = [none] := rfl
  have transmits := @sendRa_transmits (routerEnv ⟨95, 0⟩) false false false _ none
    sendable_appeared.advertises sendable_appeared.parsed sendable_appeared.fits
    sendable_appeared.small rfl (fun _ => rfl)
  rw [sendRaForall, ensured]
  simp only [dests, sendRas, transmits.1]
  rw [if_neg (by decide), iface_sendRa, if_pos sendable_appeared.advertises]

/-- An interface that is missing when it is set up is not kicked off when it
appears. Its prefix, delegated for ten seconds and loaded five seconds ago, is
dead with the first RA. -/
theorem not_aged_appeared :
    (∀ setup kickoff, setup.ifNametoindex = 0 →
        setupIfaceFoo setup kickoff false decrementing = ⟨missing, false, [], none⟩) ∧
      ∃ state entry, Run AgeStep ⟨decrementing, false, ⟨0, 0⟩, ⟨0, 0⟩⟩
          [.load ⟨90, 0⟩ decrementing, .other missing, .other (touchIface ⟨94, 0⟩ missing),
            .other (countRa appeared none), .sendRa (routerEnv ⟨95, 0⟩) none] state ∧
        state.iface = (sendRaForall SetupEnv.ethernet (fun _ => routerEnv ⟨95, 0⟩) false
          (touchIface ⟨94, 0⟩ missing) none).iface ∧
        state.entry 0 = some entry ∧ entry.decrementLifetimesFlag = true ∧
        ¬max 0 ((entry.advPreferredLifetime.toNat : Int) - state.clock.ceilSince state.init) ≤
          entry.currPreferredlft.toNat := by
  constructor
  · intro setup kickoff absent
    simp only [setupIfaceFoo, setupIface, updateDeviceIndex, absent, if_true]
    rfl
  · have sent := @Sendable.sendRa ⟨countRa appeared none, false, ⟨90, 0⟩, ⟨90, 0⟩⟩
      sendable_appeared ⟨95, 0⟩ none (by decide) (by decide)
    rw [iface_sendRaForall_missing]
    exact ⟨_, _, .cons (.load (by decide) (by decide) fresh_decrementing)
      (.cons (.other rfl rfl) (.cons (.other rfl rfl) (.cons (.other rfl rfl)
        (.cons sent (.nil _))))), rfl, rfl, rfl, by decide⟩

end Radvd
