import Radvd.Lifetimes

/-!
# The end of a prefix with `DecrementLifetimes`

Whether the end of a prefix is announced by a last RA with a preferred lifetime
of zero. `update_iface_times` brings the lifetime to zero before
`build_ra_options` looks at it in the same call of `send_ra`, and a prefix whose
preferred lifetime is zero is skipped there, so the RA that ends the prefix does
not contain it (`prefixOptions_eq_nil`). It stays away until the lifetimes are
reset.
-/

namespace Radvd

open Wire Runs

/-- The Prefix Information options an RA carries for the prefix at position
`index`. -/
def prefixOptions (env : SendEnv) (iface : Interface) (dest : Option In6Addr) (index : Nat) :
    List Bytes :=
  match (agedIface env iface dest).advPrefixList[index]? with
  | none => []
  | some entry =>
      (advertisedPrefixes env.kernel (agedIface env iface dest) entry).map
        (prefixBlock · iface.stateInfo.ceaseAdv)

theorem flatMap_getElem?_toList {α : Type} (list : List α) :
    (List.range list.length).flatMap (fun index => list[index]?.toList) = list := by
  induction list with
  | nil => rfl
  | cons head tail ih =>
      rw [List.length_cons, List.range_succ_eq_map, List.flatMap_cons, List.flatMap_map]
      simpa using ih

/-- The options of all positions are the prefix options of `build_ra_options`. -/
theorem flatMap_prefixOptions (env : SendEnv) (iface : Interface) (dest : Option In6Addr) :
    (List.range iface.advPrefixList.length).flatMap (prefixOptions env iface dest) =
      prefixBlocks env.kernel (agedIface env iface dest)
        (agedIface env iface dest).stateInfo.ceaseAdv
        (agedIface env iface dest).advPrefixList := by
  have length : iface.advPrefixList.length = (agedIface env iface dest).advPrefixList.length := by
    rw [advPrefixList_agedIface, List.length_map]
  rw [length, ceaseAdv_agedIface, prefixBlocks, List.map_flatMap]
  generalize agedEq : agedIface env iface dest = aged
  have perIndex : prefixOptions env iface dest = fun index =>
      (aged.advPrefixList[index]?.toList).flatMap fun entry =>
        (advertisedPrefixes env.kernel aged entry).map
          (prefixBlock · iface.stateInfo.ceaseAdv) := by
    funext index
    rw [prefixOptions, agedEq]
    cases aged.advPrefixList[index]? <;> simp
  rw [perIndex, ← List.flatMap_assoc, flatMap_getElem?_toList]

def preferredOctets (option : Bytes) : Bytes :=
  (option.drop 8).take 4

/-- The preferred lifetime passes from positive to zero with this RA. -/
def Passes (env : SendEnv) (iface : Interface) (dest : Option In6Addr) (index : Nat) : Prop :=
  iface.advSendAdvert = true ∧ ∃ entry aged, iface.advPrefixList[index]? = some entry ∧
    (agedIface env iface dest).advPrefixList[index]? = some aged ∧
    0 < entry.currPreferredlft ∧ aged.currPreferredlft = 0

/-- The preferred lifetime is positive and within the seconds counted since the
previous RA. -/
def RunsOut (env : SendEnv) (iface : Interface) (index : Nat) : Prop :=
  iface.advSendAdvert = true ∧ ∃ entry, iface.advPrefixList[index]? = some entry ∧
    0 < entry.currPreferredlft ∧
    entry.currPreferredlft.toNat ≤ secsSinceLastRa env.now iface.times.lastRaTime ∧
    (iface.stateInfo.ceaseAdv && entry.deprecatePrefixFlag) = false

section Entry

variable {env : SendEnv} {iface : Interface} {dest : Option In6Addr} {index : Nat}
  {entry : AdvPrefix}

theorem getElem?_agedIface (found : iface.advPrefixList[index]? = some entry) :
    (agedIface env iface dest).advPrefixList[index]? =
      some (ageEntry iface.stateInfo.ceaseAdv
        (secsSinceLastRa env.now iface.times.lastRaTime) entry) := by
  rw [advPrefixList_agedIface, List.getElem?_map, found]
  rfl

theorem ageEntry_preferred_eq_zero_iff {ceaseAdv : Bool} {secs : Int} (nonneg : 0 ≤ secs)
    (decrements : entry.decrementLifetimesFlag = true) (positive : 0 < entry.currPreferredlft) :
    (ageEntry ceaseAdv secs entry).currPreferredlft = 0 ↔
      entry.currPreferredlft.toNat ≤ secs ∧
        (ceaseAdv && entry.deprecatePrefixFlag) = false := by
  have positive' : 0 < entry.currPreferredlft.toNat := positive
  rw [← UInt32.toNat_inj]
  by_cases stays : (ceaseAdv && entry.deprecatePrefixFlag) = false
  · have aged := (agedBy_ageEntry nonneg decrements stays).preferred
    have zero : (0 : UInt32).toNat = 0 := rfl
    rw [zero, stays]
    simp only [and_true]
    omega
  · have same : ageEntry ceaseAdv secs entry = entry := by
      rw [Bool.not_eq_false] at stays
      simp [ageEntry, stays]
    rw [same]
    have zero : (0 : UInt32).toNat = 0 := rfl
    rw [zero]
    constructor
    · omega
    · intro ran
      exact absurd ran.2 stays

theorem passes_iff (found : iface.advPrefixList[index]? = some entry)
    (decrements : entry.decrementLifetimesFlag = true) :
    Passes env iface dest index ↔ RunsOut env iface index := by
  have nonneg := secsSinceLastRa_nonneg env.now iface.times.lastRaTime
  constructor
  · rintro ⟨advertises, entry', aged, found', agedEq, positive, zero⟩
    obtain rfl : entry' = entry := Option.some.inj (found'.symm.trans found)
    rw [getElem?_agedIface found] at agedEq
    cases agedEq
    exact ⟨advertises, entry', found, positive,
      (ageEntry_preferred_eq_zero_iff nonneg decrements positive).mp zero⟩
  · rintro ⟨advertises, entry', found', positive, ran⟩
    obtain rfl : entry' = entry := Option.some.inj (found'.symm.trans found)
    exact ⟨advertises, entry', _, found, getElem?_agedIface found, positive,
      (ageEntry_preferred_eq_zero_iff nonneg decrements positive).mpr ran⟩

/-- A prefix whose preferred lifetime is zero when the RA is built is left out. -/
theorem prefixOptions_eq_nil (found : iface.advPrefixList[index]? = some entry)
    (decrements : entry.decrementLifetimesFlag = true)
    (zero : (ageEntry iface.stateInfo.ceaseAdv
      (secsSinceLastRa env.now iface.times.lastRaTime) entry).currPreferredlft = 0) :
    prefixOptions env iface dest index = [] := by
  have decrements' := (sameConfig_ageEntry iface.stateInfo.ceaseAdv
    (secsSinceLastRa env.now iface.times.lastRaTime) entry).decrements decrements
  rw [prefixOptions, getElem?_agedIface found]
  simp [advertisedPrefixes, decrements', zero]

theorem prefixOptions_ne_nil (found : iface.advPrefixList[index]? = some entry)
    (literal : entry.isLiteral = true)
    (positive : 0 < (ageEntry iface.stateInfo.ceaseAdv
      (secsSinceLastRa env.now iface.times.lastRaTime) entry).currPreferredlft) :
    prefixOptions env iface dest index ≠ [] := by
  have literal' : (ageEntry iface.stateInfo.ceaseAdv
      (secsSinceLastRa env.now iface.times.lastRaTime) entry).isLiteral = true := by
    rw [sameConfig_ageEntry]
    exact literal
  rw [prefixOptions, getElem?_agedIface found]
  simp [advertisedPrefixes, literal', positive]

end Entry

/-! ## Runs of RAs and resets -/

def AgeEvent.isRaOrReset : AgeEvent → Bool
  | .load _ _ | .kickoff _ => false
  | _ => true

def AgeEvent.isReset : AgeEvent → Bool
  | .reset _ => true
  | _ => false

def AgeEvent.isSendRa : AgeEvent → Bool
  | .sendRa _ _ => true
  | _ => false

section Run

variable {index : Nat} {entry : AdvPrefix} {state next last : AgeState} {event : AgeEvent}
  {events : List AgeEvent}

theorem entry_sendRa_of_not_advertises {env : SendEnv} {dest : Option In6Addr}
    (step : AgeStep state (.sendRa env dest) next)
    (silent : ¬state.iface.advSendAdvert = true) : next.entry index = state.entry index := by
  cases step with
  | sendRa => simp only [AgeState.entry, iface_sendRa, silent, Bool.false_eq_true, if_false]

theorem entry_step (step : AgeStep state event next) (allowed : event.isRaOrReset = true)
    (found : state.entry index = some entry) :
    ∃ entry', next.entry index = some entry' ∧ SameConfig entry entry' ∧
      (event.isReset = true → entry.decrementLifetimesFlag = true →
        entry'.currPreferredlft = entry.advPreferredLifetime) ∧
      (event.isReset = false → entry.decrementLifetimesFlag = true →
        entry.currPreferredlft = 0 → entry'.currPreferredlft = 0) ∧
      (event.isReset = false → event.isSendRa = false → entry' = entry) := by
  cases event with
  | load | kickoff => cases allowed
  | reset now =>
      cases step with
      | reset =>
          refine ⟨resetEntry entry, ?_, sameConfig_resetEntry entry, ?_,
            by simp [AgeEvent.isReset], by simp [AgeEvent.isReset]⟩
          · rw [AgeState.entry] at found ⊢
            simp [resetPrefixLifetimes, found]
          · intro _ decrements
            simp [resetEntry, decrements]
  | other iface =>
      cases step with
      | other prefixes =>
          refine ⟨entry, ?_, .refl entry, by simp [AgeEvent.isReset], fun _ _ zero => zero,
            fun _ _ => rfl⟩
          rw [AgeState.entry, prefixes]
          exact found
  | sendRa env dest =>
      by_cases advertises : state.iface.advSendAdvert = true
      · have entryEq := step.entry_sendRa advertises index
        rw [found] at entryEq
        refine ⟨_, entryEq, sameConfig_ageEntry _ _ entry, by simp [AgeEvent.isReset], ?_,
          by simp [AgeEvent.isSendRa]⟩
        intro _ decrements zero
        simp [ageEntry, decrements, zero]
      · refine ⟨entry, ?_, .refl entry, by simp [AgeEvent.isReset], fun _ _ zero => zero,
          by simp [AgeEvent.isSendRa]⟩
        rw [entry_sendRa_of_not_advertises step advertises]
        exact found

theorem entry_run (run : Run AgeStep state events last)
    (allowed : ∀ event ∈ events, event.isRaOrReset = true)
    (found : state.entry index = some entry) :
    ∃ entry', last.entry index = some entry' ∧ SameConfig entry entry' := by
  induction run generalizing entry with
  | nil => exact ⟨entry, found, .refl entry⟩
  | cons first _ ih =>
      rcases entry_step first (allowed _ (List.mem_cons_self ..)) found with
        ⟨entry', found', same, -⟩
      rcases ih (fun event mem => allowed event (List.mem_cons_of_mem _ mem)) found' with
        ⟨entry'', found'', same'⟩
      exact ⟨entry'', found'', same.trans same'⟩

theorem zero_run (run : Run AgeStep state events last)
    (allowed : ∀ event ∈ events, event.isRaOrReset = true ∧ event.isReset = false)
    (found : state.entry index = some entry)
    (decrements : entry.decrementLifetimesFlag = true) (zero : entry.currPreferredlft = 0) :
    ∃ entry', last.entry index = some entry' ∧ entry'.decrementLifetimesFlag = true ∧
      entry'.currPreferredlft = 0 := by
  induction run generalizing entry with
  | nil => exact ⟨entry, found, decrements, zero⟩
  | cons first _ ih =>
      have firstAllowed := allowed _ (List.mem_cons_self ..)
      rcases entry_step first firstAllowed.1 found with ⟨entry', found', same, -, stays, -⟩
      exact ih (fun event mem => allowed event (List.mem_cons_of_mem _ mem)) found'
        (same.decrements decrements) (stays firstAllowed.2 decrements zero)

theorem full_run (run : Run AgeStep state events last)
    (allowed : ∀ event ∈ events, event.isRaOrReset = true ∧ event.isSendRa = false)
    (found : state.entry index = some entry)
    (decrements : entry.decrementLifetimesFlag = true)
    (full : entry.currPreferredlft = entry.advPreferredLifetime) :
    ∃ entry', last.entry index = some entry' ∧
      entry'.currPreferredlft = entry'.advPreferredLifetime := by
  induction run generalizing entry with
  | nil => exact ⟨entry, found, full⟩
  | @cons _ _ _ event _ first _ ih =>
      have firstAllowed := allowed _ (List.mem_cons_self ..)
      rcases entry_step first firstAllowed.1 found with ⟨entry', found', same, reset, -, other⟩
      apply ih (fun event mem => allowed event (List.mem_cons_of_mem _ mem)) found'
        (same.decrements decrements)
      cases isReset : event.isReset with
      | true => rw [reset isReset decrements, same]
      | false =>
          rw [other isReset firstAllowed.2]
          exact full

end Run

/-! ## Announcing the end -/

section Announcing

variable (start : AgeState) (events : List AgeEvent) (index : Nat)

/-- The RA with which the preferred lifetime passes from positive to zero has the
prefix with a preferred lifetime of zero. -/
def AnnouncesEnd : Prop :=
  ∀ before env dest after state, events = before ++ .sendRa env dest :: after →
    Run AgeStep start before state → Passes env state.iface dest index →
    ∃ option ∈ prefixOptions env state.iface dest index, preferredOctets option = [0, 0, 0, 0]

/-- No RA after that one has the prefix unless a reset comes between them. -/
def StaysAway : Prop :=
  ∀ before env dest between env' dest' after passing ended state,
    events = before ++ .sendRa env dest :: between ++ .sendRa env' dest' :: after →
    Run AgeStep start before passing → Passes env passing.iface dest index →
    AgeStep passing (.sendRa env dest) ended → Run AgeStep ended between state →
    (∀ event ∈ between, event.isReset = false) →
    prefixOptions env' state.iface dest' index = []

/-- The first RA after a reset has the prefix. -/
def Reappears : Prop :=
  ∀ before now between env dest after state reset state',
    events = before ++ .reset now :: between ++ .sendRa env dest :: after →
    Run AgeStep start before state → AgeStep state (.reset now) reset →
    Run AgeStep reset between state' → (∀ event ∈ between, event.isSendRa = false) →
    state'.iface.advSendAdvert = true → prefixOptions env state'.iface dest index ≠ []

/-- No RA finds a preferred lifetime that is positive and within the seconds
counted since the previous RA. -/
def NeverRunsOut : Prop :=
  ∀ before env dest after state, events = before ++ .sendRa env dest :: after →
    Run AgeStep start before state → ¬RunsOut env state.iface index

end Announcing

section Settled

variable {start : AgeState} {events : List AgeEvent} {index : Nat} {entry : AdvPrefix}

theorem staysAway (found : start.entry index = some entry)
    (decrements : entry.decrementLifetimesFlag = true)
    (allowed : ∀ event ∈ events, event.isRaOrReset = true) : StaysAway start events index := by
  intro before env dest between env' dest' after passing ended state eventsEq run passes step
    later noReset
  rw [eventsEq] at allowed
  rcases entry_run run (fun event mem => allowed event (by simp [mem])) found with
    ⟨entry', found', same⟩
  have decrements' := same.decrements decrements
  rcases passes with ⟨advertises, -, aged, -, agedEq, -, zero⟩
  have endedEq := step.entry_sendRa advertises index
  rw [found'] at endedEq
  rw [getElem?_agedIface found'] at agedEq
  cases agedEq
  have agedDecrements := (sameConfig_ageEntry passing.iface.stateInfo.ceaseAdv
    (secsSinceLastRa env.now passing.iface.times.lastRaTime) entry').decrements decrements'
  rcases zero_run later (fun event mem => ⟨allowed event (by simp [mem]), noReset event mem⟩)
    endedEq agedDecrements zero with ⟨entry'', found'', decrements'', zero''⟩
  apply prefixOptions_eq_nil found'' decrements''
  simp [ageEntry, decrements'', zero'']

theorem reappears_of_neverRunsOut (found : start.entry index = some entry)
    (literal : entry.isLiteral = true) (decrements : entry.decrementLifetimesFlag = true)
    (positive : 0 < entry.advPreferredLifetime)
    (allowed : ∀ event ∈ events, event.isRaOrReset = true)
    (never : NeverRunsOut start events index) : Reappears start events index := by
  intro before now between env dest after state reset state' eventsEq run step later noRa
    advertises
  rw [eventsEq] at allowed
  rcases entry_run run (fun event mem => allowed event (by simp [mem])) found with
    ⟨entry', found', same⟩
  have decrements' := same.decrements decrements
  rcases entry_step step rfl found' with ⟨renewed, foundRenewed, sameRenewed, renews, -⟩
  have renewedDecrements := sameRenewed.decrements decrements'
  have full : renewed.currPreferredlft = renewed.advPreferredLifetime := by
    rw [renews rfl decrements', sameRenewed]
  have laterAllowed : ∀ event ∈ between, event.isRaOrReset = true :=
    fun event mem => allowed event (by simp [mem])
  rcases full_run later (fun event mem => ⟨laterAllowed event mem, noRa event mem⟩) foundRenewed
    renewedDecrements full with ⟨entry'', found'', full''⟩
  rcases entry_run later laterAllowed foundRenewed with ⟨other, foundOther, sameLater⟩
  obtain rfl : other = entry'' := Option.some.inj (foundOther.symm.trans found'')
  have config := (same.trans sameRenewed).trans sameLater
  have decrements'' := config.decrements decrements
  have positive'' : 0 < other.currPreferredlft := by
    rw [full'', config]
    exact positive
  have literal'' : other.isLiteral = true := by
    rw [config]
    exact literal
  apply prefixOptions_ne_nil found'' literal''
  apply UInt32.pos_iff_ne_zero.mpr
  intro zero
  apply never (before ++ .reset now :: between) env dest after state' (by simp [eventsEq])
    (run.append (.cons step later))
  exact ⟨advertises, other, found'', positive'', (ageEntry_preferred_eq_zero_iff
    (secsSinceLastRa_nonneg _ _) decrements'' positive'').mp zero⟩

/-- For every literal prefix with `DecrementLifetimes` and every run of RAs and
resets: the prefix stays away after its end until a reset, and the end is
announced, and the prefix reappears with the first RA after a reset, exactly if
no RA of the run brings a positive preferred lifetime to zero. -/
theorem end_announced_iff (found : start.entry index = some entry)
    (literal : entry.isLiteral = true) (decrements : entry.decrementLifetimesFlag = true)
    (positive : 0 < entry.advPreferredLifetime)
    (allowed : ∀ event ∈ events, event.isRaOrReset = true) :
    StaysAway start events index ∧
      (AnnouncesEnd start events index ∧ StaysAway start events index ∧
          Reappears start events index ↔
        NeverRunsOut start events index) := by
  have atRa : ∀ before env dest after state, events = before ++ .sendRa env dest :: after →
      Run AgeStep start before state → ∃ entry', state.entry index = some entry' ∧
        entry'.decrementLifetimesFlag = true := by
    intro before env dest after state eventsEq run
    rw [eventsEq] at allowed
    rcases entry_run run (fun event mem => allowed event (by simp [mem])) found with
      ⟨entry', found', same⟩
    exact ⟨entry', found', same.decrements decrements⟩
  have away := staysAway found decrements allowed
  refine ⟨away, ?_, ?_⟩
  · rintro ⟨announces, -, -⟩ before env dest after state eventsEq run ran
    rcases atRa before env dest after state eventsEq run with ⟨entry', found', decrements'⟩
    rcases announces before env dest after state eventsEq run
      ((passes_iff found' decrements').mpr ran) with ⟨option, mem, -⟩
    rcases ran with ⟨-, other, foundOther, positive', within⟩
    obtain rfl : other = entry' := Option.some.inj (foundOther.symm.trans found')
    have zero := (ageEntry_preferred_eq_zero_iff (secsSinceLastRa_nonneg _ _) decrements'
      positive').mpr within
    rw [prefixOptions_eq_nil found' decrements' zero] at mem
    cases mem
  · intro never
    refine ⟨?_, away, reappears_of_neverRunsOut found literal decrements positive allowed never⟩
    intro before env dest after state eventsEq run passes
    rcases atRa before env dest after state eventsEq run with ⟨entry', found', decrements'⟩
    exact absurd ((passes_iff found' decrements').mp passes)
      (never before env dest after state eventsEq run)

end Settled

/-! ## Runs in which the prefix does not end -/

section

variable {start next : AgeState} {event : AgeEvent} {events : List AgeEvent} {index : Nat}

theorem AgeStep.unique {other : AgeState} (first : AgeStep start event next)
    (second : AgeStep start event other) : next = other := by
  cases first <;> cases second <;> rfl

theorem neverRunsOut_nil : NeverRunsOut start [] index := by
  intro before env dest after state same
  simp at same

theorem NeverRunsOut.cons (step : AgeStep start event next)
    (lasts : ∀ env dest, event = .sendRa env dest → ¬RunsOut env start.iface index)
    (later : NeverRunsOut next events index) : NeverRunsOut start (event :: events) index := by
  intro before env dest after state same run
  rcases before with _ | ⟨head, before⟩
  · rw [List.nil_append, List.cons.injEq] at same
    cases run
    exact lasts env dest same.1
  · rw [List.cons_append, List.cons.injEq] at same
    rcases same with ⟨rfl, same⟩
    cases run with
    | cons first rest =>
        rw [first.unique step] at rest
        exact later before env dest after state same rest

end

/-- Two RAs, a reset, and another RA. -/
def renewed : List AgeEvent :=
  solicited [⟨103, 0⟩, ⟨106, 0⟩] ++ .reset ⟨107, 0⟩ :: solicited [⟨108, 0⟩]

theorem end_announced_iff_solicited :
    ∃ last, Run AgeStep kickedOff renewed last ∧ NeverRunsOut kickedOff renewed 0 ∧
      AnnouncesEnd kickedOff renewed 0 ∧ StaysAway kickedOff renewed 0 ∧
      Reappears kickedOff renewed 0 := by
  have sendable : Sendable kickedOff.iface := sendable_decrementing.setLastRaTime ⟨100, 0⟩
  have first := sendable.sendRa (some clientAddr)
    (by decide : (⟨103, 0⟩ : Timespec).Valid) (by decide : kickedOff.clock.Before ⟨103, 0⟩)
  have second := @Sendable.sendRa (afterSolicited [⟨103, 0⟩]) (sendable.agedIface _ _) ⟨106, 0⟩
    (some clientAddr) (by decide) (by decide)
  have reset := @AgeStep.reset (afterSolicited [⟨103, 0⟩, ⟨106, 0⟩]) ⟨107, 0⟩ (by decide)
    (by decide)
  have third := @Sendable.sendRa
    ⟨resetPrefixLifetimes (afterSolicited [⟨103, 0⟩, ⟨106, 0⟩]).iface, false, ⟨107, 0⟩, ⟨107, 0⟩⟩
    ((sendable.agedIface _ _).agedIface _ _).reset ⟨108, 0⟩ (some clientAddr) (by decide)
    (by decide)
  have run : Run AgeStep kickedOff renewed _ :=
    .cons first (.cons second (.cons reset (.cons third (.nil _))))
  -- ten seconds at first, seven at the second RA, and ten again after the reset
  have never : NeverRunsOut kickedOff renewed 0 := by
    refine .cons first ?_ (.cons second ?_ (.cons reset ?_ (.cons third ?_ neverRunsOut_nil)))
    all_goals
      rintro env dest ⟨⟩
    all_goals
      rintro ⟨-, entry, found, -, within, -⟩
      cases found
      revert within
      decide
  refine ⟨_, run, never, (end_announced_iff rfl (by decide) rfl (by decide) ?_).2.mpr never⟩
  simp [renewed, solicited, AgeEvent.isRaOrReset]

/-- The prefix of ten seconds is in the RA after five seconds, and the RA after
eleven seconds, which ends it, does not have it. -/
theorem not_announcesEnd_solicited :
    Run AgeStep kickedOff (solicited [⟨105, 0⟩, ⟨111, 0⟩])
        (afterSolicited [⟨105, 0⟩, ⟨111, 0⟩]) ∧
      ¬AnnouncesEnd kickedOff (solicited [⟨105, 0⟩, ⟨111, 0⟩]) 0 := by
  refine ⟨(run_solicited (by decide) (by decide)).of_guarded, ?_⟩
  intro announces
  have passes : Passes (routerEnv ⟨111, 0⟩) (afterSolicited [⟨105, 0⟩]).iface (some clientAddr) 0 :=
    ⟨rfl, _, _, rfl, rfl, by decide, by decide⟩
  rcases announces (solicited [⟨105, 0⟩]) (routerEnv ⟨111, 0⟩) (some clientAddr) []
    (afterSolicited [⟨105, 0⟩]) rfl (run_solicited (by decide) (by decide)).of_guarded passes with
    ⟨option, mem, -⟩
  have absent : prefixOptions (routerEnv ⟨111, 0⟩) (afterSolicited [⟨105, 0⟩]).iface
      (some clientAddr) 0 = [] := prefixOptions_eq_nil rfl rfl (by decide)
  rw [absent] at mem
  cases mem

end Radvd
