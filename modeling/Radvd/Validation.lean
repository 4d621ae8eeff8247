import Radvd.Derived
import Radvd.Lifetimes

/-!
# The checks of an interface

What `check_iface` accepts, against the limits of the documentation
(`Documented`). The search for a prefix with `AdvRouterAddr` leaves its cursor
where it stopped, and the checks of the prefixes start there, so the documented
interfaces are accepted, and others as well if the search went past a prefix that
is not valid (`accepts_iff_documented_iff`).

The default values pass the checks for some of the documented intervals only
(`defaults_accepted_iff`).
-/

namespace Radvd

/-! ## The documented limits -/

def AdvPrefix.Valid (entry : AdvPrefix) : Prop :=
  entry.prefixLen ≤ 128 ∧ entry.advPreferredLifetime ≤ entry.advValidLifetime

instance (entry : AdvPrefix) : Decidable entry.Valid :=
  inferInstanceAs (Decidable (_ ∧ _))

/-- The extensions of Mobile IPv6 are switched on for the interface. -/
def Interface.mobileFlags (iface : Interface) : Bool :=
  iface.raHeaderInfo.advHomeAgentFlag || iface.mipv6.advHomeAgentInfo ||
    iface.mipv6.advIntervalOpt

/-- They are in use. -/
def Interface.Mobile (iface : Interface) : Prop :=
  iface.mobileFlags = true ∨ ∃ entry ∈ iface.advPrefixList, entry.advRouterAddr = true

/-- The MTU of the link, if it is known. -/
def Interface.linkMaximum (iface : Interface) : Option UInt32 :=
  if iface.sllao.ifMaxmtu = -1 then none else some (UInt32.ofInt iface.sllao.ifMaxmtu)

/-- The limits of the documentation, with the defaults filled in, for everything
but the prefixes. -/
structure DocumentedSettings (iface : Interface) : Prop where
  min_ge : (iface.Mobile → 3 / 100 ≤ (fillDefaults iface).minRtrAdvInterval) ∧
    (¬iface.Mobile → 3 ≤ (fillDefaults iface).minRtrAdvInterval)
  min_le : (fillDefaults iface).minRtrAdvInterval ≤ 3 / 4 * iface.maxRtrAdvInterval
  max_ge : (iface.Mobile → 7 / 100 ≤ iface.maxRtrAdvInterval) ∧
    (¬iface.Mobile → 4 ≤ iface.maxRtrAdvInterval)
  max_le : iface.maxRtrAdvInterval ≤ 65535
  delay_ge : (iface.Mobile → 3 / 100 ≤ iface.minDelayBetweenRAs) ∧
    (¬iface.Mobile → 3 ≤ iface.minDelayBetweenRAs)
  linkMTU : iface.advLinkMTU = 0 ∨
    1280 ≤ iface.advLinkMTU ∧ ∀ mtu, iface.linkMaximum = some mtu → iface.advLinkMTU ≤ mtu
  reachable_le : iface.raHeaderInfo.advReachableTime ≤ 3600000
  lifetime : (fillDefaults iface).raHeaderInfo.advDefaultLifetime = 0 ∨
    max 1 iface.maxRtrAdvInterval ≤ (fillDefaults iface).raHeaderInfo.advDefaultLifetime ∧
      (fillDefaults iface).raHeaderInfo.advDefaultLifetime ≤ 65535
  homeAgentLifetime : iface.mipv6.advHomeAgentInfo = true →
    1 ≤ (fillDefaults iface).mipv6.homeAgentLifetime ∧
      (fillDefaults iface).mipv6.homeAgentLifetime ≤ 65520
  homeAgentFlag : iface.mipv6.advHomeAgentInfo = true → iface.raHeaderInfo.advHomeAgentFlag = true
  mobRtrSupport : iface.mipv6.advMobRtrSupportFlag = true → iface.mipv6.advHomeAgentInfo = true
  routes : ∀ route ∈ iface.advRouteList, route.prefixLen ≤ 128

/-- The documented interfaces. -/
structure Documented (iface : Interface) : Prop where
  settings : DocumentedSettings iface
  prefixes : ∀ entry ∈ iface.advPrefixList, entry.Valid

/-! ## The search for `AdvRouterAddr` -/

/-- The prefixes that the search goes past. -/
def searched : List AdvPrefix → List AdvPrefix
  | [] => []
  | entry :: rest => if entry.advRouterAddr then [entry] else entry :: searched rest

/-- The prefixes behind the first one with `AdvRouterAddr`. -/
def unsearched : List AdvPrefix → List AdvPrefix
  | [] => []
  | entry :: rest => if entry.advRouterAddr then rest else unsearched rest

theorem findRouterAddr_true (entries : List AdvPrefix) :
    findRouterAddr true entries = (true, entries) := by
  cases entries <;> rfl

theorem findRouterAddr_false_fst (entries : List AdvPrefix) :
    (findRouterAddr false entries).1 = true ↔ ∃ entry ∈ entries, entry.advRouterAddr = true := by
  induction entries with
  | nil => simp [findRouterAddr]
  | cons entry rest ih =>
      rcases found : entry.advRouterAddr with _ | _
      · simp [findRouterAddr, found, ih]
      · simp [findRouterAddr, found, findRouterAddr_true]

theorem findRouterAddr_false_snd (entries : List AdvPrefix) :
    (findRouterAddr false entries).2 = unsearched entries := by
  induction entries with
  | nil => rfl
  | cons entry rest ih =>
      rcases found : entry.advRouterAddr with _ | _
      · simp [findRouterAddr, unsearched, found, ih]
      · simp [findRouterAddr, unsearched, found, findRouterAddr_true]

theorem searched_append (entries : List AdvPrefix) :
    searched entries ++ unsearched entries = entries := by
  induction entries with
  | nil => rfl
  | cons entry rest ih =>
      rcases found : entry.advRouterAddr with _ | _
      · simpa [searched, unsearched, found] using ih
      · simp [searched, unsearched, found]

/-- The prefixes that are checked. -/
def Interface.checkedPrefixes (iface : Interface) : List AdvPrefix :=
  (findRouterAddr iface.mobileFlags iface.advPrefixList).2

section

variable {env : SetupEnv} {iface : Interface}

theorem findRouterAddr_fst_iff :
    (findRouterAddr iface.mobileFlags iface.advPrefixList).1 = true ↔ iface.Mobile := by
  unfold Interface.Mobile
  rcases iface.mobileFlags with _ | _
  · simp [findRouterAddr_false_fst]
  · simp [findRouterAddr_true]

/-! ## What is accepted -/

theorem maxRtrAdvInterval_fillDefaults :
    (fillDefaults iface).maxRtrAdvInterval = iface.maxRtrAdvInterval := by
  unfold fillDefaults
  dsimp only
  split_ifs <;> rfl

/-- What filling in the defaults leaves alone of the settings that are checked. -/
theorem checked_fillDefaults :
    (fillDefaults iface).minDelayBetweenRAs = iface.minDelayBetweenRAs ∧
      (fillDefaults iface).advLinkMTU = iface.advLinkMTU ∧
      (fillDefaults iface).sllao = iface.sllao ∧
      (fillDefaults iface).raHeaderInfo.advReachableTime = iface.raHeaderInfo.advReachableTime ∧
      (fillDefaults iface).raHeaderInfo.advHomeAgentFlag = iface.raHeaderInfo.advHomeAgentFlag ∧
      (fillDefaults iface).mipv6.advHomeAgentInfo = iface.mipv6.advHomeAgentInfo ∧
      (fillDefaults iface).mipv6.advMobRtrSupportFlag = iface.mipv6.advMobRtrSupportFlag ∧
      (fillDefaults iface).advRouteList = iface.advRouteList := by
  unfold fillDefaults
  dsimp only
  split_ifs <;> exact ⟨rfl, rfl, rfl, rfl, rfl, rfl, rfl, rfl⟩

theorem linkMTU_check_iff {maximum : Int} {mtu : UInt32} :
    (!(mtu ≠ 0 && (mtu < 1280 || (maximum ≠ -1 && mtu > UInt32.ofInt maximum)))) = true ↔
      mtu = 0 ∨ 1280 ≤ mtu ∧ ∀ other,
        (if maximum = -1 then none else some (UInt32.ofInt maximum)) = some other → mtu ≤ other := by
  by_cases known : maximum = -1
  · simp [known, or_iff_not_imp_left]
  · simp [known, or_iff_not_imp_left]

theorem prefixes_check_iff {entries : List AdvPrefix} :
    (entries.all fun entry =>
        !(entry.prefixLen > 128) && !(entry.advPreferredLifetime > entry.advValidLifetime)) = true ↔
      ∀ entry ∈ entries, entry.Valid := by
  simp [AdvPrefix.Valid]

theorem limit_iff {mobile : Bool} {uses : Prop} (same : mobile = true ↔ uses)
    {value lower usual : ℚ} :
    ¬value < (if mobile then lower else usual) ↔
      (uses → lower ≤ value) ∧ (¬uses → usual ≤ value) := by
  rw [← same]
  cases mobile <;> simp

theorem ifaceChecks_iff {mobile : Bool} (uses : mobile = true ↔ iface.Mobile)
    (entries : List AdvPrefix) :
    (ifaceChecks (fillDefaults iface) mobile entries).all id = true ↔
      DocumentedSettings iface ∧ ∀ entry ∈ entries, entry.Valid := by
  obtain ⟨delay, mtu, sllao, reachable, flag, info, support, routes⟩ := @checked_fillDefaults iface
  have routes_iff : (iface.advRouteList.all fun route => !(route.prefixLen > 128)) = true ↔
      ∀ route ∈ iface.advRouteList, route.prefixLen ≤ 128 := by simp
  have centi : (30 : ℚ) / 1000 = 3 / 100 := by norm_num
  simp only [ifaceChecks, List.all_cons, List.all_nil, id_eq, Bool.and_true,
    maxRtrAdvInterval_fillDefaults, delay, mtu, sllao, reachable, flag, info, support, routes,
    Bool.and_eq_true, linkMTU_check_iff, prefixes_check_iff, routes_iff]
  simp only [Bool.not_eq_true', Bool.not_eq_false', Bool.or_eq_false_iff, Bool.and_eq_false_iff,
    decide_eq_false_iff_not, limit_iff uses, gt_iff_lt, not_lt, UInt32.not_lt, ne_eq,
    not_not, centi]
  constructor
  · rintro ⟨⟨minGe, minLe⟩, ⟨maxGe, maxLe⟩, delayGe, linkMTU, reachableLe, lifetime, homeAgent,
      homeAgentFlag, mobRtrSupport, prefixes, routes⟩
    refine ⟨⟨minGe, minLe, maxGe, maxLe, delayGe, linkMTU, reachableLe, ?_, ?_, ?_, ?_, routes⟩,
      prefixes⟩
    · exact lifetime.imp id And.symm
    · intro on
      rcases homeAgent with off | ⟨upper, lower⟩
      · exact absurd on (by simp [off])
      · exact ⟨lower, upper⟩
    · intro on
      simpa [on] using homeAgentFlag
    · intro on
      simpa [on] using mobRtrSupport
  · rintro ⟨settings, prefixes⟩
    refine ⟨⟨settings.min_ge, settings.min_le⟩, ⟨settings.max_ge, settings.max_le⟩,
      settings.delay_ge, settings.linkMTU, settings.reachable_le,
      settings.lifetime.imp id And.symm, ?_, ?_, ?_, prefixes, settings.routes⟩
    · rcases on : iface.mipv6.advHomeAgentInfo with _ | _
      · exact .inl rfl
      · exact .inr (settings.homeAgentLifetime on).symm
    · rcases on : iface.mipv6.advHomeAgentInfo with _ | _
      · exact .inl rfl
      · exact .inr (settings.homeAgentFlag on)
    · rcases on : iface.mipv6.advMobRtrSupportFlag with _ | _
      · exact .inl rfl
      · exact .inr (settings.mobRtrSupport on)

theorem checkIface_eq_ok_iff (known : env.ifaceForwarding ≠ .garbage) :
    (∃ filled, checkIface env iface = .ok (filled, 0)) ↔
      DocumentedSettings iface ∧ ∀ entry ∈ iface.checkedPrefixes, entry.Valid := by
  have forwarding : ∃ value, checkIp6IfaceForwarding env = .ok value := by
    unfold checkIp6IfaceForwarding
    rcases read : env.ifaceForwarding with _ | _ | value
    · exact ⟨_, rfl⟩
    · exact absurd read known
    · exact ⟨_, rfl⟩
  rcases forwarding with ⟨value, answered⟩
  rw [← ifaceChecks_iff (@findRouterAddr_fst_iff iface)]
  simp only [checkIface, answered, Bind.bind, Except.bind, pure, Except.pure, Except.ok.injEq,
    Prod.mk.injEq, exists_eq_left', Interface.checkedPrefixes, Interface.mobileFlags]
  split_ifs with accepts
  · simp [accepts]
  · simp [accepts]

/-- `check_iface` accepts exactly the documented interfaces, unless the search
went past a prefix that is not valid and nothing else is wrong. -/
theorem accepts_iff_documented_iff (known : env.ifaceForwarding ≠ .garbage) :
    ((∃ filled, checkIface env iface = .ok (filled, 0)) ↔ Documented iface) ↔
      iface.mobileFlags = true ∨ (∀ entry ∈ searched iface.advPrefixList, entry.Valid) ∨
        ¬(DocumentedSettings iface ∧ ∀ entry ∈ unsearched iface.advPrefixList, entry.Valid) := by
  have documented : Documented iface ↔
      DocumentedSettings iface ∧ ∀ entry ∈ iface.advPrefixList, entry.Valid :=
    ⟨fun both => ⟨both.settings, both.prefixes⟩, fun both => ⟨both.1, both.2⟩⟩
  rw [checkIface_eq_ok_iff known, documented, Interface.checkedPrefixes]
  rcases on : iface.mobileFlags with _ | _
  · have parts : (∀ entry ∈ iface.advPrefixList, entry.Valid) ↔
        (∀ entry ∈ searched iface.advPrefixList, entry.Valid) ∧
          ∀ entry ∈ unsearched iface.advPrefixList, entry.Valid := by
      rw [← List.forall_mem_append, searched_append]
    rw [parts, findRouterAddr_false_snd]
    simp only [Bool.false_eq_true, false_or]
    tauto
  · rw [findRouterAddr_true]
    simp

end

/-- A prefix that the parser would not accept. -/
def overlongPrefix : AdvPrefix :=
  { prefixInitDefaults with prefixLen := 129 }

theorem accepts_iff_documented_ethernet :
    (∃ filled, checkIface .ethernet decrementing = .ok (filled, 0)) ↔ Documented decrementing :=
  (accepts_iff_documented_iff (by decide)).mpr (.inr (.inl (by with_unfolding_all decide)))

/-- It is accepted where there is no prefix with `AdvRouterAddr`. -/
theorem accepts_overlongPrefix :
    ¬((∃ filled, checkIface .ethernet { ifaceInitDefaults with advPrefixList := [overlongPrefix] } =
        .ok (filled, 0)) ↔
      Documented { ifaceInitDefaults with advPrefixList := [overlongPrefix] }) := by
  intro same
  have accepted : (checkIface .ethernet
      { ifaceInitDefaults with advPrefixList := [overlongPrefix] }).toOption.map Prod.snd =
        some 0 := by with_unfolding_all decide
  rcases done : checkIface .ethernet
      { ifaceInitDefaults with advPrefixList := [overlongPrefix] } with exit | ⟨filled, ret⟩
  · rw [done] at accepted
    cases accepted
  rw [done] at accepted
  simp only [Except.toOption, Option.map_some, Option.some_inj] at accepted
  subst accepted
  have documented := same.mp ⟨filled, done⟩
  have short := (documented.prefixes overlongPrefix (List.mem_singleton_self _)).1
  revert short
  decide

/-! ## The defaults -/

/-- They are accepted, and what is filled in respects the limits. -/
structure DefaultsAccepted (env : SetupEnv) (max : ℚ) : Prop where
  accepts : checkIface env (intervalDefaults max) = .ok (fillDefaults (intervalDefaults max), 0)
  min_le : (fillDefaults (intervalDefaults max)).minRtrAdvInterval ≤ 3 / 4 * max
  le_lifetime : max ≤ (fillDefaults (intervalDefaults max)).raHeaderInfo.advDefaultLifetime
  lifetime_le : (fillDefaults (intervalDefaults max)).raHeaderInfo.advDefaultLifetime ≤ 65535

theorem not_mobile_intervalDefaults (max : ℚ) : ¬(intervalDefaults max).Mobile := by
  rintro (flags | ⟨entry, member, -⟩)
  · cases flags
  · cases member

theorem minRtrAdvInterval_intervalDefaults (max : ℚ) :
    (fillDefaults (intervalDefaults max)).minRtrAdvInterval = 33 / 100 * max := by
  have unset : (intervalDefaults max).minRtrAdvInterval < 0 := by
    change (-1 : ℚ) < 0
    norm_num
  unfold fillDefaults
  rw [if_pos unset]
  dsimp only
  split_ifs <;> rfl

theorem advDefaultLifetime_intervalDefaults {max : ℚ} (large : 4 ≤ max) :
    (fillDefaults (intervalDefaults max)).raHeaderInfo.advDefaultLifetime = ⌊3 * max⌋ := by
  have positive : 1 ≤ ⌊3 * max⌋ := by
    apply Int.le_floor.mpr
    push_cast
    linarith
  have unset : (intervalDefaults max).raHeaderInfo.advDefaultLifetime < 0 := by
    change (-1 : Int) < 0
    decide
  rw [advDefaultLifetime_fillDefaults, if_pos unset]
  exact max_eq_right positive

theorem documentedSettings_intervalDefaults_iff {max : ℚ} (large : 4 ≤ max) (small : max ≤ 65535) :
    DocumentedSettings (intervalDefaults max) ↔
      3 ≤ 33 / 100 * max ∧ ⌊3 * max⌋ ≤ 65535 := by
  have lifetime := advDefaultLifetime_intervalDefaults large
  have min := minRtrAdvInterval_intervalDefaults max
  have usual := not_mobile_intervalDefaults max
  constructor
  · intro settings
    have least := settings.min_ge.2 usual
    rw [min] at least
    refine ⟨least, ?_⟩
    rcases settings.lifetime with zero | bounds
    · rw [lifetime] at zero
      omega
    · rw [lifetime] at bounds
      exact_mod_cast bounds.2
  · rintro ⟨least, upper⟩
    have lower : max ≤ ⌊3 * max⌋ := by
      have below := Int.sub_one_lt_floor (3 * max)
      linarith
    constructor
    · rw [min]
      exact ⟨fun mobile => absurd mobile usual, fun _ => least⟩
    · rw [min]
      change 33 / 100 * max ≤ 3 / 4 * max
      linarith
    · exact ⟨fun mobile => absurd mobile usual, fun _ => large⟩
    · exact small
    · exact ⟨fun mobile => absurd mobile usual, fun _ => le_rfl⟩
    · exact .inl rfl
    · change (0 : UInt32) ≤ 3600000
      decide
    · rw [lifetime]
      refine .inr ⟨max_le (by linarith) lower, ?_⟩
      exact_mod_cast upper
    · exact fun on => (by cases on)
    · exact fun on => (by cases on)
    · exact fun on => (by cases on)
    · exact fun _ member => absurd member List.not_mem_nil

/-- The defaults are accepted for the intervals that leave three seconds for a
third of them, and 65535 for their triple. -/
theorem defaults_accepted_iff {env : SetupEnv} {max : ℚ} (known : env.ifaceForwarding ≠ .garbage)
    (large : 4 ≤ max) (small : max ≤ 65535) :
    DefaultsAccepted env max ↔ 100 / 11 ≤ max ∧ max < 65536 / 3 := by
  have documented := documentedSettings_intervalDefaults_iff large small
  have lifetime := advDefaultLifetime_intervalDefaults large
  have bounds : 3 ≤ 33 / 100 * max ∧ ⌊3 * max⌋ ≤ 65535 ↔ 100 / 11 ≤ max ∧ max < 65536 / 3 := by
    have floor : ⌊3 * max⌋ ≤ 65535 ↔ max < 65536 / 3 := by
      rw [← Int.lt_add_one_iff, Int.floor_lt]
      push_cast
      constructor <;> intro bound <;> linarith
    rw [floor]
    constructor
    · rintro ⟨lower, upper⟩
      exact ⟨by linarith, upper⟩
    · rintro ⟨lower, upper⟩
      exact ⟨by linarith, upper⟩
  rw [← bounds, ← documented]
  constructor
  · intro accepted
    exact ((checkIface_eq_ok_iff known).mp ⟨_, accepted.accepts⟩).1
  · intro settings
    rcases (checkIface_eq_ok_iff known).mpr ⟨settings, fun _ member => absurd member List.not_mem_nil⟩
      with ⟨filled, done⟩
    have upper := (documented.mp settings).2
    refine ⟨?_, settings.min_le, ?_, by rw [lifetime]; exact upper⟩
    · rw [done, checkIface_eq done]
    · have below := Int.sub_one_lt_floor (3 * max)
      rw [lifetime]
      linarith

theorem defaults_accepted_600 : DefaultsAccepted .ethernet 600 :=
  (defaults_accepted_iff (by decide) (by norm_num) (by norm_num)).mpr ⟨by norm_num, by norm_num⟩

/-- At the least interval that is documented the default for the other is too
small. -/
theorem not_defaults_accepted_four : ¬DefaultsAccepted .ethernet 4 := by
  intro accepted
  have refused : (checkIface .ethernet (intervalDefaults 4)).toOption.map Prod.snd = some (-1) := by
    with_unfolding_all decide
  rw [accepted.accepts] at refused
  cases refused

end Radvd
