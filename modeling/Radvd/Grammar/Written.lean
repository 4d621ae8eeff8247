import Radvd.Grammar.Results

/-!
# Statements in effect

Of the statements of a block that write the same setting the last one is in
effect (`setting_of_lastOf`). What it leaves in its place is the written value,
cut to the type of the place (`inEffect_of_ifaceparams` and its siblings for the
definitions of routes, 6LoWPAN contexts and border routers).
-/

namespace Radvd.Grammar

open Wire

/-- The statement is the last one of its kind. -/
def LastOf {τ κ : Type} [DecidableEq κ] (kind : τ → κ) (parms : List τ) (parm : τ) : Prop :=
  (parms.filter (kind · = kind parm)).getLast? = some parm

section

variable {τ κ : Type} [DecidableEq κ] {kind : τ → κ} {parms : List τ} {parm : τ}

theorem exists_split_of_lastOf (effective : LastOf kind parms parm) :
    ∃ before after, parms = before ++ parm :: after ∧ ∀ other ∈ after, kind other ≠ kind parm := by
  induction parms with
  | nil => cases effective
  | cons first rest ih =>
      unfold LastOf at effective ih
      by_cases same : kind first = kind parm
      · rw [List.filter_cons_of_pos (by simpa using same), List.getLast?_cons] at effective
        rcases later : (rest.filter (kind · = kind parm)).getLast? with _ | last
        · rw [later] at effective
          cases effective
          rw [List.getLast?_eq_none_iff, List.filter_eq_nil_iff] at later
          exact ⟨[], rest, rfl, by simpa using later⟩
        · rw [later] at effective
          cases effective
          rcases ih later with ⟨before, after, rfl, others⟩
          exact ⟨first :: before, after, rfl, others⟩
      · rw [List.filter_cons_of_neg (by simpa using same)] at effective
        rcases ih effective with ⟨before, after, rfl, others⟩
        exact ⟨first :: before, after, rfl, others⟩

/-- What the last statement of a kind sets is there at the end if the statements
of other kinds keep it. -/
theorem setting_of_lastOf {σ : Type} {step : σ → τ → Parsing σ} {sets : σ → Prop}
    (others : ∀ state other next, kind other ≠ kind parm → step state other = .ok next →
      sets state → sets next)
    (here : ∀ state next, step state parm = .ok next → sets next)
    {state last : σ} (read : parms.foldlM step state = .ok last)
    (effective : LastOf kind parms parm) : sets last := by
  rcases exists_split_of_lastOf effective with ⟨before, after, rfl, differ⟩
  simp only [List.foldlM_append, List.foldlM_cons, bind_eq_ok] at read
  rcases read with ⟨middle, -, next, set, later⟩
  have initial := here middle next set
  clear set effective
  induction after generalizing next with
  | nil =>
      cases later
      exact initial
  | cons other rest ih =>
      rw [List.forall_mem_cons] at differ
      simp only [List.foldlM_cons, bind_eq_ok] at later
      rcases later with ⟨next', other, later⟩
      exact ih differ.2 next' later (others _ _ _ differ.1 other initial)

end

/-! ## Settings of an interface -/

/-- The scalar option is the one in effect. -/
def InEffect (params : List Ifaceparam) (value : Ifaceval) : Prop :=
  LastOf Ifaceparam.kind params (.ifaceval value)

/-- What the setting in effect does to its place is there at the end. -/
theorem inEffect_of_ifaceparams {start iface : Interface} {params : List Ifaceparam}
    {value : Ifaceval} {sets : Interface → Prop}
    (frame : ∀ before after, cell after value.kind = cell before value.kind →
      sets before → sets after)
    (here : ∀ before after, ifaceval before value = .ok after → sets after)
    (read : ifaceparams start params = .ok iface) (effective : InEffect params value) :
    sets iface := by
  apply setting_of_lastOf _ _ read effective
  · intro before other after differ read holds
    exact frame before after (kept_of_kind read differ.symm) holds
  · exact here

theorem cell_of_ifaceparams {start iface : Interface} {params : List Ifaceparam} {kind : Kind}
    (others : ∀ param ∈ params, param.kind ≠ kind) (read : ifaceparams start params = .ok iface) :
    cell iface kind = cell start kind := by
  induction params generalizing start with
  | nil =>
      cases read
      rfl
  | cons param rest ih =>
      rw [List.forall_mem_cons] at others
      simp only [ifaceparams, List.foldlM_cons, bind_eq_ok] at read
      rcases read with ⟨next, first, later⟩
      rw [ih others.2 later]
      exact kept_of_kind first others.1.symm

/-- What is not there at the start was set by a statement. -/
theorem exists_lastOf_of_changed {start iface : Interface} {params : List Ifaceparam} {kind : Kind}
    (changed : cell iface kind ≠ cell start kind) (read : ifaceparams start params = .ok iface) :
    ∃ param, param.kind = kind ∧ LastOf Ifaceparam.kind params param := by
  rcases last : (params.filter (·.kind = kind)).getLast? with _ | param
  · rw [List.getLast?_eq_none_iff, List.filter_eq_nil_iff] at last
    refine absurd (cell_of_ifaceparams ?_ read) changed
    intro param member same
    exact last param member (decide_eq_true same)
  · have same := (List.mem_filter.mp (List.mem_of_getLast? last)).2
    rw [decide_eq_true_eq] at same
    refine ⟨param, same, ?_⟩
    rw [LastOf, same]
    exact last

/-- The places of an interface hold the values of the settings in effect, cut to
their types. -/
structure Settings (params : List Ifaceparam) (iface : Interface) : Prop where
  hopLimit : ∀ text, InEffect params (.advCurHopLimit text) →
    ∃ value, text.num = some value ∧ iface.raHeaderInfo.advCurHopLimit = value.toUInt8
  lifetime : ∀ text, InEffect params (.advDefaultLifetime text) →
    ∃ value, text.num = some value ∧
      iface.raHeaderInfo.advDefaultLifetime = value.toInt32.toInt
  reachableTime : ∀ text, InEffect params (.advReachableTime text) →
    ∃ value, text.num = some value ∧ iface.raHeaderInfo.advReachableTime = value
  retransTimer : ∀ text, InEffect params (.advRetransTimer text) →
    ∃ value, text.num = some value ∧ iface.raHeaderInfo.advRetransTimer = value
  preference : ∀ text, InEffect params (.advDefaultPreference text) →
    iface.raHeaderInfo.advDefaultPreference = text.snum
  homeAgentPreference : ∀ text, InEffect params (.homeAgentPreference text) →
    ∃ value, text.num = some value ∧ iface.mipv6.homeAgentPreference = value.toUInt16
  homeAgentLifetime : ∀ text, InEffect params (.homeAgentLifetime text) →
    ∃ value, text.num = some value ∧ iface.mipv6.homeAgentLifetime = value.toInt32.toInt
  captivePortal : ∀ text, InEffect params (.advCaptivePortalAPI text) →
    iface.advCaptivePortalAPI = some (trimQuotes text.str)

theorem settings_of_ifaceparams {start iface : Interface} {params : List Ifaceparam}
    (read : ifaceparams start params = .ok iface) : Settings params iface := by
  constructor
  case preference =>
    intro text effective
    apply inEffect_of_ifaceparams (fun before after same => same.trans) _ read effective
    intro before after read
    simp only [ifaceval, pure_eq_ok] at read
    subst read
    rfl
  case captivePortal =>
    intro text effective
    apply inEffect_of_ifaceparams (fun before after same => same.trans) _ read effective
    intro before after read
    simp only [ifaceval, bind_eq_ok, pure_eq_ok] at read
    rcases read with ⟨-, -, rfl⟩
    rfl
  all_goals
    intro text effective
    apply inEffect_of_ifaceparams _ _ read effective
    · rintro before after same ⟨value, scanned, stored⟩
      exact ⟨value, scanned, same.trans stored⟩
    · intro before after read
      simp only [ifaceval, bind_eq_ok, token_eq_ok, pure_eq_ok] at read
      rcases read with ⟨value, scanned, rfl⟩
      exact ⟨value, scanned, rfl⟩

theorem Ifacedef.Gives.settings {definition : Ifacedef} {iface : Interface}
    (gives : definition.Gives iface) : Settings definition.params iface := by
  rcases gives with ⟨others, start, -, params⟩
  exact settings_of_ifaceparams params

/-! ## Settings of a definition -/

theorem preference_of_routedef {iface : Interface} {definition : RouteDef} {route : AdvRoute}
    (read : routedef iface definition = .ok route) {text : SignedText}
    (effective : LastOf RouteParm.ctorIdx definition.parms (.advRoutePreference text)) :
    route.advRoutePreference = text.snum := by
  simp only [routedef, bind_eq_ok] at read
  rcases read with ⟨head, -, parms⟩
  apply setting_of_lastOf _ _ parms effective
  · intro before other after differ read kept
    cases other with
    | advRoutePreference other => exact absurd rfl differ
    | _ =>
        simp only [routeparms, bind_eq_ok, pure_eq_ok] at read
        rcases read with ⟨_, -, rfl⟩
        exact kept
  · intro before after read
    simp only [routeparms, pure_eq_ok] at read
    rw [← read]

/-- What the parser leaves of the settings of a 6LoWPAN context. -/
structure LowpancoSettings (definition : LowpancoDef) (entry : AdvLowpanCo) : Prop where
  contextLength : ∀ text, LastOf LowpancoParm.ctorIdx definition.parms (.advContextLength text) →
    ∃ value, text.num = some value ∧ entry.contextLength = value.toUInt8
  lifeTime : ∀ text, LastOf LowpancoParm.ctorIdx definition.parms (.advLifeTime text) →
    ∃ value, text.num = some value ∧ entry.advLifeTime = value.toUInt16

theorem settings_of_lowpancodef {definition : LowpancoDef} {entry : AdvLowpanCo}
    (read : lowpancodef definition = .ok entry) : LowpancoSettings definition entry := by
  constructor
  all_goals
    intro text effective
    apply setting_of_lastOf _ _ read effective
    · rintro before other after differ read ⟨value, scanned, stored⟩
      refine ⟨value, scanned, Eq.trans ?_ stored⟩
      cases other
      all_goals first
        | exact absurd rfl differ
        | simp only [lowpancoparms, bind_eq_ok, pure_eq_ok] at read
          rcases read with ⟨_, -, rfl⟩
          rfl
    · intro before after read
      simp only [lowpancoparms, bind_eq_ok, token_eq_ok, pure_eq_ok] at read
      rcases read with ⟨value, scanned, rfl⟩
      exact ⟨value, scanned, rfl⟩

/-- What the parser leaves of the settings of a border router. -/
structure AbroSettings (definition : AbroDef) (entry : AdvAbro) : Prop where
  versionLow : ∀ text, LastOf AbroParm.ctorIdx definition.parms (.advVersionLow text) →
    ∃ value, text.num = some value ∧ entry.versionLow = value.toUInt16
  versionHigh : ∀ text, LastOf AbroParm.ctorIdx definition.parms (.advVersionHigh text) →
    ∃ value, text.num = some value ∧ entry.versionHigh = value.toUInt16
  validLifeTime : ∀ text, LastOf AbroParm.ctorIdx definition.parms (.advValidLifetime text) →
    ∃ value, text.num = some value ∧ entry.validLifeTime = value.toUInt16

theorem settings_of_abrodef {definition : AbroDef} {entry : AdvAbro}
    (read : abrodef definition = .ok entry) : AbroSettings definition entry := by
  simp only [abrodef, bind_eq_ok] at read
  rcases read with ⟨head, -, parms⟩
  constructor
  all_goals
    intro text effective
    apply setting_of_lastOf _ _ parms effective
    · rintro before other after differ read ⟨value, scanned, stored⟩
      refine ⟨value, scanned, Eq.trans ?_ stored⟩
      cases other
      all_goals first
        | exact absurd rfl differ
        | simp only [abroparms, bind_eq_ok, pure_eq_ok] at read
          rcases read with ⟨_, -, rfl⟩
          rfl
    · intro before after read
      simp only [abroparms, bind_eq_ok, token_eq_ok, pure_eq_ok] at read
      rcases read with ⟨value, scanned, rfl⟩
      exact ⟨value, scanned, rfl⟩

end Radvd.Grammar
