import Radvd.Forwarding

/-!
# The life of a prefix with `DecrementLifetimes`

The functions that read or write the lifetimes of a prefix and the reference time
`last_ra_time` live in four files. Seen from a prefix they form a small
transition system: a configuration is loaded, the interface is kicked off, RAs
are sent, lifetimes are reset by `SIGUSR1`, and anything else leaves both alone.

`sendRaForall_run` and `setupIfaceFoo_run` say that the functions of the daemon
are runs of this system.
-/

namespace Radvd

open Wire Runs

/-- An interface, the static variable, when its lifetimes were last initialised,
and the time. -/
structure AgeState where
  iface : Interface
  warned : Bool
  init : Timespec
  clock : Timespec

inductive AgeEvent where
  /-- The configuration is read, with the interface as the parser leaves it. -/
  | load (now : Timespec) (iface : Interface)
  | kickoff (now : Timespec)
  | sendRa (env : SendEnv) (dest : Option In6Addr)
  | reset (now : Timespec)
  /-- Anything that changes neither lifetimes nor the reference time. -/
  | other (iface : Interface)

/-- The parser has initialised the lifetimes, and there is no reference time. -/
structure Interface.Fresh (iface : Interface) : Prop where
  lastRaTime_eq : iface.times.lastRaTime = ⟨0, 0⟩
  lifetimes_eq : ∀ entry ∈ iface.advPrefixList,
    entry.currValidlft = entry.advValidLifetime ∧
      entry.currPreferredlft = entry.advPreferredLifetime

def Interface.setLastRaTime (iface : Interface) (now : Timespec) : Interface :=
  { iface with times := { iface.times with lastRaTime := now } }

inductive AgeStep : AgeState → AgeEvent → AgeState → Prop where
  | load {state : AgeState} {now : Timespec} {iface : Interface} (valid : now.Valid)
      (later : state.clock.Before now) (fresh : iface.Fresh) :
      AgeStep state (.load now iface) ⟨iface, state.warned, now, now⟩
  | kickoff {state : AgeState} {now : Timespec} (valid : now.Valid)
      (later : state.clock.Before now) :
      AgeStep state (.kickoff now)
        { state with iface := state.iface.setLastRaTime now, clock := now }
  | sendRa {state : AgeState} {env : SendEnv} {dest : Option In6Addr} (valid : env.now.Valid)
      (later : state.clock.Before env.now)
      (survives : ∀ exit, (sendRa env state.warned state.iface dest).status ≠ .exited exit) :
      AgeStep state (.sendRa env dest)
        { state with
          iface := (sendRa env state.warned state.iface dest).iface
          warned := (sendRa env state.warned state.iface dest).warned
          clock := env.now }
  | reset {state : AgeState} {now : Timespec} (valid : now.Valid)
      (later : state.clock.Before now) :
      AgeStep state (.reset now)
        { state with iface := resetPrefixLifetimes state.iface, init := now, clock := now }
  | other {state : AgeState} {iface : Interface}
      (prefixes : iface.advPrefixList = state.iface.advPrefixList)
      (lastRaTime : iface.times.lastRaTime = state.iface.times.lastRaTime) :
      AgeStep state (.other iface) { state with iface := iface }

/-! ## The functions of the daemon are runs -/

theorem iface_sendRa (env : SendEnv) (warned : Bool) (iface : Interface)
    (dest : Option In6Addr) :
    (sendRa env warned iface dest).iface =
      if iface.advSendAdvert then agedIface env iface dest else iface := by
  rw [sendRa]
  by_cases advertises : iface.advSendAdvert = true
  · simp only [advertises, Bool.not_true, Bool.false_eq_true, if_false, if_true]
    split <;> rfl
  · simp [advertises]

/-- The readings of the clock in the first `count` calls of `send_ra` are in
order from `time` on. -/
def Ordered (envs : Nat → SendEnv) (time : Timespec) (index : Nat) : Nat → Prop
  | 0 => True
  | count + 1 =>
      (envs index).now.Valid ∧ time.Before (envs index).now ∧
        Ordered envs (envs index).now (index + 1) count

theorem sendRas_run {envs : Nat → SendEnv} {index : Nat} {state : AgeState}
    {dests : List (Option In6Addr)} (ordered : Ordered envs state.clock index dests.length)
    (survives : (sendRas envs index state.warned state.iface dests).exit = none) :
    ∃ events last, Run AgeStep state events last ∧ last.init = state.init ∧
      last.iface = (sendRas envs index state.warned state.iface dests).iface := by
  induction dests generalizing index state with
  | nil => exact ⟨[], state, .nil state, rfl, rfl⟩
  | cons dest rest ih =>
      rcases ordered with ⟨valid, later, ordered⟩
      rw [sendRas] at survives ⊢
      dsimp only at survives ⊢
      split at survives
      · simp at survives
      rename_i notExited
      have alive : ∀ exit, (sendRa (envs index) state.warned state.iface dest).status ≠
          .exited exit := fun exit exited => notExited exit exited
      have first := AgeStep.sendRa valid later alive
      rcases @ih (index + 1) { state with
          iface := (sendRa (envs index) state.warned state.iface dest).iface
          warned := (sendRa (envs index) state.warned state.iface dest).warned
          clock := (envs index).now } ordered survives with ⟨events, last, run, initEq, lastEq⟩
      exact ⟨_, last, .cons first run, initEq, lastEq⟩

theorem frame_countRa (iface : Interface) (dest : Option In6Addr) :
    Frame iface (countRa iface dest) := by
  simp only [countRa]
  split <;> exact ⟨rfl, rfl, rfl⟩

theorem frame_ensureIfaceSetup {setup : SetupEnv} {iface iface' : Interface}
    (done : ensureIfaceSetup setup iface = .ok iface') : Frame iface iface' := by
  rw [ensureIfaceSetup] at done
  split at done
  · rcases result : setupIface setup iface with exit | ⟨after, ret⟩
    · rw [result] at done
      cases done
    · rw [result] at done
      cases done
      exact frame_setupIface result
  · cases done
    exact Frame.refl _

theorem AgeStep.ofFrame {state : AgeState} {iface : Interface} (frame : Frame state.iface iface) :
    AgeStep state (.other iface) { state with iface := iface } :=
  .other frame.prefixes_eq (by rw [frame.times_eq])

theorem sendRaForall_run {setup : SetupEnv} {envs : Nat → SendEnv} {state : AgeState}
    {dest : Option In6Addr} (ordered : ∀ count, Ordered envs state.clock 0 count)
    (survives : (sendRaForall setup envs state.warned state.iface dest).exit = none) :
    ∃ events last, Run AgeStep state events last ∧ last.init = state.init ∧
      last.iface = (sendRaForall setup envs state.warned state.iface dest).iface := by
  rw [sendRaForall] at survives ⊢
  rcases ensured : ensureIfaceSetup setup state.iface with exit | iface
  · simp [ensured] at survives
  simp only [ensured] at survives ⊢
  have framed := frame_ensureIfaceSetup ensured
  by_cases ready : iface.stateInfo.ready = true
  · simp only [ready, Bool.not_true, Bool.false_eq_true, if_false] at survives ⊢
    have first := AgeStep.ofFrame (framed.trans (frame_countRa iface dest))
    rcases @sendRas_run envs 0 { state with iface := countRa iface dest } _ (ordered _)
      survives with ⟨events, last, run, initEq, lastEq⟩
    exact ⟨_, last, .cons first run, initEq, lastEq⟩
  · simp only [ready, Bool.not_false, if_true]
    exact ⟨_, _, .cons (AgeStep.ofFrame framed) (.nil _), rfl, rfl⟩

/-- `kickoff_adverts` is a run that starts by setting the reference time. -/
theorem kickoffAdverts_run {env : KickoffEnv} {state : AgeState} (valid : env.now.Valid)
    (later : state.clock.Before env.now) (ordered : ∀ count, Ordered env.envs env.now 0 count)
    (survives : (kickoffAdverts env state.warned state.iface).exit = none) :
    ∃ events last, Run AgeStep state (.kickoff env.now :: events) last ∧
      last.init = state.init ∧
      last.iface = (kickoffAdverts env state.warned state.iface).iface := by
  have kickoff := AgeStep.kickoff valid later
  rw [kickoffAdverts] at survives ⊢
  dsimp only at survives ⊢
  by_cases unicastOnly : state.iface.unicastOnly = true
  · rw [if_pos unicastOnly]
    exact ⟨[], _, .cons kickoff (.nil _), rfl, rfl⟩
  rw [if_neg unicastOnly] at survives ⊢
  set kicked : Interface :=
    { state.iface with
      times := { state.iface.times with lastRaTime := env.now, lastMulticast := env.multicastTime } }
  have noted : AgeStep { state with iface := state.iface.setLastRaTime env.now, clock := env.now }
      (.other kicked) { state with iface := kicked, clock := env.now } := .other rfl rfl
  rcases exited : (sendRaForall env.setup env.envs state.warned kicked none).exit with _ | exit
  · dsimp only
    rcases @sendRaForall_run env.setup env.envs { state with iface := kicked, clock := env.now }
      none ordered exited with ⟨events, last, run, initEq, lastEq⟩
    have scheduled : AgeStep last (.other (rescheduleIface env.rescheduleTime last.iface
        (min maxInitialRtrAdvertInterval last.iface.maxRtrAdvInterval))) _ := .other rfl rfl
    refine ⟨_, _, .cons kickoff (.cons noted (run.append (.cons scheduled (.nil _)))), initEq, ?_⟩
    simp only [lastEq]
  · rw [exited] at survives
    rw [survives] at exited
    cases exited

theorem setupIfaceFoo_run {setup : SetupEnv} {env : KickoffEnv} {state : AgeState}
    (valid : env.now.Valid) (later : state.clock.Before env.now)
    (ordered : ∀ count, Ordered env.envs env.now 0 count)
    (survives : (setupIfaceFoo setup env state.warned state.iface).exit = none) :
    ∃ events last, Run AgeStep state events last ∧ last.init = state.init ∧
      last.iface = (setupIfaceFoo setup env state.warned state.iface).iface := by
  rw [setupIfaceFoo] at survives ⊢
  rcases result : setupIface setup state.iface with exit | ⟨iface, ret⟩
  · simp [result] at survives
  have first := AgeStep.ofFrame (frame_setupIface result)
  simp only [result] at survives ⊢
  split
  · split
    · exact ⟨_, _, .cons first (.nil _), rfl, rfl⟩
    · simp_all
  · rename_i succeeded
    simp only [succeeded, if_false] at survives
    rcases @kickoffAdverts_run env { state with iface := iface } valid later ordered survives with
      ⟨events, last, run, initEq, lastEq⟩
    exact ⟨_, last, .cons first run, initEq, lastEq⟩

/-! ## Runs of an interface whose RAs do not fail -/

/-- The RAs of the interface can be sent, and no prefix is deprecated. -/
structure Sendable (iface : Interface) : Prop where
  advertises : iface.advSendAdvert = true
  parsed : iface.Parsed
  fits : iface.DnsslFits
  small : iface.props.maxRaOptionSize.toNat ≤ 64 * 1024
  keeps : ∀ entry ∈ iface.advPrefixList, entry.deprecatePrefixFlag = false

def routerEnv (now : Timespec) : SendEnv :=
  { hostEnv with multicastTime := now, now := now, forwarding := .value 1 }

theorem Sendable.agedIface {iface : Interface} (sendable : Sendable iface) (env : SendEnv)
    (dest : Option In6Addr) : Sendable (agedIface env iface dest) where
  advertises := by cases dest <;> exact sendable.advertises
  parsed := parsed_agedIface sendable.parsed env dest
  fits := by cases dest <;> exact sendable.fits
  small := by cases dest <;> exact sendable.small
  keeps := by
    have kept : ∀ entry ∈ iface.advPrefixList, ∀ ceaseAdv secs,
        (ageEntry ceaseAdv secs entry).deprecatePrefixFlag = false := by
      intro entry mem ceaseAdv secs
      simp only [ageEntry]
      split <;> exact sendable.keeps entry mem
    cases dest <;> exact List.forall_mem_map.mpr fun entry mem => kept entry mem _ _

theorem Sendable.reset {iface : Interface} (sendable : Sendable iface) :
    Sendable (resetPrefixLifetimes iface) where
  advertises := sendable.advertises
  parsed := ⟨sendable.parsed.route_prefixLen, sendable.parsed.dnssl_parsed,
    sendable.parsed.hwaddr_le, sendable.parsed.capport_length⟩
  fits := sendable.fits
  small := sendable.small
  keeps := by
    refine List.forall_mem_map.mpr fun entry mem => ?_
    simp only [resetEntry]
    split <;> exact sendable.keeps entry mem

theorem Sendable.sendRa {state : AgeState} (sendable : Sendable state.iface) {now : Timespec}
    (dest : Option In6Addr) (valid : now.Valid) (later : state.clock.Before now) :
    AgeStep state (.sendRa (routerEnv now) dest)
      { state with iface := Radvd.agedIface (routerEnv now) state.iface dest, clock := now } := by
  have read : checkIp6Forwarding (routerEnv now).forwarding state.warned =
      .ok (false, state.warned) := by
    cases state.warned <;> rfl
  have transmits := sendRa_transmits dest sendable.advertises sendable.parsed sendable.fits
    sendable.small read (fun _ => rfl)
  have survives : ∀ exit,
      (Radvd.sendRa (routerEnv now) state.warned state.iface dest).status ≠ .exited exit := by
    intro exit exited
    rw [transmits.1] at exited
    cases exited
  have step := AgeStep.sendRa valid later survives
  rw [iface_sendRa, if_pos sendable.advertises, warned_sendRa survives] at step
  have quiet : raFindsDisabled (routerEnv now) state.iface = false := by
    simp [raFindsDisabled, ForwardingRead.isDisabled, routerEnv]
  rw [quiet, Bool.or_false] at step
  exact step

theorem Sendable.run {state : AgeState} (sendable : Sendable state.iface)
    (dest : Option In6Addr) {times : List Timespec} (valid : ∀ now ∈ times, now.Valid)
    (ordered : (state.clock :: times).IsChain Timespec.Before) :
    Run (Guarded AgeStep fun state event => Sendable state.iface ∧
        ∃ now, event = .sendRa (routerEnv now) dest) state
      (times.map fun now => .sendRa (routerEnv now) dest)
      { state with
        iface := times.foldl (fun iface now => Radvd.agedIface (routerEnv now) iface dest)
          state.iface
        clock := times.getLastD state.clock } := by
  induction times generalizing state with
  | nil => exact .nil state
  | cons now rest ih =>
      rw [List.isChain_cons_cons] at ordered
      have first := sendable.sendRa dest (valid now (List.mem_cons_self ..)) ordered.1
      have later := @ih { state with
        iface := Radvd.agedIface (routerEnv now) state.iface dest, clock := now }
        (sendable.agedIface _ dest) (fun time mem => valid time (List.mem_cons_of_mem _ mem))
        ordered.2
      rw [List.getLastD_cons]
      exact .cons ⟨⟨sendable, now, rfl⟩, first⟩ later

/-- A router for the documentation prefix, which is delegated for ten seconds, on
the interface `eth0`. -/
def decrementing : Interface :=
  { defaultRouter with
    props := { defaultRouter.props with name := [101, 116, 104, 48] }
    advPrefixList := [{ documentationPrefix with
      advValidLifetime := 10
      advPreferredLifetime := 10
      decrementLifetimesFlag := true
      currValidlft := 10
      currPreferredlft := 10 }] }

theorem sendable_decrementing : Sendable decrementing where
  advertises := rfl
  parsed := ⟨parsed_defaultRouter.route_prefixLen, parsed_defaultRouter.dnssl_parsed,
    parsed_defaultRouter.hwaddr_le, parsed_defaultRouter.capport_length⟩
  fits := dnsslFits_advertising 1
  small := by decide
  keeps := by decide

theorem fresh_decrementing : decrementing.Fresh :=
  ⟨rfl, by decide⟩

theorem Sendable.setLastRaTime {iface : Interface} (sendable : Sendable iface) (now : Timespec) :
    Sendable (iface.setLastRaTime now) :=
  ⟨sendable.advertises, ⟨sendable.parsed.route_prefixLen, sendable.parsed.dnssl_parsed,
    sendable.parsed.hwaddr_le, sendable.parsed.capport_length⟩, sendable.fits, sendable.small,
    sendable.keeps⟩

def kickedOff : AgeState :=
  ⟨decrementing.setLastRaTime ⟨100, 0⟩, false, ⟨90, 0⟩, ⟨100, 0⟩⟩

theorem run_kickedOff : Run AgeStep ⟨decrementing, false, ⟨0, 0⟩, ⟨0, 0⟩⟩
    [.load ⟨90, 0⟩ decrementing, .kickoff ⟨100, 0⟩] kickedOff :=
  .cons (.load (by decide) (by decide) fresh_decrementing)
    (.cons (.kickoff (by decide) (by decide)) (.nil _))

end Radvd
