import Radvd.Config
import Radvd.Lifetimes

/-!
# Every call of `send_ra`

A property of an interface that setting it up, ageing its prefixes, counting its
RAs and touching it keep (`Stable`) holds of every interface in every state of a
run, and of the interface that every RA is built from (`upholds_step`).

A run is made of the events of the daemon and of the signal that resets the
lifetimes of prefixes.
-/

namespace Radvd

open Wire Access Runs

/-! ## Stable properties -/

/-- A property that everything that happens to an interface keeps. Ceasing to
advertise only happens if there is a shutdown. -/
structure Stable (allowed : SendEnv → Prop) (shutdown : Prop) (property : Interface → Prop) :
    Prop where
  setUp : ∀ {env iface iface' ret}, setupIface env iface = .ok (iface', ret) →
    property iface → property iface'
  aged : ∀ {env iface} (dest), iface.advSendAdvert = true → allowed env → property iface →
    property (agedIface env iface dest)
  counted : ∀ {iface} (dest), property iface → property (countRa iface dest)
  timed : ∀ {iface} (times : Times), property iface → property { iface with times := times }
  touched : ∀ {iface} (now), property iface → property (touchIface now iface)
  ceased : shutdown → ∀ {iface}, property iface →
    property { iface with stateInfo := { iface.stateInfo with ceaseAdv := true } }
  reset : ∀ {iface}, property iface → property (resetPrefixLifetimes iface)

/-- A message of a call of `send_ra` on an interface that is ready and has the
property. -/
def SentBy (allowed : SendEnv → Prop) (property : Interface → Prop) (message : Bytes) : Prop :=
  ∃ env warned iface dest, allowed env ∧ property iface ∧ iface.stateInfo.ready = true ∧
    message ∈ (sendRa env warned iface dest).sent

/-- The interface has the property, and so had those the messages were built
from. -/
structure Upholds (allowed : SendEnv → Prop) (property : Interface → Prop)
    (outcome : ForallOutcome) : Prop where
  iface : property outcome.iface
  sent : ∀ transmission ∈ outcome.transmissions, ∀ message ∈ transmission.2,
    SentBy allowed property message

section

variable {allowed : SendEnv → Prop} {shutdown : Prop} {property : Interface → Prop}
  {iface : Interface} {warned : Bool} {dest : Option In6Addr}

theorem upholds_quiet (holds : property iface) (exit : Option Exit) :
    Upholds allowed property ⟨iface, warned, [], exit⟩ :=
  ⟨holds, by simp⟩

theorem Upholds.of_iface {outcome : ForallOutcome} (upholds : Upholds allowed property outcome)
    {after : Interface} (holds : property after) :
    Upholds allowed property { outcome with iface := after } :=
  ⟨holds, upholds.sent⟩

theorem Upholds.rescheduled (stable : Stable allowed shutdown property) {outcome : ForallOutcome}
    (upholds : Upholds allowed property outcome) (now : Timespec) (rand : Rand) :
    Upholds allowed property (outcome.rescheduled now rand) := by
  unfold ForallOutcome.rescheduled
  split
  · exact upholds
  · exact upholds.of_iface (stable.timed _ upholds.iface)

theorem Stable.sendRa (stable : Stable allowed shutdown property) {env : SendEnv}
    (sane : allowed env) (holds : property iface) :
    property (sendRa env warned iface dest).iface := by
  rw [iface_sendRa]
  split
  · rename_i advertises
    exact stable.aged dest advertises sane holds
  · exact holds

theorem Stable.sendRas (stable : Stable allowed shutdown property) {envs : Nat → SendEnv}
    (sane : ∀ index, allowed (envs index)) (holds : property iface)
    (ready : iface.stateInfo.ready = true) (index : Nat) (dests : List (Option In6Addr)) :
    Upholds allowed property (sendRas envs index warned iface dests) := by
  induction dests generalizing index warned iface with
  | nil => exact upholds_quiet holds none
  | cons dest rest ih =>
      have here : ∀ message ∈ (Radvd.sendRa (envs index) warned iface dest).sent,
          SentBy allowed property message :=
        fun message sent => ⟨envs index, warned, iface, dest, sane index, holds, ready, sent⟩
      have after := @Stable.sendRa _ _ _ iface warned dest stable _ (sane index) holds
      unfold Radvd.sendRas
      dsimp only
      split
      · exact ⟨after, by simpa using here⟩
      · have later := @ih (Radvd.sendRa (envs index) warned iface dest).iface
          (Radvd.sendRa (envs index) warned iface dest).warned after
          (by rw [stateInfo_sendRa]; exact ready) (index + 1)
        refine ⟨later.iface, ?_⟩
        simp only [List.mem_cons, forall_eq_or_imp]
        exact ⟨here, later.sent⟩

theorem Stable.sendRaForall (stable : Stable allowed shutdown property) (setup : SetupEnv)
    {envs : Nat → SendEnv} (sane : ∀ index, allowed (envs index)) (holds : property iface) :
    Upholds allowed property (sendRaForall setup envs warned iface dest) := by
  unfold Radvd.sendRaForall
  split
  · exact upholds_quiet holds _
  · rename_i ensured done
    have kept : property ensured := by
      unfold ensureIfaceSetup at done
      split at done
      · rcases result : setupIface setup iface with exit | ⟨after, ret⟩
        · rw [result] at done
          cases done
        · rw [result] at done
          cases done
          exact stable.setUp result holds
      · cases done
        exact holds
    split
    · exact upholds_quiet kept none
    · rename_i ready
      apply stable.sendRas sane (stable.counted dest kept)
      unfold countRa
      split <;> simpa using ready

theorem Stable.timerHandler (stable : Stable allowed shutdown property) {env : TimerEnv}
    (sane : ∀ index, allowed (env.envs index)) (holds : property iface) :
    Upholds allowed property (timerHandler env warned iface) :=
  (stable.sendRaForall _ sane holds).rescheduled stable _ _

theorem Stable.kickoffAdverts (stable : Stable allowed shutdown property) {env : KickoffEnv}
    (sane : ∀ index, allowed (env.envs index)) (holds : property iface) :
    Upholds allowed property (kickoffAdverts env warned iface) := by
  unfold Radvd.kickoffAdverts
  dsimp only
  split
  · exact upholds_quiet (stable.timed _ holds) none
  · have sent := @Stable.sendRaForall _ _ _ _ warned none stable env.setup _ sane
      (stable.timed { iface.times with
        lastRaTime := env.now, lastMulticast := env.multicastTime } holds)
    split
    · exact sent
    · exact sent.of_iface (stable.timed _ sent.iface)

theorem Stable.setupIfaceFoo (stable : Stable allowed shutdown property) (setup : SetupEnv)
    {kickoff : KickoffEnv} (sane : ∀ index, allowed (kickoff.envs index))
    (holds : property iface) :
    Upholds allowed property (setupIfaceFoo setup kickoff warned iface) := by
  unfold Radvd.setupIfaceFoo
  split
  · exact upholds_quiet holds _
  · rename_i done
    have kept := stable.setUp done holds
    split_ifs
    · exact upholds_quiet kept _
    · exact upholds_quiet kept _
    · exact stable.kickoffAdverts sane kept

theorem Stable.stopAdvertFoo (stable : Stable allowed shutdown property) (stops : shutdown)
    {env : StopEnv} (sane : ∀ index, allowed (env.envs index)) (holds : property iface) :
    Upholds allowed property (stopAdvertFoo env warned iface) := by
  unfold Radvd.stopAdvertFoo
  split
  · exact stable.sendRaForall _ sane (stable.ceased stops holds)
  · exact upholds_quiet holds none

theorem Stable.answerRs (stable : Stable allowed shutdown property) {env : ProcessEnv}
    (sane : ∀ index, allowed (env.envs index)) (holds : property iface) (addr : In6Addr) :
    Upholds allowed property (answerRs env warned iface addr) := by
  unfold Radvd.answerRs
  dsimp only
  split_ifs
  · exact stable.sendRaForall _ sane holds
  · exact upholds_quiet (stable.timed _ holds) none
  · exact (stable.sendRaForall _ sane holds).rescheduled stable _ _

theorem Stable.processOn (stable : Stable allowed shutdown property) {env : ProcessEnv}
    (sane : ∀ index, allowed (env.envs index)) (holds : property iface) (packet : Packet) :
    Upholds allowed property (processOn env packet warned iface).value := by
  have ready : ∀ iface, property iface →
      Upholds allowed property (processReady env packet warned iface).value := by
    intro iface holds
    rw [value_processReady]
    split
    · exact stable.answerRs sane holds packet.addr
    · exact upholds_quiet holds none
  unfold Radvd.processOn
  split
  · exact ready iface holds
  · split
    · exact upholds_quiet holds _
    · rename_i done
      have kept := stable.setUp done holds
      split
      · exact upholds_quiet kept none
      · exact ready _ kept

theorem Stable.netlinkTouch (stable : Stable allowed shutdown property) (msg : NetlinkMsg)
    (holds : property iface) : property (netlinkTouch msg iface) := by
  unfold Radvd.netlinkTouch
  split
  · exact stable.touched _ holds
  · exact stable.touched _ holds
  · split
    · exact stable.touched _ holds
    · exact holds
  · split
    · exact stable.touched _ holds
    · exact holds
  all_goals exact holds

end

/-! ## The daemon -/

/-- An event of the daemon, or the signal that resets the lifetimes. -/
inductive LifeEvent where
  | handles (event : DaemonEvent)
  | sigusr1

/-- What the daemon does about an event. -/
def Daemon.live (daemon : Daemon) : LifeEvent → DaemonOutcome
  | .handles event => daemon.step event
  | .sigusr1 => ⟨⟨daemon.ifaces.map resetPrefixLifetimes, daemon.warned⟩, [], none⟩

/-- An event after which the program still runs. -/
def Daemon.Lives (daemon : Daemon) (event : LifeEvent) (next : Daemon) : Prop :=
  (daemon.live event).exit = none ∧ (daemon.live event).daemon = next

/-- All answers that the system gives while RAs are built for an event are
allowed, and the event does not end the program unless there is a shutdown. -/
def LifeEvent.Within (allowed : SendEnv → Prop) (shutdown : Prop) : LifeEvent → Prop
  | .handles (.start _ _ kickoff) => ∀ index, allowed (kickoff.envs index)
  | .handles (.timer _ env) => ∀ index, allowed (env.envs index)
  | .handles (.receive _ env) => ∀ index, allowed (env.envs index)
  | .handles (.netlink _) => True
  | .handles (.stop envs) => shutdown ∧ ∀ position index, allowed ((envs position).envs index)
  | .sigusr1 => True

/-- The interface at every position has the property for it. -/
def Daemon.Has (daemon : Daemon) (property : Nat → Interface → Prop) : Prop :=
  ∀ position iface, daemon.ifaces[position]? = some iface → property position iface

section

variable {allowed : SendEnv → Prop} {shutdown : Prop} {property : Nat → Interface → Prop}
  {daemon : Daemon}

theorem getElem?_of_forall₂ {relation : Interface → Interface → Prop}
    {before after : List Interface} (related : List.Forall₂ relation before after)
    {position : Nat} {iface : Interface} (found : after[position]? = some iface) :
    ∃ former, before[position]? = some former ∧ relation former iface := by
  induction related generalizing position with
  | nil => cases found
  | cons here _ ih =>
      cases position with
      | zero =>
          cases found
          exact ⟨_, rfl, here⟩
      | succ position => exact ih found

theorem has_live (stable : ∀ position, Stable allowed shutdown (property position))
    {event : LifeEvent} (within : event.Within allowed shutdown) (has : daemon.Has property) :
    (daemon.live event).daemon.Has property := by
  let keeps (before after : Interface) : Prop := ∀ position, property position before →
    property position after
  have related : List.Forall₂ keeps daemon.ifaces (daemon.live event).daemon.ifaces := by
    cases event with
    | handles event =>
        apply forall₂_step
        · exact fun iface position => id
        · exact fun first second third one two position => two position ∘ one position
        · cases event with
          | start position setup kickoff =>
              intro iface _ place holds
              exact ((stable place).setupIfaceFoo setup within holds).iface
          | timer position env =>
              intro iface _ place holds
              exact ((stable place).timerHandler within holds).iface
          | receive packet env =>
              intro _ _ iface _ place holds
              exact ((stable place).processOn within holds packet).iface
          | netlink msgs =>
              intro msg _ iface place holds
              exact (stable place).netlinkTouch msg holds
          | stop envs =>
              intro iface _ position warned place holds
              exact ((stable place).stopAdvertFoo within.1 (within.2 position) holds).iface
    | sigusr1 =>
        simp only [Daemon.live, List.forall₂_map_right_iff]
        exact List.forall₂_same.mpr fun iface _ place holds => (stable place).reset holds
  intro position iface found
  rcases getElem?_of_forall₂ related found with ⟨former, place, kept⟩
  exact kept position (has position former place)

theorem sentBy_settle {position : Nat} {outcome : ForallOutcome}
    (upholds : Upholds allowed (property position) outcome) :
    ∀ sent ∈ (daemon.settle position outcome).sent, ∀ message ∈ sent.messages,
      SentBy allowed (property sent.position) message := by
  intro sent member
  rcases List.mem_map.mp member with ⟨transmission, listed, rfl⟩
  exact upholds.sent transmission listed

theorem sentBy_onIface {position : Nat} {handle : Bool → Interface → ForallOutcome}
    (upholds : ∀ iface, daemon.ifaces[position]? = some iface →
      Upholds allowed (property position) (handle daemon.warned iface)) :
    ∀ sent ∈ (daemon.onIface position handle).sent, ∀ message ∈ sent.messages,
      SentBy allowed (property sent.position) message := by
  unfold Daemon.onIface
  split
  · exact fun sent member => absurd member List.not_mem_nil
  · rename_i iface found
    exact sentBy_settle (upholds iface found)

theorem sentBy_stopAdvertsFrom {envs : Nat → StopEnv} {ifaces : List Interface} {start : Nat}
    {warned : Bool}
    (upholds : ∀ offset iface, ifaces[offset]? = some iface → ∀ warned,
      Upholds allowed (property (start + offset))
        (stopAdvertFoo (envs (start + offset)) warned iface)) :
    ∀ sent ∈ (stopAdvertsFrom envs start warned ifaces).sent, ∀ message ∈ sent.messages,
      SentBy allowed (property sent.position) message := by
  induction ifaces generalizing start warned with
  | nil => exact fun sent member => absurd member List.not_mem_nil
  | cons iface rest ih =>
      have own := @sentBy_settle allowed property ⟨[], warned⟩ start _ (upholds 0 iface rfl warned)
      have later := fun warned => @ih (start + 1) warned (by
        intro offset iface found warned
        have place : start + 1 + offset = start + (offset + 1) := by omega
        rw [place]
        exact upholds (offset + 1) iface found warned)
      unfold stopAdvertsFrom
      dsimp only
      split
      · exact own
      · intro sent member
        rcases List.mem_append.mp member with here | there
        · exact own sent here
        · exact later _ sent there

/-- Every message is built from an interface with the property. -/
theorem sentBy_live (stable : ∀ position, Stable allowed shutdown (property position))
    {event : LifeEvent} (within : event.Within allowed shutdown) (has : daemon.Has property) :
    ∀ sent ∈ (daemon.live event).sent, ∀ message ∈ sent.messages,
      SentBy allowed (property sent.position) message := by
  cases event with
  | handles event =>
      cases event with
      | start position setup kickoff =>
          apply sentBy_onIface
          intro iface found
          exact (stable position).setupIfaceFoo setup within (has position iface found)
      | timer position env =>
          apply sentBy_onIface
          intro iface found
          exact (stable position).timerHandler within (has position iface found)
      | receive packet env =>
          simp only [Daemon.live, Daemon.step, value_process]
          split
          · split
            · exact fun sent member => absurd member List.not_mem_nil
            · rename_i position iface found
              apply sentBy_settle
              exact (stable position).processOn within
                (has position iface (findIface_spec found).1) packet
          · exact fun sent member => absurd member List.not_mem_nil
      | netlink msgs => exact fun sent member => absurd member List.not_mem_nil
      | stop envs =>
          apply sentBy_stopAdvertsFrom
          intro offset iface found warned
          exact (stable _).stopAdvertFoo within.1 (within.2 _)
            (has _ iface (by rw [Nat.zero_add]; exact found))
  | sigusr1 => exact fun sent member => absurd member List.not_mem_nil

/-- In every run whose events are within bounds the interfaces keep their
properties. -/
theorem has_run (stable : ∀ position, Stable allowed shutdown (property position))
    {last : Daemon} {events : List LifeEvent} (run : Run Daemon.Lives daemon events last)
    (within : ∀ event ∈ events, event.Within allowed shutdown) (has : daemon.Has property) :
    last.Has property := by
  induction run with
  | nil => exact has
  | cons first _ ih =>
      rcases first with ⟨-, rfl⟩
      simp only [List.mem_cons, forall_eq_or_imp] at within
      exact ih within.2 (has_live stable within.1 has)

end

end Radvd
