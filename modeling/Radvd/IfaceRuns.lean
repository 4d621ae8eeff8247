import Radvd.Transmitted

/-!
# The life of an interface

Seen from one interface the daemon is a transition system: it is set up, it sends
RAs, which are counted, its times are set, it is touched, its prefixes are reset,
and it ceases to advertise (`IfaceStep`).

Everything the daemon sends is a message of `send_ra` at the end of a run of this
system (`exists_ifaceRun_of_sent`).
-/

namespace Radvd

open Wire Runs Grammar

inductive IfaceEvent where
  | setUp (env : SetupEnv)
  | sendRa (env : SendEnv) (dest : Option In6Addr)
  | countRa (dest : Option In6Addr)
  | setTimes (times : Times)
  | touch (now : Timespec)
  | cease
  | reset

inductive IfaceStep : Interface → IfaceEvent → Interface → Prop where
  | setUp {iface iface' : Interface} {env : SetupEnv} {ret : Int}
      (done : setupIface env iface = .ok (iface', ret)) : IfaceStep iface (.setUp env) iface'
  | sendRa {iface : Interface} {env : SendEnv} {dest : Option In6Addr}
      (advertises : iface.advSendAdvert = true) :
      IfaceStep iface (.sendRa env dest) (agedIface env iface dest)
  | countRa {iface : Interface} {dest : Option In6Addr} :
      IfaceStep iface (.countRa dest) (countRa iface dest)
  | setTimes {iface : Interface} {times : Times} :
      IfaceStep iface (.setTimes times) { iface with times := times }
  | touch {iface : Interface} {now : Timespec} : IfaceStep iface (.touch now) (touchIface now iface)
  | cease {iface : Interface} :
      IfaceStep iface .cease { iface with stateInfo := { iface.stateInfo with ceaseAdv := true } }
  | reset {iface : Interface} : IfaceStep iface .reset (resetPrefixLifetimes iface)

/-- The answers of the system while RAs are built are allowed, and the interface
only ceases to advertise if there is a shutdown. -/
def IfaceEvent.Within (allowed : SendEnv → Prop) (shutdown : Prop) : IfaceEvent → Prop
  | .sendRa env _ => allowed env
  | .cease => shutdown
  | _ => True

/-- A run of the system leads from one interface to the other. -/
def Becomes (allowed : SendEnv → Prop) (shutdown : Prop) (parsed iface : Interface) : Prop :=
  ∃ events, Run IfaceStep parsed events iface ∧ ∀ event ∈ events, event.Within allowed shutdown

section

variable {allowed : SendEnv → Prop} {shutdown : Prop}

theorem Becomes.step {parsed iface iface' : Interface} {event : IfaceEvent}
    (becomes : Becomes allowed shutdown parsed iface) (step : IfaceStep iface event iface')
    (within : event.Within allowed shutdown) : Becomes allowed shutdown parsed iface' := by
  rcases becomes with ⟨events, run, all⟩
  refine ⟨events ++ [event], run.append (.cons step (.nil _)), ?_⟩
  intro other member
  rcases List.mem_append.mp member with before | last
  · exact all other before
  · rw [List.mem_singleton.mp last]
    exact within

theorem stable_becomes (parsed : Interface) :
    Stable allowed shutdown (Becomes allowed shutdown parsed) where
  setUp := fun done becomes => becomes.step (.setUp done) trivial
  aged := fun _ advertises sane becomes => becomes.step (.sendRa advertises) sane
  counted := fun _ becomes => becomes.step .countRa trivial
  timed := fun _ becomes => becomes.step .setTimes trivial
  touched := fun _ becomes => becomes.step .touch trivial
  ceased := fun stops _ becomes => becomes.step .cease stops
  reset := fun becomes => becomes.step .reset trivial

/-- Whatever the daemon sends in a run from a configuration is sent by an
interface that a run of its own leads to. -/
theorem exists_ifaceRun_of_sent {ifaces : List Interface} {warned : Bool}
    {events : List LifeEvent} {last : Daemon} (run : Run Daemon.Lives ⟨ifaces, warned⟩ events last)
    (within : ∀ event ∈ events, event.Within allowed shutdown) {event : LifeEvent}
    (next : event.Within allowed shutdown) {sent : Sent} (sentMem : sent ∈ (last.live event).sent)
    {message : Bytes} (messageMem : message ∈ sent.messages) :
    SentBy allowed (Configured ifaces (Becomes allowed shutdown) sent.position) message :=
  sentBy_reached (fun parsed _ => stable_becomes parsed)
    (fun _ _ => ⟨[], .nil _, by simp⟩) run within next sent sentMem message messageMem

end

/-- What the steps of a run keep if it is stable. -/
theorem Stable.ifaceRun {allowed : SendEnv → Prop} {shutdown : Prop}
    {property : Interface → Prop} (stable : Stable allowed shutdown property)
    {start iface : Interface} {events : List IfaceEvent} (run : Run IfaceStep start events iface)
    (within : ∀ event ∈ events, event.Within allowed shutdown) (holds : property start) :
    property iface := by
  induction run with
  | nil => exact holds
  | cons first _ ih =>
      rw [List.forall_mem_cons] at within
      apply ih within.2
      cases first with
      | setUp done => exact stable.setUp done holds
      | sendRa advertises => exact stable.aged _ advertises within.1 holds
      | countRa => exact stable.counted _ holds
      | setTimes => exact stable.timed _ holds
      | touch => exact stable.touched _ holds
      | cease => exact stable.ceased within.1 holds
      | reset => exact stable.reset holds

/-- No step changes what the configuration says about the interface. -/
theorem config_of_gives {definition : Ifacedef} {parsed iface : Interface}
    {events : List IfaceEvent} (gives : definition.Gives parsed)
    (run : Run IfaceStep parsed events iface) : iface.config = parsed.config := by
  have within : ∀ event ∈ events, event.Within (fun _ => True) True := by
    intro event _
    cases event <;> trivial
  exact ((stable_derived parsed).ifaceRun run within (derived_of_gives gives)).config_eq

/-! ## Runs that are computed -/

/-- The interface of a configuration before and after it is set up. -/
def prepared (definition : Ifacedef) : Option (Interface × Interface) :=
  (readinConfig definition []).toOption.bind fun ifaces =>
    ifaces.head?.bind fun parsed =>
      (setupIface .ethernet parsed).toOption.map fun done => (parsed, done.1)

theorem exists_prepared {α : Type} {observe : Interface × Interface → α}
    {definition : Ifacedef} {seen : α} (found : (prepared definition).map observe = some seen) :
    ∃ ifaces parsed iface, readinConfig definition [] = .ok ifaces ∧ parsed ∈ ifaces ∧
      IfaceStep parsed (.setUp .ethernet) iface ∧ observe (parsed, iface) = seen := by
  unfold prepared at found
  rcases read : readinConfig definition [] with refusal | ifaces
  · rw [read] at found
    cases found
  rw [read] at found
  simp only [Except.toOption, Option.bind_some] at found
  rcases ifaces with _ | ⟨parsed, rest⟩
  · cases found
  simp only [List.head?_cons, Option.bind_some, Option.map_map, Option.map_eq_some_iff] at found
  rcases found with ⟨⟨iface, ret⟩, done, same⟩
  rcases result : setupIface .ethernet parsed with exit | pair
  · rw [result] at done
    cases done
  · rw [result] at done
    cases done
    exact ⟨_, parsed, iface, rfl, List.mem_cons_self .., .setUp result, same⟩

/-- A configuration whose interface is ready after it is set up. -/
theorem prepared_spec {definition : Ifacedef} {ifaces : List Interface} {parsed iface : Interface}
    (read : readinConfig definition [] = .ok ifaces) (member : parsed ∈ ifaces)
    (step : IfaceStep parsed (.setUp .ethernet) iface) :
    definition.Gives parsed ∧ Derived parsed iface := by
  rcases gives_of_readinConfig read member with ⟨other, listed, gives⟩
  rw [List.mem_singleton.mp listed] at gives
  refine ⟨gives, ?_⟩
  cases step with
  | setUp done =>
      exact (@stable_derived (fun _ => True) True parsed).setUp done (derived_of_gives gives)

end Radvd
