import Mathlib.Data.List.Forall2
import Radvd.Receive

/-!
# The daemon as a transition system

The daemon reacts to its start, to expired timers, to received packets, to
netlink messages and to the signal that ends it. A step is one such event with
the answers the system gives while it is handled (`Daemon.step`); a step of a
run is one that does not end the program.
-/

namespace Radvd

open Wire Runs

/-! ## Netlink messages -/

inductive NetlinkType where
  | newlink
  | setlink
  | dellink
  | newaddr
  | deladdr
  | done
  | error
  | other
  deriving DecidableEq, Repr

/-- A message with the answers of the system while it is handled: what
`if_indextoname` and `getifaddrs` return, and the clock. -/
structure NetlinkMsg where
  type : NetlinkType
  index : Nat
  ifname : Option Bytes
  system : SetupEnv
  now : Timespec

def findIfaceByName (ifaces : List Interface) (name : Option Bytes) : Option (Nat × Interface) :=
  match name with
  | none => none
  | some name => findIface ifaces fun iface => iface.props.name = name

/-- The interface that a link or address message is about. -/
def netlinkIface (ifaces : List Interface) (msg : NetlinkMsg) : Option (Nat × Interface) :=
  match msg.type with
  | .newlink => findIfaceByName ifaces msg.ifname
  | _ => findIfaceByIndex ifaces msg.index

theorem getElem?_of_netlinkIface {ifaces : List Interface} {msg : NetlinkMsg} {position : Nat}
    {iface : Interface} (found : netlinkIface ifaces msg = some (position, iface)) :
    ifaces[position]? = some iface := by
  unfold netlinkIface at found
  split at found
  · unfold findIfaceByName at found
    split at found
    · cases found
    · exact (findIface_spec found).1
  · exact (findIface_spec found).1

/-- Whether the addresses of an interface differ from those it was set up with. -/
def addrsDiffer (system : SetupEnv) (iface : Interface) : Bool :=
  let (_, ifAddrs, count) := getIfaceAddrs system iface.props.name iface.props.ifAddr
  count ≠ iface.props.addrsCount || ifAddrs.take count.toNat ≠ iface.props.ifAddrs.take count.toNat

/-- What a message does to the interface it is about. `cleanup_iface` changes
nothing but the groups of the socket. -/
def netlinkTouch (msg : NetlinkMsg) (iface : Interface) : Interface :=
  match msg.type with
  | .newlink | .setlink => touchIface msg.now iface
  | .newaddr | .deladdr =>
      if addrsDiffer msg.system iface then touchIface msg.now iface else iface
  | .dellink | .done | .error | .other => iface

def netlinkUpdate (ifaces : List Interface) (msg : NetlinkMsg) : List Interface :=
  match netlinkIface ifaces msg with
  | none => ifaces
  | some (position, iface) => ifaces.set position (netlinkTouch msg iface)

/-- `process_netlink_msg`; at an error message the program aborts. -/
def processNetlinkMsg (ifaces : List Interface) : List NetlinkMsg → List Interface × Bool
  | [] => (ifaces, false)
  | msg :: rest =>
      match msg.type with
      | .done => (ifaces, false)
      | .error => (ifaces, true)
      | _ => processNetlinkMsg (netlinkUpdate ifaces msg) rest

/-! ## Steps -/

inductive DaemonEvent where
  /-- `setup_iface_foo` for the interface at this position. -/
  | start (position : Nat) (setup : SetupEnv) (kickoff : KickoffEnv)
  | timer (position : Nat) (env : TimerEnv)
  | receive (packet : Packet) (env : ProcessEnv)
  | netlink (msgs : List NetlinkMsg)
  | stop (envs : Nat → StopEnv)

def Daemon.onIface (daemon : Daemon) (position : Nat)
    (handle : Bool → Interface → ForallOutcome) : DaemonOutcome :=
  match daemon.ifaces[position]? with
  | none => .unchanged daemon
  | some iface => daemon.settle position (handle daemon.warned iface)

def Daemon.step (daemon : Daemon) : DaemonEvent → DaemonOutcome
  | .start position setup kickoff => daemon.onIface position (setupIfaceFoo setup kickoff)
  | .timer position env => daemon.onIface position (timerHandler env)
  | .receive packet env => (process env packet daemon).value
  | .netlink msgs =>
      let (ifaces, aborts) := processNetlinkMsg daemon.ifaces msgs
      ⟨⟨ifaces, daemon.warned⟩, [], if aborts then some .processNetlinkMsg else none⟩
  | .stop envs => stopAdverts envs daemon

/-- A step after which the program still runs. -/
def Daemon.Step (daemon : Daemon) (event : DaemonEvent) (next : Daemon) : Prop :=
  (daemon.step event).exit = none ∧ (daemon.step event).daemon = next

/-! ## What a step relates -/

/-- The handlers of an event relate an interface before them to the same
interface after them. -/
def DaemonEvent.Relates (daemon : Daemon) (relation : Interface → Interface → Prop) :
    DaemonEvent → Prop
  | .start position setup kickoff => ∀ iface, daemon.ifaces[position]? = some iface →
      relation iface (setupIfaceFoo setup kickoff daemon.warned iface).iface
  | .timer position env => ∀ iface, daemon.ifaces[position]? = some iface →
      relation iface (timerHandler env daemon.warned iface).iface
  | .receive packet env => packet.Accepted → ∀ position iface,
      findIfaceByIndex daemon.ifaces packet.ifindex = some (position, iface) →
      relation iface (processOn env packet daemon.warned iface).value.iface
  | .netlink msgs => ∀ msg ∈ msgs, ∀ iface, relation iface (netlinkTouch msg iface)
  | .stop envs => ∀ iface ∈ daemon.ifaces, ∀ position warned,
      relation iface (stopAdvertFoo (envs position) warned iface).iface

section

variable {relation : Interface → Interface → Prop} (refl : ∀ iface, relation iface iface)
include refl

theorem forall₂_set {ifaces : List Interface} {position : Nat} {iface after : Interface}
    (found : ifaces[position]? = some iface) (related : relation iface after) :
    List.Forall₂ relation ifaces (ifaces.set position after) := by
  induction ifaces generalizing position with
  | nil => cases found
  | cons first rest ih =>
      have others : List.Forall₂ relation rest rest :=
        List.forall₂_same.mpr fun other _ => refl other
      cases position with
      | zero =>
          cases found
          exact .cons related others
      | succ position => exact .cons (refl first) (ih found)

theorem forall₂_onIface {daemon : Daemon} {position : Nat}
    {handle : Bool → Interface → ForallOutcome}
    (related : ∀ iface, daemon.ifaces[position]? = some iface →
      relation iface (handle daemon.warned iface).iface) :
    List.Forall₂ relation daemon.ifaces (daemon.onIface position handle).daemon.ifaces := by
  unfold Daemon.onIface
  split
  · exact List.forall₂_same.mpr fun iface _ => refl iface
  · rename_i iface found
    exact forall₂_set refl found (related iface found)

theorem forall₂_stopAdvertsFrom {envs : Nat → StopEnv} {ifaces : List Interface}
    (related : ∀ iface ∈ ifaces, ∀ position warned,
      relation iface (stopAdvertFoo (envs position) warned iface).iface)
    (position : Nat) (warned : Bool) :
    List.Forall₂ relation ifaces
      (stopAdvertsFrom envs position warned ifaces).daemon.ifaces := by
  induction ifaces generalizing position warned with
  | nil => exact .nil
  | cons iface rest ih =>
      simp only [List.mem_cons, forall_eq_or_imp] at related
      unfold stopAdvertsFrom
      dsimp only
      split
      · exact .cons (related.1 position warned) (List.forall₂_same.mpr fun other _ => refl other)
      · exact .cons (related.1 position warned) (ih related.2 _ _)

variable (trans : ∀ first second third,
  relation first second → relation second third → relation first third)
include trans

theorem forall₂_processNetlinkMsg {ifaces : List Interface} {msgs : List NetlinkMsg}
    (related : ∀ msg ∈ msgs, ∀ iface, relation iface (netlinkTouch msg iface)) :
    List.Forall₂ relation ifaces (processNetlinkMsg ifaces msgs).1 := by
  have same : ∀ ifaces : List Interface, List.Forall₂ relation ifaces ifaces :=
    fun ifaces => List.forall₂_same.mpr fun iface _ => refl iface
  have chain : ∀ first second third : List Interface, List.Forall₂ relation first second →
      List.Forall₂ relation second third → List.Forall₂ relation first third := by
    intro first second third one
    induction one generalizing third with
    | nil => exact id
    | cons related _ ih =>
        rintro (_ | ⟨next, others⟩)
        exact .cons (trans _ _ _ related next) (ih _ others)
  induction msgs generalizing ifaces with
  | nil => exact same ifaces
  | cons msg rest ih =>
      simp only [List.mem_cons, forall_eq_or_imp] at related
      have updated : List.Forall₂ relation ifaces (netlinkUpdate ifaces msg) := by
        unfold netlinkUpdate
        split
        · exact same ifaces
        · rename_i found
          exact forall₂_set refl (getElem?_of_netlinkIface found) (related.1 _)
      unfold processNetlinkMsg
      split
      · exact same ifaces
      · exact same ifaces
      · exact chain _ _ _ updated (ih related.2)

/-- What the handlers of an event relate holds of all interfaces across a step. -/
theorem forall₂_step {daemon : Daemon} {event : DaemonEvent}
    (related : event.Relates daemon relation) :
    List.Forall₂ relation daemon.ifaces (daemon.step event).daemon.ifaces := by
  have same : List.Forall₂ relation daemon.ifaces daemon.ifaces :=
    List.forall₂_same.mpr fun iface _ => refl iface
  cases event with
  | start position setup kickoff => exact forall₂_onIface refl related
  | timer position env => exact forall₂_onIface refl related
  | receive packet env =>
      simp only [Daemon.step, value_process]
      split
      · rename_i accepted
        split
        · exact same
        · rename_i position iface found
          exact forall₂_set refl (findIface_spec found).1 (related accepted position iface found)
      · exact same
  | netlink msgs => exact forall₂_processNetlinkMsg refl trans related
  | stop envs => exact forall₂_stopAdvertsFrom refl related 0 daemon.warned

end

/-- A property of interfaces that every handler keeps holds of all interfaces
after a step. -/
theorem forall_step {property : Interface → Prop} {daemon : Daemon} {event : DaemonEvent}
    (kept : event.Relates daemon fun before after => property before → property after)
    (holds : ∀ iface ∈ daemon.ifaces, property iface) :
    ∀ iface ∈ (daemon.step event).daemon.ifaces, property iface := by
  have related : List.Forall₂ (fun before after => property before → property after)
      daemon.ifaces (daemon.step event).daemon.ifaces := by
    apply forall₂_step _ _ kept
    · exact fun iface => id
    · exact fun first second third one two => two ∘ one
  generalize (daemon.step event).daemon.ifaces = after at related
  generalize daemon.ifaces = before at related holds
  induction related with
  | nil => simp
  | cons keeps _ ih =>
      simp only [List.mem_cons, forall_eq_or_imp] at holds ⊢
      exact ⟨keeps holds.1, ih holds.2⟩

end Radvd
