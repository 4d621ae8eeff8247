import Mathlib.Data.Finset.Erase
import Mathlib.Data.Finset.Insert
import Radvd.Solicited

/-!
# The all-routers group

Which devices the socket has joined the all-routers group on. Setting up an
interface joins the group as its last step; `cleanup_iface` leaves it when a
link is removed, but does not mark the interface as no longer ready
(`unheard_removed`). Where no ready interface has its link removed, every ready
interface hears the solicitations (`heard_run`).
-/

namespace Radvd

open Wire Runs Access

/-! ## Joining and leaving -/

/-- The groups after `setup_iface`, which joins if it comes to its last step. -/
def setupGroups (env : SetupEnv) (iface : Interface) (groups : Finset Nat) : Finset Nat :=
  match setupIface env iface with
  | .ok (after, 0) => insert after.props.ifIndex groups
  | _ => groups

/-- `send_ra_forall` joins where it sets up a changed interface. -/
def sendGroups (setup : SetupEnv) (iface : Interface) (groups : Finset Nat) : Finset Nat :=
  if iface.stateInfo.changed then setupGroups setup iface groups else groups

def answerGroups (env : ProcessEnv) (iface : Interface) (addr : In6Addr) (groups : Finset Nat) :
    Finset Nat :=
  if iface.Defers addr env.now then groups else sendGroups env.sendSetup iface groups

def processGroups (env : ProcessEnv) (packet : Packet) (iface : Interface)
    (groups : Finset Nat) : Finset Nat :=
  if iface.stateInfo.ready then
    if packet.Solicits then answerGroups env iface packet.addr groups else groups
  else
    match setupIface env.setup iface with
    | .ok (after, 0) =>
        if packet.Solicits then
          answerGroups env after packet.addr (insert after.props.ifIndex groups)
        else insert after.props.ifIndex groups
    | _ => groups

/-- `cleanup_iface`, when a link is removed. -/
def netlinkGroups (ifaces : List Interface) (msg : NetlinkMsg) (groups : Finset Nat) :
    Finset Nat :=
  match msg.type, netlinkIface ifaces msg with
  | .dellink, some (_, iface) => groups.erase iface.props.ifIndex
  | _, _ => groups

/-- The groups after `process_netlink_msg`. -/
def processNetlinkGroups (ifaces : List Interface) (groups : Finset Nat) :
    List NetlinkMsg → Finset Nat
  | [] => groups
  | msg :: rest =>
      match msg.type with
      | .done | .error => groups
      | _ => processNetlinkGroups (netlinkUpdate ifaces msg) (netlinkGroups ifaces msg groups) rest

/-! ## Steps -/

/-- The daemon and the devices on which its socket has joined the group. -/
structure SocketState where
  daemon : Daemon
  groups : Finset Nat

inductive SocketEvent where
  | setup (position : Nat) (env : SetupEnv)
  | touch (position : Nat) (now : Timespec)
  | send (position : Nat) (setup : SetupEnv) (envs : Nat → SendEnv) (dest : Option In6Addr)
  | receive (packet : Packet) (env : ProcessEnv)
  | netlink (msgs : List NetlinkMsg)

/-- The outcome of a set-up alone. -/
def setupOutcome (env : SetupEnv) (warned : Bool) (iface : Interface) : ForallOutcome :=
  match setupIface env iface with
  | .error exit => ⟨iface, warned, [], some exit⟩
  | .ok (after, _) => ⟨after, warned, [], none⟩

/-- What an event makes of the daemon. -/
def SocketState.outcome (state : SocketState) : SocketEvent → DaemonOutcome
  | .setup position env => state.daemon.onIface position (setupOutcome env)
  | .touch position now =>
      state.daemon.onIface position fun warned iface => ⟨touchIface now iface, warned, [], none⟩
  | .send position setup envs dest =>
      state.daemon.onIface position fun warned iface => sendRaForall setup envs warned iface dest
  | .receive packet env => state.daemon.step (.receive packet env)
  | .netlink msgs => state.daemon.step (.netlink msgs)

/-- The groups after an event. -/
def SocketState.joined (state : SocketState) : SocketEvent → Finset Nat
  | .setup position env =>
      match state.daemon.ifaces[position]? with
      | none => state.groups
      | some iface => setupGroups env iface state.groups
  | .touch _ _ => state.groups
  | .send position setup _ _ =>
      match state.daemon.ifaces[position]? with
      | none => state.groups
      | some iface => sendGroups setup iface state.groups
  | .receive packet env =>
      if packet.Accepted then
        match findIfaceByIndex state.daemon.ifaces packet.ifindex with
        | none => state.groups
        | some (_, iface) => processGroups env packet iface state.groups
      else state.groups
  | .netlink msgs => processNetlinkGroups state.daemon.ifaces state.groups msgs

def SocketState.Step (state : SocketState) (event : SocketEvent) (next : SocketState) : Prop :=
  (state.outcome event).exit = none ∧ next = ⟨(state.outcome event).daemon, state.joined event⟩

/-- A ready interface hears the solicitations of its link. -/
def Heard (groups : Finset Nat) (iface : Interface) : Prop :=
  iface.stateInfo.ready = true → iface.props.ifIndex ∈ groups

/-- No message reports the removal of the link of a ready interface. -/
def KeepsLinks (ifaces : List Interface) : List NetlinkMsg → Prop
  | [] => True
  | msg :: rest =>
      match msg.type with
      | .done | .error => True
      | .dellink => (∀ iface ∈ ifaces, iface.stateInfo.ready = true →
          iface.props.ifIndex ≠ msg.index) ∧ KeepsLinks (netlinkUpdate ifaces msg) rest
      | _ => KeepsLinks (netlinkUpdate ifaces msg) rest

def SocketState.KeepsReadyLinks (state : SocketState) : SocketEvent → Prop
  | .netlink msgs => KeepsLinks state.daemon.ifaces msgs
  | _ => True

/-! ## One interface -/

section

variable {groups : Finset Nat} {iface after : Interface} {warned : Bool} {dest : Option In6Addr}
  {setup : SetupEnv}

theorem Heard.mono {more : Finset Nat} (heard : Heard groups iface) (larger : groups ⊆ more) :
    Heard more iface :=
  fun ready => larger (heard ready)

theorem Heard.of_same (heard : Heard groups iface) (props : after.props = iface.props)
    (ready : after.stateInfo.ready = iface.stateInfo.ready) : Heard groups after := by
  unfold Heard
  rw [props, ready]
  exact heard

theorem subset_setupGroups (env : SetupEnv) (iface : Interface) :
    groups ⊆ setupGroups env iface groups := by
  unfold setupGroups
  split
  · exact Finset.subset_insert _ _
  · exact Finset.Subset.refl _

theorem subset_sendGroups (setup : SetupEnv) (iface : Interface) :
    groups ⊆ sendGroups setup iface groups := by
  unfold sendGroups
  split
  · exact subset_setupGroups setup iface
  · exact Finset.Subset.refl _

theorem subset_answerGroups (env : ProcessEnv) (iface : Interface) (addr : In6Addr) :
    groups ⊆ answerGroups env iface addr groups := by
  unfold answerGroups
  split
  · exact Finset.Subset.refl _
  · exact subset_sendGroups _ _

theorem subset_processGroups (env : ProcessEnv) (packet : Packet) (iface : Interface) :
    groups ⊆ processGroups env packet iface groups := by
  unfold processGroups
  split
  · split
    · exact subset_answerGroups _ _ _
    · exact Finset.Subset.refl _
  · split
    · split
      · exact (Finset.subset_insert _ _).trans (subset_answerGroups _ _ _)
      · exact Finset.subset_insert _ _
    · exact Finset.Subset.refl _

/-- After a set-up the interface is not ready or the group is joined. -/
theorem heard_setupIface {env : SetupEnv} {ret : Int}
    (done : setupIface env iface = .ok (after, ret)) :
    Heard (setupGroups env iface groups) after := by
  intro ready
  rw [(setupIface_setUp done).stateInfo_eq] at ready
  have succeeded : ret = 0 := by simpa using ready
  subst succeeded
  unfold setupGroups
  rw [done]
  exact Finset.mem_insert_self _ _

theorem props_of_settled (same : after.settled = iface.settled) : after.props = iface.props := by
  have equal := congrArg Interface.props same
  exact equal

theorem heard_sendRaForall {envs : Nat → SendEnv} (heard : Heard groups iface) :
    Heard (sendGroups setup iface groups) (sendRaForall setup envs warned iface dest).iface := by
  have ensured : ∀ ensured, ensureIfaceSetup setup iface = .ok ensured →
      Heard (sendGroups setup iface groups) ensured := by
    intro ensured done
    unfold ensureIfaceSetup at done
    unfold sendGroups
    split at done
    · rename_i changed
      rw [if_pos changed]
      rcases result : setupIface setup iface with exit | ⟨known, ret⟩
      · rw [result] at done
        cases done
      · rw [result] at done
        cases done
        exact heard_setupIface result
    · rename_i unchanged
      rw [if_neg unchanged]
      cases done
      exact heard
  unfold sendRaForall
  split
  · exact heard.mono (subset_sendGroups setup iface)
  · rename_i known done
    split
    · exact ensured known done
    · have sent := @settled_sendRas (countRa known dest) warned envs 0
        (raDests (countRa known dest) dest)
      have counted : (countRa known dest).stateInfo.ready = known.stateInfo.ready := by
        unfold countRa
        split <;> rfl
      apply (ensured known done).of_same
      · exact props_of_settled (sent.1.trans settled_countRa)
      · dsimp only
        rw [sent.2, counted]

theorem heard_answerRs {env : ProcessEnv} {addr : In6Addr} (heard : Heard groups iface) :
    Heard (answerGroups env iface addr groups) (answerRs env warned iface addr).iface := by
  unfold answerGroups
  rcases defers : iface.Defers addr env.now with _ | _
  · rw [if_neg (by simp)]
    rcases unicast : iface.AnswersUnicast addr with _ | _
    · rw [answerRs_of_multicast unicast defers]
      unfold ForallOutcome.rescheduled
      split
      · exact heard_sendRaForall heard
      · exact (heard_sendRaForall heard).of_same rfl rfl
    · rw [answerRs_of_unicast unicast]
      exact heard_sendRaForall heard
  · rw [if_pos rfl, answerRs_of_defers defers]
    exact heard.of_same rfl rfl

theorem heard_processOn {env : ProcessEnv} {packet : Packet} (heard : Heard groups iface) :
    Heard (processGroups env packet iface groups)
      (processOn env packet warned iface).value.iface := by
  unfold processGroups processOn
  split
  · rw [value_processReady]
    split
    · exact heard_answerRs heard
    · exact heard
  · rcases result : setupIface env.setup iface with exit | ⟨known, ret⟩
    · exact heard
    · by_cases succeeded : ret = 0
      · subst succeeded
        have joined : Heard (insert known.props.ifIndex groups) known :=
          fun _ => Finset.mem_insert_self _ _
        change Heard (if packet.Solicits then answerGroups env known packet.addr
          (insert known.props.ifIndex groups) else insert known.props.ifIndex groups)
          (processReady env packet warned known).value.iface
        rw [value_processReady]
        split
        · exact heard_answerRs joined
        · exact joined
      · dsimp only
        rw [if_pos succeeded]
        intro ready
        rw [value_bind, value_pure] at ready
        dsimp only at ready
        rw [(setupIface_setUp result).stateInfo_eq] at ready
        exact absurd (by simpa using ready) succeeded

end

/-! ## All interfaces -/

section

variable {groups more : Finset Nat} {ifaces : List Interface}

def AllHeard (ifaces : List Interface) (groups : Finset Nat) : Prop :=
  ∀ iface ∈ ifaces, Heard groups iface

theorem AllHeard.set {position : Nat} {after : Interface} (heard : AllHeard ifaces groups)
    (larger : groups ⊆ more) (hears : Heard more after) :
    AllHeard (ifaces.set position after) more := by
  intro iface member
  rcases List.mem_or_eq_of_mem_set member with old | rfl
  · exact (heard iface old).mono larger
  · exact hears

theorem AllHeard.onIface {daemon : Daemon} {position : Nat}
    {handle : Bool → Interface → ForallOutcome}
    (heard : AllHeard daemon.ifaces groups) (larger : groups ⊆ more)
    (hears : ∀ iface, daemon.ifaces[position]? = some iface → Heard groups iface →
      Heard more (handle daemon.warned iface).iface) :
    AllHeard (daemon.onIface position handle).daemon.ifaces more := by
  unfold Daemon.onIface
  split
  · exact fun iface member => (heard iface member).mono larger
  · rename_i iface found
    exact heard.set larger (hears iface found (heard iface (List.mem_of_getElem? found)))

theorem heard_netlinkTouch {iface : Interface} (msg : NetlinkMsg) (heard : Heard groups iface) :
    Heard groups (netlinkTouch msg iface) := by
  have touched : Heard groups (touchIface msg.now iface) := fun ready => by cases ready
  unfold netlinkTouch
  split
  · exact touched
  · exact touched
  · split
    · exact touched
    · exact heard
  · split
    · exact touched
    · exact heard
  all_goals exact heard

theorem AllHeard.update (msg : NetlinkMsg) (heard : AllHeard ifaces groups) :
    AllHeard (netlinkUpdate ifaces msg) groups := by
  unfold netlinkUpdate
  split
  · exact heard
  · rename_i iface found
    apply heard.set (Finset.Subset.refl _)
    exact heard_netlinkTouch msg (heard iface (List.mem_of_getElem? (getElem?_of_netlinkIface found)))

theorem AllHeard.leave {msg : NetlinkMsg} (heard : AllHeard ifaces groups)
    (keeps : msg.type = .dellink → ∀ iface ∈ ifaces, iface.stateInfo.ready = true →
      iface.props.ifIndex ≠ msg.index) :
    AllHeard ifaces (netlinkGroups ifaces msg groups) := by
  unfold netlinkGroups
  split
  · rename_i position removed removes found
    have index : removed.props.ifIndex = msg.index := by
      simp only [netlinkIface, removes] at found
      simpa using (findIface_spec found).2
    intro iface member ready
    rw [index]
    exact Finset.mem_erase.mpr ⟨keeps removes iface member ready, heard iface member ready⟩
  · exact heard

/-- A batch of messages that keeps the links of ready interfaces. -/
theorem AllHeard.batch {msgs : List NetlinkMsg} (heard : AllHeard ifaces groups)
    (keeps : KeepsLinks ifaces msgs) :
    AllHeard (processNetlinkMsg ifaces msgs).1 (processNetlinkGroups ifaces groups msgs) := by
  induction msgs generalizing ifaces groups with
  | nil => exact heard
  | cons msg rest ih =>
      have next : ∀ type, msg.type = type →
          (type = .dellink → ∀ iface ∈ ifaces, iface.stateInfo.ready = true →
            iface.props.ifIndex ≠ msg.index) → KeepsLinks (netlinkUpdate ifaces msg) rest →
          AllHeard (processNetlinkMsg (netlinkUpdate ifaces msg) rest).1
            (processNetlinkGroups (netlinkUpdate ifaces msg) (netlinkGroups ifaces msg groups)
              rest) := by
        rintro type rfl kept later
        exact ih ((heard.leave kept).update msg) later
      unfold processNetlinkMsg processNetlinkGroups
      unfold KeepsLinks at keeps
      rcases type : msg.type with _ | _ | _ | _ | _ | _ | _ | _
      all_goals simp only [type] at keeps ⊢
      · exact next _ type (fun same => by cases same) keeps
      · exact next _ type (fun same => by cases same) keeps
      · exact next _ type (fun _ => keeps.1) keeps.2
      · exact next _ type (fun same => by cases same) keeps
      · exact next _ type (fun same => by cases same) keeps
      · exact heard
      · exact heard
      · exact next _ type (fun same => by cases same) keeps

end

/-! ## Runs -/

theorem heard_step {state next : SocketState} {event : SocketEvent}
    (step : Guarded SocketState.Step SocketState.KeepsReadyLinks state event next)
    (heard : AllHeard state.daemon.ifaces state.groups) :
    AllHeard next.daemon.ifaces next.groups := by
  obtain ⟨keeps, -, rfl⟩ := step
  cases event with
  | setup position env =>
      unfold SocketState.outcome SocketState.joined
      dsimp only
      rcases found : state.daemon.ifaces[position]? with _ | iface
      · simp only [Daemon.onIface, found, DaemonOutcome.unchanged]
        exact heard
      · apply heard.onIface (subset_setupGroups env iface)
        intro other same hears
        rw [found] at same
        cases same
        unfold setupOutcome
        split
        · exact hears.mono (subset_setupGroups env iface)
        · rename_i done
          exact heard_setupIface done
  | touch position now =>
      apply heard.onIface (Finset.Subset.refl _)
      intro iface found hears ready
      cases ready
  | send position setup envs dest =>
      unfold SocketState.outcome SocketState.joined
      dsimp only
      rcases found : state.daemon.ifaces[position]? with _ | iface
      · simp only [Daemon.onIface, found, DaemonOutcome.unchanged]
        exact heard
      · apply heard.onIface (subset_sendGroups setup iface)
        intro other same hears
        rw [found] at same
        cases same
        exact heard_sendRaForall hears
  | receive packet env =>
      unfold SocketState.outcome SocketState.joined
      simp only [Daemon.step, value_process]
      split
      · rcases found : findIfaceByIndex state.daemon.ifaces packet.ifindex with _ | ⟨position, iface⟩
        · exact heard
        · have listed := List.mem_of_getElem? (findIface_spec found).1
          exact heard.set (subset_processGroups env packet iface)
            (heard_processOn (heard iface listed))
      · exact heard
  | netlink msgs => exact heard.batch keeps

/-- In every run in which no ready interface has its link removed, the socket is a
member of the group on every ready interface. -/
theorem heard_run {start last : SocketState} {events : List SocketEvent}
    (unready : ∀ iface ∈ start.daemon.ifaces, iface.stateInfo.ready = false)
    (run : Run (Guarded SocketState.Step SocketState.KeepsReadyLinks) start events last) :
    ∀ iface ∈ last.daemon.ifaces, iface.stateInfo.ready = true →
      iface.props.ifIndex ∈ last.groups := by
  have heard : AllHeard last.daemon.ifaces last.groups := by
    apply run.invariant
    · exact fun state event next step => heard_step step
    · intro iface member ready
      rw [unready iface member] at ready
      cases ready
  exact heard

/-- The state after `appeared` has been set up from a fresh start. -/
theorem step_setup_missing :
    SocketState.Step ⟨⟨[touchIface ⟨94, 0⟩ missing], false⟩, ∅⟩ (.setup 0 SetupEnv.ethernet)
      ⟨⟨[appeared], false⟩, {2}⟩ := by
  have outcome : setupOutcome SetupEnv.ethernet false (touchIface ⟨94, 0⟩ missing) =
      ⟨appeared, false, [], none⟩ := by
    unfold setupOutcome
    rw [setupIface_missing]
  have groups : setupGroups SetupEnv.ethernet (touchIface ⟨94, 0⟩ missing) ∅ = {2} := by
    unfold setupGroups
    rw [setupIface_missing]
    rfl
  constructor
  · simp [SocketState.outcome, Daemon.onIface, outcome, Daemon.settle]
  · simp [SocketState.outcome, SocketState.joined, Daemon.onIface, outcome, Daemon.settle, groups]

theorem heard_appeared :
    appeared.stateInfo.ready = true ∧ appeared.props.ifIndex ∈ ({2} : Finset Nat) := by
  have unready : ∀ iface ∈ [touchIface ⟨94, 0⟩ missing], iface.stateInfo.ready = false := by
    simp [touchIface, rescheduleIface]
  have keeps : SocketState.KeepsReadyLinks ⟨⟨[touchIface ⟨94, 0⟩ missing], false⟩, ∅⟩
      (.setup 0 SetupEnv.ethernet) := trivial
  have heard := heard_run unready (.cons ⟨keeps, step_setup_missing⟩ (.nil _))
  exact ⟨rfl, heard appeared (List.mem_singleton_self _) rfl⟩

/-- The removal of its link leaves an interface ready, but no longer heard. -/
theorem unheard_removed :
    ∃ events, Run SocketState.Step ⟨⟨[touchIface ⟨94, 0⟩ missing], false⟩, ∅⟩ events
        ⟨⟨[appeared], false⟩, ∅⟩ ∧
      appeared.stateInfo.ready = true ∧ appeared.props.ifIndex ∉ (∅ : Finset Nat) := by
  have removal : SocketState.Step ⟨⟨[appeared], false⟩, {2}⟩
      (.netlink [⟨.dellink, 2, none, SetupEnv.ethernet, ⟨96, 0⟩⟩]) ⟨⟨[appeared], false⟩, ∅⟩ := by
    refine ⟨rfl, ?_⟩
    have left : (⟨⟨[appeared], false⟩, {2}⟩ : SocketState).joined
        (.netlink [⟨.dellink, 2, none, SetupEnv.ethernet, ⟨96, 0⟩⟩]) = ∅ := by
      decide
    rw [left]
    rfl
  exact ⟨_, .cons step_setup_missing (.cons removal (.nil _)), rfl, Finset.notMem_empty _⟩

end Radvd
