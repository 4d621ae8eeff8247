import Radvd.Addresses

/-!
# The source address of an RA

`if_addr_rasrc` leads to the first of the configured addresses, in the order of
the list, that the interface has, or to its first link-local address
(`source_setupIfaceAddrs`). This is the smallest of them if the list happens to
have that one first (`source_eq_iff`).

Whatever happens to an interface, it sends from the address that the last set-up
selected (`permitted_of_datagram`).
-/

namespace Radvd

open Wire Runs Grammar

/-! ## The selection -/

/-- Where `if_addr_rasrc` leads, if it leads anywhere. -/
def Properties.source (props : Properties) : Option In6Addr :=
  match props.ifAddrRasrc with
  | none => none
  | some .ifAddr => some props.ifAddr
  | some (.ifAddrs index) => props.ifAddrs[index]?

/-- The address that a set-up with these answers selects. -/
def selected (srcs addrs : List In6Addr) : Option In6Addr :=
  if srcs ≠ [] then srcs.find? (· ∈ addrs) else addrs.find? hasLlPrefix

section

variable {env : SetupEnv} {iface : Interface} {addrs srcs : List In6Addr}

/-- The index that the search finds is that of the first address that is there. -/
theorem getElem?_search :
    ((srcs.findSome? fun src => (addrs.mergeSort cmpIfaceAddrs).findIdx? (· = src)).bind
        fun index => (addrsArray addrs)[index]?) = srcs.find? (· ∈ addrs) := by
  induction srcs with
  | nil => rfl
  | cons src rest ih =>
      by_cases member : src ∈ addrs
      · have listed : src ∈ addrs.mergeSort cmpIfaceAddrs := List.mem_mergeSort.mpr member
        rcases place : (addrs.mergeSort cmpIfaceAddrs).findIdx? (· = src) with _ | index
        · rw [List.findIdx?_eq_none_iff] at place
          simpa using place src listed
        · rcases List.findIdx?_eq_some_iff_getElem.mp place with ⟨bound, found, -⟩
          rw [List.findSome?_cons, place, List.find?_cons_of_pos (by simpa using member)]
          simp only [Option.bind_some, addrsArray, List.getElem?_append_left bound,
            List.getElem?_eq_getElem bound]
          simpa using found
      · have missing : (addrs.mergeSort cmpIfaceAddrs).findIdx? (· = src) = none := by
          rw [List.findIdx?_eq_none_iff]
          intro other listed
          rw [List.mem_mergeSort] at listed
          exact decide_eq_false fun same => member (same ▸ listed)
        rw [List.findSome?_cons, missing, List.find?_cons_of_neg (by simpa using member)]
        exact ih

theorem source_setupIfaceAddrs (has : HasLinkLocal (env.addrsOf iface.props.name)) :
    (setupIfaceAddrs env iface).1.props.source =
      selected iface.advRASrcAddressList (env.addrsOf iface.props.name) := by
  rcases exists_linkLocal has with ⟨linkLocal, found⟩
  rw [setupIfaceAddrs_of_linkLocal found]
  unfold Properties.source selected
  dsimp only
  split_ifs with configured
  · rw [← getElem?_search]
    unfold selectRasrc
    generalize (iface.advRASrcAddressList.findSome? fun src =>
      ((env.addrsOf iface.props.name).mergeSort cmpIfaceAddrs).findIdx? (· = src)) = position
    cases position <;> rfl
  · exact found.symm

end

/-! ## The smallest one -/

/-- The first of the sorted addresses with some property is the least one. -/
theorem find?_sorted_eq_some_iff {addrs : List In6Addr} {wanted : In6Addr → Bool}
    {addr : In6Addr} :
    (addrs.mergeSort cmpIfaceAddrs).find? wanted = some addr ↔
      addr ∈ addrs ∧ wanted addr = true ∧
        ∀ other ∈ addrs, wanted other = true → cmpIfaceAddrs addr other = true := by
  have least : ∀ first, (addrs.mergeSort cmpIfaceAddrs).find? wanted = some first →
      first ∈ addrs ∧ wanted first = true ∧
        ∀ other ∈ addrs, wanted other = true → cmpIfaceAddrs first other = true := by
    intro first found
    rcases List.find?_eq_some_iff_append.mp found with ⟨right, before, after, split, skipped⟩
    have member : first ∈ addrs.mergeSort cmpIfaceAddrs := by rw [split]; simp
    have sorted := pairwise_sorted addrs
    rw [split, List.pairwise_append, List.pairwise_cons] at sorted
    refine ⟨List.mem_mergeSort.mp member, right, ?_⟩
    intro other listed wants
    rw [← @List.mem_mergeSort _ cmpIfaceAddrs, split, List.mem_append, List.mem_cons] at listed
    rcases listed with early | rfl | late
    · have refused := skipped other early
      rw [wants] at refused
      cases refused
    · simpa using cmpIfaceAddrs_total other other
    · exact sorted.2.1.1 other late
  constructor
  · exact least addr
  · rintro ⟨member, wants, smallest⟩
    rcases found : (addrs.mergeSort cmpIfaceAddrs).find? wanted with _ | first
    · rw [List.find?_eq_none] at found
      exact absurd wants (found addr (List.mem_mergeSort.mpr member))
    · have spec := least first found
      rw [cmpIfaceAddrs_antisymm (spec.2.2 addr member wants) (smallest first spec.1 spec.2.1)]

/-- Of the written addresses that the interface has, the one that ends the first
block with such an address is the smallest. -/
def LeastFirst (addrs : List In6Addr) (written : List (List In6Addr)) : Prop :=
  ∀ first rest, (written.flatMap List.reverse).filter (· ∈ addrs) = first :: rest →
    ∀ other ∈ rest, cmpIfaceAddrs first other = true

theorem find?_eq_find?_sorted_iff {addrs : List In6Addr} {written : List (List In6Addr)} :
    (written.flatMap List.reverse).find? (· ∈ addrs) =
        (addrs.mergeSort cmpIfaceAddrs).find? (· ∈ written.flatten) ↔
      LeastFirst addrs written := by
  have same : ∀ addr, addr ∈ written.flatMap List.reverse ↔ addr ∈ written.flatten := by simp
  rw [← List.head?_filter]
  unfold LeastFirst
  rcases both : (written.flatMap List.reverse).filter (· ∈ addrs) with _ | ⟨first, rest⟩
  · simp only [List.head?_nil, reduceCtorEq, false_implies, implies_true, iff_true]
    rw [eq_comm, List.find?_eq_none]
    intro addr listed
    rw [List.filter_eq_nil_iff] at both
    simpa [same] using fun member => both addr ((same addr).mpr member)
      (by simpa using List.mem_mergeSort.mp listed)
  · have common : ∀ addr, addr ∈ first :: rest ↔ addr ∈ addrs ∧ addr ∈ written.flatten := by
      intro addr
      rw [← both, List.mem_filter, decide_eq_true_eq, same, and_comm]
    have firstCommon := (common first).mp (List.mem_cons_self ..)
    rw [List.head?_cons, eq_comm, find?_sorted_eq_some_iff]
    simp only [decide_eq_true_eq, firstCommon, true_and, List.cons.injEq]
    constructor
    · rintro smallest _ _ ⟨rfl, rfl⟩ other member
      have otherCommon := (common other).mp (List.mem_cons_of_mem _ member)
      exact smallest other otherCommon.1 otherCommon.2
    · intro least other member configured
      rcases List.mem_cons.mp ((common other).mpr ⟨member, configured⟩) with rfl | later
      · simpa using cmpIfaceAddrs_total other other
      · exact least first rest ⟨rfl, rfl⟩ other later

section

variable {definition : Ifacedef} {parsed iface : Interface}

theorem flatMap_rasrcaddresslists_ne_nil (blocks : rasrcaddresslists definition.params ≠ []) :
    (rasrcaddresslists definition.params).flatMap List.reverse ≠ [] := by
  rcases List.exists_mem_of_ne_nil _ blocks with ⟨block, member⟩
  rcases List.mem_filterMap.mp member with ⟨param, -, picked⟩
  cases param with
  | rasrcaddresslist first rest =>
      cases picked
      rw [ne_eq, List.flatMap_eq_nil_iff]
      intro none
      simpa using none _ member
  | _ => cases picked

theorem advRASrcAddressList_of_config {iface' : Interface} (same : iface'.config = iface.config) :
    iface'.advRASrcAddressList = iface.advRASrcAddressList := by
  have equal := congrArg Interface.advRASrcAddressList same
  exact equal

theorem name_of_config {iface' : Interface} (same : iface'.config = iface.config) :
    iface'.props.name = iface.props.name := by
  have equal := congrArg (fun iface : Interface => iface.props.name) same
  exact equal

/-- The source is the first configured address in the order of the interface
exactly if the order of the configuration agrees with it. -/
theorem source_eq_iff {events : List IfaceEvent} {env : SetupEnv}
    (gives : definition.Gives parsed) (run : Run IfaceStep parsed events iface)
    (blocks : rasrcaddresslists definition.params ≠ [])
    (linkLocal : HasLinkLocal (env.addrsOf iface.props.name)) :
    (setupIfaceAddrs env iface).1.props.source =
        ((setupIfaceAddrs env iface).1.props.ifAddrs.take
          (setupIfaceAddrs env iface).1.props.addrsCount).find?
            (· ∈ (rasrcaddresslists definition.params).flatten) ↔
      LeastFirst (env.addrsOf iface.props.name) (rasrcaddresslists definition.params) := by
  have listed := (advRASrcAddressList_of_config (config_of_gives gives run)).trans
    gives.rasrcaddresslist
  rw [source_setupIfaceAddrs linkLocal, ifAddrs_setupIfaceAddrs, addrsCount_setupIfaceAddrs,
    if_pos linkLocal, take_addrsArray, selected, listed,
    if_pos (flatMap_rasrcaddresslists_ne_nil blocks)]
  exact find?_eq_find?_sorted_iff

end

/-- A configuration with these source addresses, written in this order. -/
def sourced (first second : In6Addr) : Ifacedef :=
  ⟨eth0, [.rasrcaddresslist first [second]]⟩

def sourcing (srcs : List In6Addr) : Interface :=
  { ifaceInitDefaults with
    props := { ifaceInitDefaults.props with name := eth0.ifname }
    advRASrcAddressList := srcs }

theorem readinConfig_sourced (first second : In6Addr) :
    readinConfig (sourced first second) [] = .ok [sourcing [second, first]] := rfl

theorem gives_sourced (first second : In6Addr) :
    (sourced first second).Gives (sourcing [second, first]) := by
  rcases gives_of_readinConfig (readinConfig_sourced first second) (List.mem_singleton_self _) with
    ⟨definition, listed, gives⟩
  rw [List.mem_singleton.mp listed] at gives
  exact gives

theorem addrsOf_seeing (srcs : List In6Addr) :
    (SetupEnv.seeing [linkLocalAddr, globalAddr]).addrsOf (sourcing srcs).props.name =
      [linkLocalAddr, globalAddr] := rfl

theorem hasLinkLocal_seeing (srcs : List In6Addr) :
    HasLinkLocal ((SetupEnv.seeing [linkLocalAddr, globalAddr]).addrsOf
      (sourcing srcs).props.name) :=
  ⟨linkLocalAddr, List.mem_cons_self .., by decide⟩

theorem source_sourced :
    (setupIfaceAddrs (.seeing [linkLocalAddr, globalAddr])
        (sourcing [globalAddr, linkLocalAddr])).1.props.source =
      ((setupIfaceAddrs (.seeing [linkLocalAddr, globalAddr])
          (sourcing [globalAddr, linkLocalAddr])).1.props.ifAddrs.take
        (setupIfaceAddrs (.seeing [linkLocalAddr, globalAddr])
          (sourcing [globalAddr, linkLocalAddr])).1.props.addrsCount).find?
        (· ∈ (rasrcaddresslists (sourced linkLocalAddr globalAddr).params).flatten) := by
  apply (source_eq_iff (gives_sourced linkLocalAddr globalAddr) (.nil _) (by decide)
    (hasLinkLocal_seeing _)).mpr
  intro first rest both other member
  have written : ((rasrcaddresslists (sourced linkLocalAddr globalAddr).params).flatMap
      List.reverse).filter (· ∈ [linkLocalAddr, globalAddr]) = [globalAddr, linkLocalAddr] := by
    decide
  rw [addrsOf_seeing, written] at both
  cases both
  rw [List.mem_singleton.mp member]
  decide

/-- Written the other way round the same addresses make the link-local one the
source, which comes second in the array. -/
theorem source_ne_sourced :
    readinConfig (sourced globalAddr linkLocalAddr) [] =
        .ok [sourcing [linkLocalAddr, globalAddr]] ∧
      HasLinkLocal ((SetupEnv.seeing [linkLocalAddr, globalAddr]).addrsOf
        (sourcing [linkLocalAddr, globalAddr]).props.name) ∧
      (setupIfaceAddrs (.seeing [linkLocalAddr, globalAddr])
        (sourcing [linkLocalAddr, globalAddr])).1.props.source ≠
      ((setupIfaceAddrs (.seeing [linkLocalAddr, globalAddr])
          (sourcing [linkLocalAddr, globalAddr])).1.props.ifAddrs.take
        (setupIfaceAddrs (.seeing [linkLocalAddr, globalAddr])
          (sourcing [linkLocalAddr, globalAddr])).1.props.addrsCount).find?
        (· ∈ (rasrcaddresslists (sourced globalAddr linkLocalAddr).params).flatten) := by
  refine ⟨rfl, hasLinkLocal_seeing _, ?_⟩
  have first : selected [linkLocalAddr, globalAddr] [linkLocalAddr, globalAddr] =
      some linkLocalAddr := by decide
  have smallest : ([linkLocalAddr, globalAddr].mergeSort cmpIfaceAddrs).find?
      (· ∈ (rasrcaddresslists (sourced globalAddr linkLocalAddr).params).flatten) =
        some globalAddr := by
    apply find?_sorted_eq_some_iff.mpr
    refine ⟨by decide, by decide, ?_⟩
    intro other member _
    rcases List.mem_cons.mp member with rfl | last
    · decide
    · rw [List.mem_singleton.mp last]
      decide
  rw [source_setupIfaceAddrs (hasLinkLocal_seeing _), ifAddrs_setupIfaceAddrs,
    addrsCount_setupIfaceAddrs, if_pos (hasLinkLocal_seeing _), take_addrsArray, addrsOf_seeing,
    smallest]
  exact ne_of_eq_of_ne first (by decide)

/-! ## What is sent -/

/-- A message on its way, with the control data of `IPV6_PKTINFO`. -/
structure Datagram where
  ifindex : Nat
  source : Option In6Addr
  dest : In6Addr
  message : Bytes
  deriving DecidableEq, Repr

/-- `really_send`; without a source it would read through a null pointer. -/
def reallySend (props : Properties) (dest : In6Addr) (message : Bytes) : Datagram :=
  ⟨props.ifIndex, props.source, dest, message⟩

/-- The properties stay the same while RAs are sent. -/
def ForallOutcome.datagrams (outcome : ForallOutcome) : List Datagram :=
  outcome.transmissions.flatMap fun sent =>
    sent.2.map (reallySend outcome.iface.props sent.1)

theorem props_sendRaForall {setup : SetupEnv} {envs : Nat → SendEnv} {warned : Bool}
    {iface after : Interface} {dest : Option In6Addr}
    (ensured : ensureIfaceSetup setup iface = .ok after) :
    (sendRaForall setup envs warned iface dest).iface.props = after.props ∧
      (sendRaForall setup envs warned iface dest).iface.stateInfo.ready =
        after.stateInfo.ready := by
  unfold sendRaForall
  rw [ensured]
  dsimp only
  split
  · exact ⟨rfl, rfl⟩
  · have counted : (countRa after dest).props = after.props ∧
        (countRa after dest).stateInfo.ready = after.stateInfo.ready := by
      unfold countRa
      split <;> exact ⟨rfl, rfl⟩
    have sent := @settled_sendRas (countRa after dest) warned envs 0
      (raDests (countRa after dest) dest)
    have props := congrArg Interface.props sent.1
    exact ⟨props.trans counted.1, (congrArg StateInfo.ready sent.2).trans counted.2⟩

/-- An interface with the answers of the system to its last set-up. -/
structure Tracked where
  iface : Interface
  lastSetup : Option SetupEnv

inductive RaEvent where
  | setupIface (env : SetupEnv)
  | touchIface (now : Timespec)
  | notification (msg : NetlinkMsg)
  | sendRaForall (setup : SetupEnv) (envs : Nat → SendEnv) (warned : Bool)
      (dest : Option In6Addr)

/-- The answers to the last set-up when the event is over. Sending sets up an
interface that is marked as changed. -/
def Tracked.lastSetupAfter (tracked : Tracked) : RaEvent → Option SetupEnv
  | .setupIface env => some env
  | .touchIface _ | .notification _ => tracked.lastSetup
  | .sendRaForall setup _ _ _ =>
      if tracked.iface.stateInfo.changed then some setup else tracked.lastSetup

def Tracked.datagrams (tracked : Tracked) : RaEvent → List Datagram
  | .sendRaForall setup envs warned dest =>
      (sendRaForall setup envs warned tracked.iface dest).datagrams
  | _ => []

/-- The events after which the program still runs. -/
inductive Tracked.Step (tracked : Tracked) : RaEvent → Tracked → Prop where
  | setupIface {env : SetupEnv} {iface' : Interface} {ret : Int}
      (done : Radvd.setupIface env tracked.iface = .ok (iface', ret)) :
      Step tracked (.setupIface env) ⟨iface', some env⟩
  | touchIface {now : Timespec} :
      Step tracked (.touchIface now) ⟨Radvd.touchIface now tracked.iface, tracked.lastSetup⟩
  | notification {msg : NetlinkMsg} :
      Step tracked (.notification msg) ⟨netlinkTouch msg tracked.iface, tracked.lastSetup⟩
  | sendRaForall {setup : SetupEnv} {envs : Nat → SendEnv} {warned : Bool}
      {dest : Option In6Addr}
      (continues : (Radvd.sendRaForall setup envs warned tracked.iface dest).exit = none) :
      Step tracked (.sendRaForall setup envs warned dest)
        ⟨(Radvd.sendRaForall setup envs warned tracked.iface dest).iface,
          tracked.lastSetupAfter (.sendRaForall setup envs warned dest)⟩

/-- An RA of the interface may have this source address. -/
structure Permitted (iface : Interface) (env : SetupEnv) (addr : In6Addr) : Prop where
  own : addr ∈ env.addrsOf iface.props.name
  configured : iface.advRASrcAddressList ≠ [] → addr ∈ iface.advRASrcAddressList
  linkLocal : iface.advRASrcAddressList = [] →
    (env.addrsOf iface.props.name).find? hasLlPrefix = some addr

theorem permitted_of_selected {iface : Interface} {env : SetupEnv} {addr : In6Addr}
    (found : selected iface.advRASrcAddressList (env.addrsOf iface.props.name) = some addr) :
    Permitted iface env addr := by
  unfold selected at found
  split_ifs at found with configured
  · have own := List.find?_some found
    exact ⟨by simpa using own, fun _ => List.mem_of_find?_eq_some found,
      fun empty => absurd empty configured⟩
  · exact ⟨List.mem_of_find?_eq_some found, fun nonempty => absurd nonempty configured,
      fun _ => found⟩

/-! ## Only what the last set-up selected -/

/-- A ready interface has the source that its last set-up selected. -/
structure Tracked.Sound (start : Interface) (tracked : Tracked) : Prop where
  config_eq : tracked.iface.config = start.config
  source_of : tracked.iface.stateInfo.ready = true → ∃ env addr,
    tracked.lastSetup = some env ∧ tracked.iface.props.source = some addr ∧ Permitted start env addr

theorem exists_source_setupIfaceAddrs {env : SetupEnv} {iface : Interface}
    (succeeded : ¬(setupIfaceAddrs env iface).2 < 0)
    (source : (setupIfaceAddrs env iface).1.props.ifAddrRasrc ≠ none) :
    ∃ addr, (setupIfaceAddrs env iface).1.props.source = some addr ∧ Permitted iface env addr := by
  have has : HasLinkLocal (env.addrsOf iface.props.name) := by
    by_contra none
    exact succeeded (setupIfaceAddrs_neg_iff.mpr none)
  have leads := source_setupIfaceAddrs has
  rcases exists_linkLocal has with ⟨linkLocal, found⟩
  rcases choice : selected iface.advRASrcAddressList (env.addrsOf iface.props.name) with _ | addr
  · rw [setupIfaceAddrs_of_linkLocal found] at source
    unfold selected at choice
    split_ifs at choice with configured
    · rw [if_pos configured] at source
      simp only [selectRasrc, ne_eq, Option.map_eq_none_iff, List.findSome?_eq_none_iff,
        List.findIdx?_eq_none_iff, List.mem_mergeSort, decide_eq_false_iff_not] at source
      rw [List.find?_eq_none] at choice
      refine absurd (fun src listed other own same => ?_) source
      exact choice src listed (by simpa [← same] using own)
    · rw [found] at choice
      cases choice
  · exact ⟨addr, leads.trans choice, permitted_of_selected choice⟩

theorem sound_setupIface {start iface' : Interface} {tracked : Tracked} {env : SetupEnv} {ret : Int}
    (config : tracked.iface.config = start.config)
    (done : setupIface env tracked.iface = .ok (iface', ret)) :
    Tracked.Sound start ⟨iface', some env⟩ := by
  have setUp := setupIface_setUp done
  refine ⟨setUp.config_eq.trans config, ?_⟩
  intro ready
  have succeeded : ret = 0 := by
    dsimp only at ready
    rw [setUp.stateInfo_eq] at ready
    simpa using ready
  cases setupIface_cases done with
  | device failed => omega
  | checked _ failed => omega
  | @ready known _ measured _ _ _ addrs source _ =>
      rcases exists_source_setupIfaceAddrs addrs source with ⟨addr, leads, permitted⟩
      have same : (fillDefaults known).config = start.config := by
        have kept : (setupIfaceAddrs env (fillDefaults known)).1.readied.config =
            (fillDefaults known).config := (@remeasured_setupIfaceAddrs env _).kept.config_eq
        exact kept.symm.trans (setUp.config_eq.trans config)
      have name := name_of_config same
      have listed := advRASrcAddressList_of_config same
      refine ⟨env, addr, rfl, leads, ?_⟩
      constructor
      · rw [← name]
        exact permitted.own
      · rw [← listed]
        exact permitted.configured
      · rw [← listed, ← name]
        exact permitted.linkLocal

theorem sound_unready {start iface' : Interface} {tracked : Tracked}
    (config : iface'.config = start.config) (unready : iface'.stateInfo.ready = false) :
    Tracked.Sound start ⟨iface', tracked.lastSetup⟩ :=
  ⟨config, fun ready => absurd ready (by simp [unready])⟩

/-- The interface that an RA is sent from has the source that the last set-up
selected. -/
theorem sound_ensureIfaceSetup {start after : Interface} {tracked : Tracked} {setup : SetupEnv}
    {envs : Nat → SendEnv} {warned : Bool} {dest : Option In6Addr} (sound : tracked.Sound start)
    (ensured : ensureIfaceSetup setup tracked.iface = .ok after) :
    Tracked.Sound start
      ⟨after, tracked.lastSetupAfter (.sendRaForall setup envs warned dest)⟩ := by
  unfold ensureIfaceSetup at ensured
  unfold Tracked.lastSetupAfter
  split_ifs at ensured ⊢
  · rcases done : setupIface setup tracked.iface with exit | ⟨iface', ret⟩
    · rw [done] at ensured
      cases ensured
    · rw [done] at ensured
      cases ensured
      exact sound_setupIface sound.config_eq done
  · cases ensured
    exact sound

theorem sound_step {start : Interface} {tracked next : Tracked} {event : RaEvent}
    (sound : tracked.Sound start) (step : tracked.Step event next) : next.Sound start := by
  cases step with
  | setupIface done => exact sound_setupIface sound.config_eq done
  | touchIface => exact sound_unready sound.config_eq rfl
  | @notification msg =>
      have config := (config_netlinkTouch msg).trans sound.config_eq
      refine ⟨config, ?_⟩
      intro ready
      have same : netlinkTouch msg tracked.iface = tracked.iface := by
        unfold netlinkTouch at ready ⊢
        split at ready <;> try split_ifs at ready ⊢
        all_goals first | rfl | cases ready
      dsimp only at ready ⊢
      rw [same] at ready ⊢
      exact sound.source_of ready
  | @sendRaForall setup envs warned dest continues =>
      rcases ensured : ensureIfaceSetup setup tracked.iface with exit | after
      · unfold Radvd.sendRaForall at continues
        rw [ensured] at continues
        cases continues
      · have kept := @props_sendRaForall setup envs warned tracked.iface after dest ensured
        have later := @sound_ensureIfaceSetup start after tracked setup envs warned dest sound ensured
        refine ⟨(config_sendRaForall setup envs).trans sound.config_eq, ?_⟩
        dsimp only
        rw [kept.1, kept.2]
        exact later.source_of

/-- After any events, what the next one sends has a source address that the
interface had at its last set-up and that the configuration asks for. -/
theorem permitted_of_datagram {start : Interface} {tracked : Tracked} {events : List RaEvent}
    (unready : start.stateInfo.ready = false)
    (run : Run Tracked.Step ⟨start, none⟩ events tracked) (event : RaEvent) :
    (∀ datagram ∈ tracked.datagrams event, ∃ env addr,
        tracked.lastSetupAfter event = some env ∧ datagram.source = some addr ∧
          Permitted start env addr) ∧
      ((∀ env, tracked.lastSetupAfter event = some env → ¬∃ addr, Permitted start env addr) →
        tracked.datagrams event = []) := by
  have sound : tracked.Sound start := by
    apply run.invariant (fun _ _ _ step sound => sound_step sound step)
    exact ⟨rfl, fun ready => absurd ready (by simp [unready])⟩
  have all : ∀ datagram ∈ tracked.datagrams event, ∃ env addr,
      tracked.lastSetupAfter event = some env ∧ datagram.source = some addr ∧
        Permitted start env addr := by
    intro datagram member
    cases event with
    | sendRaForall setup envs warned dest =>
        rcases List.mem_flatMap.mp member with ⟨sent, listed, sending⟩
        rcases List.mem_map.mp sending with ⟨message, -, rfl⟩
        rcases ensured : ensureIfaceSetup setup tracked.iface with exit | after
        · unfold Radvd.sendRaForall at listed
          rw [ensured] at listed
          cases listed
        · have kept := @props_sendRaForall setup envs warned tracked.iface after dest ensured
          have later := @sound_ensureIfaceSetup start after tracked setup envs warned dest sound
            ensured
          have ready : after.stateInfo.ready = true := by
            by_contra unready
            unfold Radvd.sendRaForall at listed
            rw [ensured] at listed
            dsimp only at listed
            rw [if_pos (by simpa using unready)] at listed
            exact absurd listed List.not_mem_nil
          dsimp only [reallySend]
          rw [kept.1]
          exact later.source_of ready
    | _ => exact absurd member List.not_mem_nil
  refine ⟨all, ?_⟩
  intro none
  apply List.eq_nil_iff_forall_not_mem.mpr
  intro datagram member
  rcases all datagram member with ⟨env, addr, last, -, permitted⟩
  exact none env last ⟨addr, permitted⟩

theorem permitted_ethernet :
    ∃ datagram ∈ (⟨decrementing, none⟩ : Tracked).datagrams
        (.sendRaForall .ethernet (fun _ => routerEnv ⟨100, 0⟩) false none),
      ∃ addr, datagram.source = some addr ∧ Permitted decrementing .ethernet addr := by
  have sends : (((⟨decrementing, none⟩ : Tracked).datagrams
      (.sendRaForall .ethernet (fun _ => routerEnv ⟨100, 0⟩) false none)).map
        Datagram.dest).head? = some allHostsAddr := by with_unfolding_all decide
  rw [List.head?_map, Option.map_eq_some_iff] at sends
  rcases sends with ⟨datagram, first, -⟩
  have member := List.mem_of_head? first
  rcases (permitted_of_datagram rfl (.nil _) _).1 datagram member with
    ⟨env, addr, last, source, permitted⟩
  cases last
  exact ⟨datagram, member, addr, source, permitted⟩

end Radvd
