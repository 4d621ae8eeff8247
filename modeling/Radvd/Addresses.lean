import Radvd.Grammar.Blocks
import Radvd.IfaceRuns

/-!
# The addresses of an interface

`setup_iface_addrs` keeps the addresses of the interface in ascending order, with
the unspecified address behind them. The order does not depend on the order in
which the system lists them, so the comparison at a netlink message finds out
whether they changed (`touches_iff`).

The array is replaced also when the interface has no link-local address, the
count is not (`represents_iff`).
-/

namespace Radvd

open Wire Runs Grammar

/-! ## The order of the addresses -/

theorem cmpIfaceAddrs_trans (first second third : In6Addr)
    (one : cmpIfaceAddrs first second = true) (two : cmpIfaceAddrs second third = true) :
    cmpIfaceAddrs first third = true := by
  simp only [cmpIfaceAddrs, decide_eq_true_eq] at one two ⊢
  exact List.le_trans one two

theorem cmpIfaceAddrs_total (first second : In6Addr) :
    (cmpIfaceAddrs first second || cmpIfaceAddrs second first) = true := by
  simp only [cmpIfaceAddrs, Bool.or_eq_true, decide_eq_true_eq]
  exact List.le_total _ _

theorem cmpIfaceAddrs_antisymm {first second : In6Addr}
    (one : cmpIfaceAddrs first second = true) (two : cmpIfaceAddrs second first = true) :
    first = second := by
  simp only [cmpIfaceAddrs, decide_eq_true_eq] at one two
  exact Vector.toList_inj.mp (List.le_antisymm one two)

theorem pairwise_sorted (addrs : List In6Addr) :
    (addrs.mergeSort cmpIfaceAddrs).Pairwise fun first second =>
      cmpIfaceAddrs first second = true :=
  List.pairwise_mergeSort cmpIfaceAddrs_trans cmpIfaceAddrs_total addrs

/-- Sorted addresses only depend on which addresses there are and how often. -/
theorem mergeSort_eq_iff {first second : List In6Addr} :
    first.mergeSort cmpIfaceAddrs = second.mergeSort cmpIfaceAddrs ↔ first.Perm second := by
  constructor
  · intro same
    apply (List.mergeSort_perm first cmpIfaceAddrs).symm.trans
    rw [same]
    exact List.mergeSort_perm second cmpIfaceAddrs
  · intro perm
    apply List.Perm.eq_of_pairwise _ (pairwise_sorted first) (pairwise_sorted second)
    · apply (List.mergeSort_perm first cmpIfaceAddrs).trans
      exact perm.trans (List.mergeSort_perm second cmpIfaceAddrs).symm
    · intro one two _ _
      exact cmpIfaceAddrs_antisymm

/-! ## What is kept of them -/

/-- The addresses that the system lists for the interface. -/
def SetupEnv.addrsOf (env : SetupEnv) (name : Bytes) : List In6Addr :=
  Radvd.addrsOf name (env.getifaddrs.getD [])

/-- One of the addresses is link-local. -/
def HasLinkLocal (addrs : List In6Addr) : Prop :=
  ∃ addr ∈ addrs, hasLlPrefix addr = true

instance (addrs : List In6Addr) : Decidable (HasLinkLocal addrs) :=
  inferInstanceAs (Decidable (∃ addr ∈ addrs, hasLlPrefix addr = true))

section

variable {env : SetupEnv} {iface : Interface}

theorem find?_linkLocal_eq_none_iff {addrs : List In6Addr} :
    addrs.find? hasLlPrefix = none ↔ ¬HasLinkLocal addrs := by
  simp [HasLinkLocal]

theorem exists_linkLocal {addrs : List In6Addr} (has : HasLinkLocal addrs) :
    ∃ linkLocal, addrs.find? hasLlPrefix = some linkLocal := by
  rcases found : addrs.find? hasLlPrefix with _ | linkLocal
  · exact absurd has (find?_linkLocal_eq_none_iff.mp found)
  · exact ⟨linkLocal, rfl⟩

/-- The array for these addresses. -/
def addrsArray (addrs : List In6Addr) : List In6Addr :=
  addrs.mergeSort cmpIfaceAddrs ++ [In6Addr.unspecified]

theorem take_addrsArray (addrs : List In6Addr) :
    (addrsArray addrs).take addrs.length = addrs.mergeSort cmpIfaceAddrs :=
  List.take_left' (by simp)

theorem getIfaceAddrs_of_none {name : Bytes} {ifAddr : In6Addr}
    (none : ¬HasLinkLocal (env.addrsOf name)) :
    getIfaceAddrs env name ifAddr = (ifAddr, addrsArray (env.addrsOf name), -1) := by
  have missing := find?_linkLocal_eq_none_iff.mpr none
  simp only [SetupEnv.addrsOf] at missing
  simp only [getIfaceAddrs, missing, addrsArray, SetupEnv.addrsOf]

theorem getIfaceAddrs_of_linkLocal {name : Bytes} {ifAddr linkLocal : In6Addr}
    (found : (env.addrsOf name).find? hasLlPrefix = some linkLocal) :
    getIfaceAddrs env name ifAddr =
      (linkLocal, addrsArray (env.addrsOf name), ((env.addrsOf name).length : Int)) := by
  simp only [SetupEnv.addrsOf] at found
  simp only [getIfaceAddrs, found, addrsArray, SetupEnv.addrsOf]

/-- Without a link-local address only the array is replaced. -/
theorem setupIfaceAddrs_of_none (none : ¬HasLinkLocal (env.addrsOf iface.props.name)) :
    setupIfaceAddrs env iface =
      ({ iface with props :=
        { iface.props with ifAddrs := addrsArray (env.addrsOf iface.props.name) } }, -1) := by
  simp only [setupIfaceAddrs, getIfaceAddrs_of_none none, ne_eq, not_true_eq_false, if_false]

theorem setupIfaceAddrs_of_linkLocal {linkLocal : In6Addr}
    (found : (env.addrsOf iface.props.name).find? hasLlPrefix = some linkLocal) :
    setupIfaceAddrs env iface =
      ({ iface with props := { iface.props with
        ifAddr := linkLocal
        ifAddrs := addrsArray (env.addrsOf iface.props.name)
        addrsCount := (env.addrsOf iface.props.name).length
        ifAddrRasrc :=
          if iface.advRASrcAddressList ≠ [] then
            selectRasrc iface.advRASrcAddressList
              ((env.addrsOf iface.props.name).mergeSort cmpIfaceAddrs)
          else some .ifAddr } }, ((env.addrsOf iface.props.name).length : Int)) := by
  have counted : ((env.addrsOf iface.props.name).length : Int) ≠ -1 := by omega
  simp only [setupIfaceAddrs, getIfaceAddrs_of_linkLocal found, if_pos counted, Int.toNat_natCast,
    take_addrsArray]

theorem name_setupIfaceAddrs : (setupIfaceAddrs env iface).1.props.name = iface.props.name :=
  remeasured_setupIfaceAddrs.name_eq

theorem ifAddrs_setupIfaceAddrs :
    (setupIfaceAddrs env iface).1.props.ifAddrs = addrsArray (env.addrsOf iface.props.name) := by
  by_cases has : HasLinkLocal (env.addrsOf iface.props.name)
  · rcases exists_linkLocal has with ⟨linkLocal, found⟩
    rw [setupIfaceAddrs_of_linkLocal found]
  · rw [setupIfaceAddrs_of_none has]

theorem addrsCount_setupIfaceAddrs :
    (setupIfaceAddrs env iface).1.props.addrsCount =
      if HasLinkLocal (env.addrsOf iface.props.name) then
        (env.addrsOf iface.props.name).length
      else iface.props.addrsCount := by
  split_ifs with has
  · rcases exists_linkLocal has with ⟨linkLocal, found⟩
    rw [setupIfaceAddrs_of_linkLocal found]
  · rw [setupIfaceAddrs_of_none has]

theorem setupIfaceAddrs_neg_iff :
    (setupIfaceAddrs env iface).2 < 0 ↔ ¬HasLinkLocal (env.addrsOf iface.props.name) := by
  by_cases has : HasLinkLocal (env.addrsOf iface.props.name)
  · rcases exists_linkLocal has with ⟨linkLocal, found⟩
    simp only [setupIfaceAddrs_of_linkLocal found, has, not_true_eq_false, iff_false]
    omega
  · simp only [setupIfaceAddrs_of_none has, has, not_false_iff, iff_true]
    decide

end

/-! ## The array and its count -/

/-- The array is that of the addresses, and the count is theirs. -/
structure Represents (props : Properties) (addrs : List In6Addr) : Prop where
  length_eq : props.ifAddrs.length = props.addrsCount + 1
  sorted : (props.ifAddrs.take props.addrsCount).Pairwise fun first second =>
    cmpIfaceAddrs first second = true
  perm : (props.ifAddrs.take props.addrsCount).Perm addrs
  last_eq : props.ifAddrs.getLast? = some In6Addr.unspecified

/-- The comparison of `process_netlink_msg` stays in the array. -/
theorem Represents.addrsCount_lt {props : Properties} {addrs : List In6Addr}
    (represents : Represents props addrs) : props.addrsCount < props.ifAddrs.length := by
  rw [represents.length_eq]
  exact Nat.lt_succ_self _

theorem represents_iff_length_eq {props : Properties} {addrs : List In6Addr}
    (array : props.ifAddrs = addrsArray addrs) :
    Represents props addrs ↔ addrs.length = props.addrsCount := by
  have length : props.ifAddrs.length = addrs.length + 1 := by simp [array, addrsArray]
  constructor
  · intro represents
    have counted := represents.length_eq
    omega
  · intro counted
    have taken : props.ifAddrs.take props.addrsCount = addrs.mergeSort cmpIfaceAddrs := by
      rw [array, ← counted, take_addrsArray]
    constructor
    · rw [length, counted]
    · rw [taken]
      exact pairwise_sorted addrs
    · rw [taken]
      exact List.mergeSort_perm _ _
    · simp [array, addrsArray]

/-- Setting up the addresses one time after the other. -/
def setupIfaceAddrsAll (envs : List SetupEnv) (iface : Interface) : Interface :=
  envs.foldl (fun iface env => (setupIfaceAddrs env iface).1) iface

/-- How many addresses there were when there last was a link-local one. -/
def lastCount (name : Bytes) (count : Nat) (envs : List SetupEnv) : Nat :=
  envs.foldl (fun count env =>
    if HasLinkLocal (env.addrsOf name) then (env.addrsOf name).length else count) count

theorem setupIfaceAddrsAll_spec (envs : List SetupEnv) (iface : Interface) :
    (setupIfaceAddrsAll envs iface).props.name = iface.props.name ∧
      (setupIfaceAddrsAll envs iface).props.addrsCount =
        lastCount iface.props.name iface.props.addrsCount envs := by
  induction envs generalizing iface with
  | nil => exact ⟨rfl, rfl⟩
  | cons env rest ih =>
      have later := ih (setupIfaceAddrs env iface).1
      rw [name_setupIfaceAddrs, addrsCount_setupIfaceAddrs] at later
      exact later

/-- After any calls and a last one, the array and the count fit together exactly
if the last call saw a link-local address, or as many addresses as the last call
that did. -/
theorem represents_iff (envs : List SetupEnv) (last : SetupEnv) (iface : Interface) :
    Represents (setupIfaceAddrsAll (envs ++ [last]) iface).props
        (last.addrsOf iface.props.name) ↔
      HasLinkLocal (last.addrsOf iface.props.name) ∨
        (last.addrsOf iface.props.name).length =
          lastCount iface.props.name iface.props.addrsCount envs := by
  have before := setupIfaceAddrsAll_spec envs iface
  have both : setupIfaceAddrsAll (envs ++ [last]) iface =
      (setupIfaceAddrs last (setupIfaceAddrsAll envs iface)).1 := by
    simp [setupIfaceAddrsAll]
  have array := @ifAddrs_setupIfaceAddrs last (setupIfaceAddrsAll envs iface)
  have count := @addrsCount_setupIfaceAddrs last (setupIfaceAddrsAll envs iface)
  rw [before.1] at array count
  rw [before.2] at count
  rw [both, represents_iff_length_eq array, count]
  split_ifs with has
  · simp [has]
  · simp [has]

/-- The system lists these addresses for the Ethernet device. -/
def SetupEnv.seeing (addrs : List In6Addr) : SetupEnv :=
  { SetupEnv.ethernet with
    getifaddrs := some (addrs.map fun addr =>
      { ifaName := decrementing.props.name
        ifaAddr := some (.inet6 addr In6Addr.unspecified) }) }

/-- When the addresses are gone the count still is two, and the array has one
entry. -/
theorem not_represents_gone :
    ¬Represents
      (setupIfaceAddrsAll ([.seeing [linkLocalAddr, globalAddr]] ++ [.seeing []]) decrementing).props
      ((SetupEnv.seeing []).addrsOf decrementing.props.name) := by
  intro represents
  exact absurd represents.addrsCount_lt (by with_unfolding_all decide)

/-! ## Address notifications -/

/-- What the addresses of an interface are kept in and selected by. -/
def Interface.addressing (iface : Interface) : Properties × List In6Addr :=
  ({ iface.props with ifIndex := 0, maxRaOptionSize := 0 }, iface.advRASrcAddressList)

section

variable {env : SetupEnv} {iface iface' : Interface} {ret : Int}

theorem addressing_updateDeviceIndex :
    (updateDeviceIndex env iface).1.addressing = iface.addressing := by
  unfold updateDeviceIndex
  split <;> rfl

theorem addressing_checkDevice : (checkDevice env iface).1.addressing = iface.addressing := by
  unfold checkDevice
  split
  · rfl
  · split_ifs <;> rfl

theorem addressing_updateDeviceInfo {device : Device}
    (done : updateDeviceInfo device iface = .ok (iface', ret)) :
    iface'.addressing = iface.addressing := by
  unfold updateDeviceInfo at done
  split at done
  · cases done
    rfl
  · rcases read : getInterfaceLinkmtu device with exit | linkmtu
    · rw [read] at done
      cases done
    rw [read] at done
    simp only [Bind.bind, Except.bind] at done
    split at done
    · cases done
      rfl
    · split at done
      · cases done
        rfl
      · cases done
        split <;> rfl

theorem addressing_fillDefaults : (fillDefaults iface).addressing = iface.addressing := by
  unfold fillDefaults
  dsimp only
  split_ifs <;> rfl

/-- A set-up either fails before it gets to the addresses or sets them up. -/
inductive AddressCase (env : SetupEnv) (iface iface' : Interface) (ret : Int) : Prop where
  | before (ret_gt : -5 < ret) (ret_neg : ret < 0)
      (same : iface'.addressing = iface.addressing)
  | setUp {known : Interface} (ret_mem : ret = 0 ∨ ret ≤ -5)
      (same : known.addressing = iface.addressing)
      (becomes : iface'.addressing = (setupIfaceAddrs env known).1.addressing)
      (fails_iff : ret = -5 ↔ (setupIfaceAddrs env known).2 < 0)

theorem setupIface_addressCase (done : setupIface env iface = .ok (iface', ret)) :
    AddressCase env iface iface' ret := by
  have indexed := @addressing_updateDeviceIndex env iface.unready
  have checked := (@addressing_checkDevice env (updateDeviceIndex env iface.unready).1).trans indexed
  cases setupIface_stage done with
  | index => exact .before (by decide) (by decide) indexed
  | device => exact .before (by decide) (by decide) checked
  | info info =>
      exact .before (by decide) (by decide) ((addressing_updateDeviceInfo info).trans checked)
  | check info check failed =>
      exact .before (by decide) (by decide)
        (addressing_fillDefaults.trans ((addressing_updateDeviceInfo info).trans checked))
  | addrs info check last_le fails_iff =>
      exact .setUp (.inr last_le)
        (addressing_fillDefaults.trans ((addressing_updateDeviceInfo info).trans checked)) rfl
        fails_iff
  | ready info complete check accepts addrs source joins =>
      exact .setUp (.inl rfl)
        (addressing_fillDefaults.trans ((addressing_updateDeviceInfo info).trans checked)) rfl
        (by simp [addrs])

end

theorem addrsDiffer_iff {system : SetupEnv} {iface : Interface}
    {addrs : List In6Addr} (stored : iface.props.ifAddrs = addrsArray addrs)
    (counted : iface.props.addrsCount = addrs.length)
    (linkLocal : HasLinkLocal (system.addrsOf iface.props.name)) :
    addrsDiffer system iface = true ↔ ¬addrs.Perm (system.addrsOf iface.props.name) := by
  rcases exists_linkLocal linkLocal with ⟨first, found⟩
  simp only [addrsDiffer, getIfaceAddrs_of_linkLocal found, stored, counted, Int.toNat_natCast,
    take_addrsArray, Bool.or_eq_true, decide_eq_true_eq, ne_eq, Nat.cast_inj]
  rw [← not_and_or, not_iff_not, ← mergeSort_eq_iff]
  constructor
  · rintro ⟨lengths, same⟩
    rw [lengths, take_addrsArray] at same
    exact same.symm
  · intro same
    have lengths := (mergeSort_eq_iff.mp same).length_eq
    rw [← lengths, take_addrsArray, lengths]
    exact ⟨rfl, same.symm⟩

/-- The event does not get to setting up the addresses. -/
def KeepsAddresses (iface : Interface) (event : IfaceEvent) : Prop :=
  ∀ env iface' ret, event = .setUp env → setupIface env iface = .ok (iface', ret) →
    -5 < ret ∧ ret < 0

theorem addressing_of_step {iface iface' : Interface} {event : IfaceEvent}
    (step : Guarded IfaceStep KeepsAddresses iface event iface') :
    iface'.addressing = iface.addressing := by
  rcases step with ⟨keeps, step⟩
  cases step with
  | @setUp _ env ret done =>
      have early := keeps env iface' ret rfl done
      cases setupIface_addressCase done with
      | before _ _ same => exact same
      | setUp ret_mem => omega
  | @sendRa env dest advertises => cases dest <;> rfl
  | @countRa dest =>
      unfold countRa
      split <;> rfl
  | setTimes => rfl
  | touch => rfl
  | cease => rfl
  | reset => rfl

theorem addressing_of_run {iface last : Interface} {events : List IfaceEvent}
    (run : Run (Guarded IfaceStep KeepsAddresses) iface events last) :
    last.addressing = iface.addressing := by
  induction run with
  | nil => rfl
  | cons first _ ih => exact ih.trans (addressing_of_step first)

/-- The parts that the comparison of `process_netlink_msg` reads. -/
theorem parts_of_addressing {iface iface' : Interface}
    (same : iface'.addressing = iface.addressing) :
    iface'.props.name = iface.props.name ∧ iface'.props.ifAddrs = iface.props.ifAddrs ∧
      iface'.props.addrsCount = iface.props.addrsCount := by
  have name := congrArg (fun parts => parts.1.name) same
  have ifAddrs := congrArg (fun parts => parts.1.ifAddrs) same
  have addrsCount := congrArg (fun parts => parts.1.addrsCount) same
  exact ⟨name, ifAddrs, addrsCount⟩

/-- After the addresses were set up, and until they are again, an address
notification touches the interface exactly if its addresses are others than
then. -/
theorem touches_iff {ifaces : List Interface} {iface after last : Interface} {env : SetupEnv}
    {ret : Int} {events : List IfaceEvent} {msg : NetlinkMsg} {position : Nat}
    (setUp : setupIface env iface = .ok (after, ret)) (addresses : ret = 0 ∨ ret < -5)
    (run : Run (Guarded IfaceStep KeepsAddresses) after events last)
    (address : msg.type = .newaddr ∨ msg.type = .deladdr)
    (found : netlinkIface ifaces msg = some (position, last))
    (linkLocal : HasLinkLocal (msg.system.addrsOf iface.props.name)) :
    (addrsDiffer msg.system last = true ↔
        ¬(env.addrsOf iface.props.name).Perm (msg.system.addrsOf iface.props.name)) ∧
      ((env.addrsOf iface.props.name).Perm (msg.system.addrsOf iface.props.name) →
        netlinkUpdate ifaces msg = ifaces) ∧
      (¬(env.addrsOf iface.props.name).Perm (msg.system.addrsOf iface.props.name) →
        netlinkUpdate ifaces msg = ifaces.set position (touchIface msg.now last) ∧
          (touchIface msg.now last).stateInfo.ready = false ∧
          (touchIface msg.now last).stateInfo.racount = 0) := by
  have kept := parts_of_addressing (addressing_of_run run)
  cases setupIface_addressCase setUp with
  | before ret_gt ret_neg => omega
  | @setUp known ret_mem same becomes fails_iff =>
  have succeeded : HasLinkLocal (env.addrsOf known.props.name) := by
    by_contra none
    have failed := fails_iff.mpr (setupIfaceAddrs_neg_iff.mpr none)
    omega
  have name := (parts_of_addressing same).1
  have stored := parts_of_addressing becomes
  rw [name_setupIfaceAddrs, ifAddrs_setupIfaceAddrs, addrsCount_setupIfaceAddrs,
    if_pos succeeded, name] at stored
  rw [← stored.1, ← kept.1] at linkLocal
  have differ := addrsDiffer_iff (kept.2.1.trans stored.2.1) (kept.2.2.trans stored.2.2) linkLocal
  rw [kept.1, stored.1] at differ
  have updates : netlinkUpdate ifaces msg = ifaces.set position
      (if addrsDiffer msg.system last then touchIface msg.now last else last) := by
    simp only [netlinkUpdate, found]
    rcases address with type | type <;> rw [netlinkTouch, type]
  refine ⟨differ, ?_, ?_⟩
  · intro perm
    rw [updates, if_neg (by simpa using differ.not.mpr (not_not.mpr perm))]
    exact set_of_getElem? (getElem?_of_netlinkIface found)
  · intro others
    rw [updates, if_pos (differ.mpr others)]
    exact ⟨rfl, rfl, rfl⟩

theorem touches_seeing :
    ∃ after, setupIface (.seeing [linkLocalAddr, globalAddr]) decrementing = .ok (after, 0) ∧
      netlinkUpdate [after] ⟨.newaddr, 2, none, .seeing [globalAddr, linkLocalAddr], ⟨100, 0⟩⟩ =
        [after] ∧
      netlinkUpdate [after] ⟨.deladdr, 2, none, .seeing [linkLocalAddr], ⟨100, 0⟩⟩ =
        [touchIface ⟨100, 0⟩ after] := by
  have seen : (setupIface (.seeing [linkLocalAddr, globalAddr]) decrementing).toOption.map
      (fun done => (done.1.props.ifIndex, done.2)) = some (2, 0) := by with_unfolding_all decide
  rcases setUp : setupIface (.seeing [linkLocalAddr, globalAddr]) decrementing with
    exit | ⟨after, ret⟩
  · rw [setUp] at seen
    cases seen
  rw [setUp] at seen
  simp only [Except.toOption, Option.map_some, Option.some_inj, Prod.mk.injEq] at seen
  obtain ⟨index, rfl⟩ := seen
  have found : ∀ msg : NetlinkMsg, msg.type ≠ .newlink → msg.index = 2 →
      netlinkIface [after] msg = some (0, after) := by
    intro msg other same
    unfold netlinkIface
    split
    · exact absurd ‹_› other
    · simp [findIfaceByIndex, findIface, index, same]
  have reordered := touches_iff setUp (.inl rfl) (.nil after) (.inl rfl)
    (found ⟨.newaddr, 2, none, .seeing [globalAddr, linkLocalAddr], ⟨100, 0⟩⟩ (by decide) rfl)
    ⟨linkLocalAddr, by decide, by decide⟩
  have removed := touches_iff setUp (.inl rfl) (.nil after) (.inr rfl)
    (found ⟨.deladdr, 2, none, .seeing [linkLocalAddr], ⟨100, 0⟩⟩ (by decide) rfl)
    ⟨linkLocalAddr, by decide, by decide⟩
  exact ⟨after, rfl, reordered.2.1 (by decide), (removed.2.2 (by decide)).1⟩

end Radvd
