import Radvd.Device

/-!
# Setting up an interface

`setup_iface` with its steps: the device index, the device flags, the device
information, the checks of `check_iface`, the addresses and the multicast group.

The answers of the system are collected in `SetupEnv`. For the ageing of
prefixes only the frame matters: setting up an interface leaves its times, its
prefixes and the decision to cease advertising alone (`Frame`).
-/

namespace Radvd

open Wire

structure IfFlags where
  up : Bool
  running : Bool
  multicast : Bool
  pointopoint : Bool
  deriving DecidableEq, Repr

/-- What the system answers while an interface is set up. -/
structure SetupEnv where
  ifNametoindex : Nat
  siocgifflags : Option IfFlags
  device : Device
  ifaceForwarding : ProcRead
  getifaddrs : Option (List Ifaddrs)
  joins : Bool
  deriving DecidableEq, Repr

def updateDeviceIndex (env : SetupEnv) (iface : Interface) : Interface × Int :=
  if env.ifNametoindex = 0 then (iface, -1)
  else ({ iface with props := { iface.props with ifIndex := env.ifNametoindex } }, 0)

def checkDevice (env : SetupEnv) (iface : Interface) : Interface × Int :=
  match env.siocgifflags with
  | none => (iface, -1)
  | some flags =>
      if !flags.up then (iface, -1)
      else if !flags.running then (iface, -1)
      else if !iface.unicastOnly && !(flags.multicast || flags.pointopoint) then
        ({ iface with unicastOnly := true }, 0)
      else (iface, 0)

/-! ## Checking the configuration -/

/-- `check_ip6_iface_forwarding`; the value is of advisory use only. -/
def checkIp6IfaceForwarding (env : SetupEnv) : Except Exit Int :=
  match env.ifaceForwarding with
  | .missing => .ok (-1)
  | .garbage => .error .checkIp6IfaceForwarding
  | .value value => .ok value.toInt

/-- The loop that looks for a prefix with `AdvRouterAddr`, with the position in
the list it ends at. -/
def findRouterAddr (mipv6 : Bool) : List AdvPrefix → Bool × List AdvPrefix
  | [] => (mipv6, [])
  | entry :: rest =>
      if mipv6 then (mipv6, entry :: rest)
      else findRouterAddr entry.advRouterAddr rest

def fillDefaults (iface : Interface) : Interface :=
  let iface :=
    if iface.minRtrAdvInterval < 0 then
      { iface with minRtrAdvInterval := 33 / 100 * iface.maxRtrAdvInterval }
    else iface
  let iface :=
    if iface.raHeaderInfo.advDefaultLifetime < 0 then
      { iface with
        raHeaderInfo := { iface.raHeaderInfo with
          advDefaultLifetime := max 1 ⌊3 * iface.maxRtrAdvInterval⌋ } }
    else iface
  if iface.mipv6.homeAgentLifetime < 0 then
    { iface with
      mipv6 := { iface.mipv6 with homeAgentLifetime := iface.raHeaderInfo.advDefaultLifetime } }
  else iface

/-- The checks of `check_iface`, each of which must hold; the checks of prefixes
start where the search for `AdvRouterAddr` stopped. -/
def ifaceChecks (iface : Interface) (mipv6 : Bool) (prefixes : List AdvPrefix) : List Bool :=
  [ !(iface.minRtrAdvInterval < (if mipv6 then 3 / 100 else 3) ||
        iface.minRtrAdvInterval > 3 / 4 * iface.maxRtrAdvInterval),
    !(iface.maxRtrAdvInterval < (if mipv6 then 7 / 100 else 4) ||
        iface.maxRtrAdvInterval > 65535),
    !(iface.minDelayBetweenRAs < (if mipv6 then 30 / 1000 else 3)),
    !(iface.advLinkMTU ≠ 0 &&
        (iface.advLinkMTU < 1280 ||
          (iface.sllao.ifMaxmtu ≠ -1 && iface.advLinkMTU > UInt32.ofInt iface.sllao.ifMaxmtu))),
    !(iface.raHeaderInfo.advReachableTime > 3600000),
    !(iface.raHeaderInfo.advDefaultLifetime ≠ 0 &&
        (iface.raHeaderInfo.advDefaultLifetime > 65535 ||
          (iface.raHeaderInfo.advDefaultLifetime : ℚ) < max 1 iface.maxRtrAdvInterval)),
    !(iface.mipv6.advHomeAgentInfo &&
        (iface.mipv6.homeAgentLifetime > 65520 || iface.mipv6.homeAgentLifetime < 1)),
    !(iface.mipv6.advHomeAgentInfo && !iface.raHeaderInfo.advHomeAgentFlag),
    !(iface.mipv6.advMobRtrSupportFlag && !iface.mipv6.advHomeAgentInfo),
    prefixes.all fun entry =>
      !(entry.prefixLen > 128) && !(entry.advPreferredLifetime > entry.advValidLifetime),
    iface.advRouteList.all fun route => !(route.prefixLen > 128)]

def checkIface (env : SetupEnv) (iface : Interface) : Except Exit (Interface × Int) := do
  let _ ← checkIp6IfaceForwarding env
  let (mipv6, prefixes) := findRouterAddr
    (iface.raHeaderInfo.advHomeAgentFlag || iface.mipv6.advHomeAgentInfo ||
      iface.mipv6.advIntervalOpt) iface.advPrefixList
  let iface := fillDefaults iface
  pure (iface, if (ifaceChecks iface mipv6 prefixes).all id then 0 else -1)

/-! ## Addresses -/

def cmpIfaceAddrs (a b : In6Addr) : Bool :=
  a.toList ≤ b.toList

def hasLlPrefix (addr : In6Addr) : Bool :=
  addr.toList.take 8 = [0xfe, 0x80, 0, 0, 0, 0, 0, 0]

def addrsOf (name : Bytes) (addresses : List Ifaddrs) : List In6Addr :=
  addresses.filterMap fun ifa =>
    match ifa.ifaAddr with
    | some (.inet6 addr _) => if ifa.ifaName = name then some addr else none
    | _ => none

/-- `get_iface_addrs`: `if_addr`, `if_addrs` with the unspecified address at its
end, and the return value. -/
def getIfaceAddrs (env : SetupEnv) (name : Bytes) (ifAddr : In6Addr) :
    In6Addr × List In6Addr × Int :=
  let addrs := addrsOf name (env.getifaddrs.getD [])
  let ifAddrs := addrs.mergeSort cmpIfaceAddrs ++ [In6Addr.unspecified]
  match addrs.find? hasLlPrefix with
  | none => (ifAddr, ifAddrs, -1)
  | some linkLocal => (linkLocal, ifAddrs, addrs.length)

def selectRasrc (srcs : List In6Addr) (ifAddrs : List In6Addr) : Option RaSrc :=
  (srcs.findSome? fun src => ifAddrs.findIdx? (· = src)).map .ifAddrs

def setupIfaceAddrs (env : SetupEnv) (iface : Interface) : Interface × Int :=
  let (ifAddr, ifAddrs, rc) := getIfaceAddrs env iface.props.name iface.props.ifAddr
  let props := { iface.props with ifAddr := ifAddr, ifAddrs := ifAddrs }
  if rc ≠ -1 then
    ({ iface with
      props := { props with
        addrsCount := rc.toNat
        ifAddrRasrc :=
          if iface.advRASrcAddressList ≠ [] then
            selectRasrc iface.advRASrcAddressList (ifAddrs.take rc.toNat)
          else some .ifAddr } }, rc)
  else ({ iface with props := props }, rc)

/-! ## All steps -/

def setupIface (env : SetupEnv) (iface : Interface) : Except Exit (Interface × Int) := do
  let iface := { iface with stateInfo := { iface.stateInfo with changed := false, ready := false } }
  let (iface, ret) := updateDeviceIndex env iface
  if ret < 0 then return (iface, -1)
  let (iface, ret) := checkDevice env iface
  if ret < 0 then return (iface, -2)
  let (iface, ret) ← updateDeviceInfo env.device iface
  if ret < 0 then return (iface, -3)
  let (iface, ret) ← checkIface env iface
  if ret < 0 then return (iface, -4)
  let (iface, ret) := setupIfaceAddrs env iface
  if ret < 0 then return (iface, -5)
  if iface.props.ifAddrRasrc = none then return (iface, -6)
  if !env.joins then return (iface, -7)
  return ({ iface with stateInfo := { iface.stateInfo with ready := true } }, 0)

/-- The parts of an interface that no step of the set-up touches. -/
structure Frame (before after : Interface) : Prop where
  times_eq : after.times = before.times
  prefixes_eq : after.advPrefixList = before.advPrefixList
  cease_eq : after.stateInfo.ceaseAdv = before.stateInfo.ceaseAdv

theorem Frame.refl (iface : Interface) : Frame iface iface :=
  ⟨rfl, rfl, rfl⟩

theorem Frame.trans {first second third : Interface} (one : Frame first second)
    (two : Frame second third) : Frame first third :=
  ⟨two.times_eq.trans one.times_eq, two.prefixes_eq.trans one.prefixes_eq,
    two.cease_eq.trans one.cease_eq⟩

/-- An interface about whose device something was found out. -/
structure Remeasured (before after : Interface) : Prop where
  unicastOnly_of : before.unicastOnly = true → after.unicastOnly = true
  name_eq : after.props.name = before.props.name
  rest_eq : after = { before with
    unicastOnly := after.unicastOnly
    props := after.props
    sllao := after.sllao }

theorem Remeasured.refl (iface : Interface) : Remeasured iface iface :=
  ⟨id, rfl, rfl⟩

theorem Remeasured.trans {first second third : Interface} (one : Remeasured first second)
    (two : Remeasured second third) : Remeasured first third := by
  refine ⟨two.unicastOnly_of ∘ one.unicastOnly_of, two.name_eq.trans one.name_eq, ?_⟩
  have both := two.rest_eq
  rw [one.rest_eq] at both
  exact both

theorem Remeasured.frame {before after : Interface} (measured : Remeasured before after) :
    Frame before after := by
  rw [measured.rest_eq]
  exact ⟨rfl, rfl, rfl⟩

section

variable {env : SetupEnv} {iface iface' : Interface} {ret : Int}

theorem remeasured_updateDeviceIndex : Remeasured iface (updateDeviceIndex env iface).1 := by
  simp only [updateDeviceIndex]
  split <;> exact ⟨id, rfl, rfl⟩

theorem remeasured_checkDevice : Remeasured iface (checkDevice env iface).1 := by
  simp only [checkDevice]
  split
  · exact Remeasured.refl _
  · split_ifs <;> exact ⟨fun on => (by simp [on]), rfl, rfl⟩

/-- If the device information is complete, the hardware address fits. -/
theorem remeasured_updateDeviceInfo {device : Device}
    (done : updateDeviceInfo device iface = .ok (iface', ret)) :
    Remeasured iface iface' ∧ (¬ret < 0 → iface'.sllao.ifHwaddrLen ≤ 128) := by
  rw [updateDeviceInfo] at done
  rcases mtu : device.siocgifmtu with _ | ifrMtu
  · rw [mtu] at done
    cases done
    exact ⟨Remeasured.refl _, fun succeeded => absurd (by decide) succeeded⟩
  rcases read : getInterfaceLinkmtu device with exit | linkmtu
  · rw [mtu, read] at done
    cases done
  rcases hwaddr : device.siocgifhwaddr with _ | ⟨type, saData⟩
  · rw [mtu, read, hwaddr] at done
    cases done
    exact ⟨⟨id, rfl, rfl⟩, fun succeeded => absurd (by decide) succeeded⟩
  rw [mtu, read, hwaddr] at done
  simp only [Bind.bind, Except.bind] at done
  split at done
  · cases done
    exact ⟨⟨id, rfl, rfl⟩, fun succeeded => absurd (by decide) succeeded⟩
  · rename_i short
    split at done
    · rename_i known
      cases done
      refine ⟨⟨id, rfl, rfl⟩, fun _ => ?_⟩
      have bound := not_and.mp short known
      unfold hwaddrLenBytes at bound
      simp only [Interface.setMaxRaOptionSize, copyHwaddr]
      omega
    · rename_i unknown
      cases done
      refine ⟨⟨id, rfl, rfl⟩, fun _ => ?_⟩
      simp only [ne_eq, not_not] at unknown
      exact le_of_eq_of_le unknown (by decide)

theorem remeasured_setupIfaceAddrs : Remeasured iface (setupIfaceAddrs env iface).1 := by
  unfold setupIfaceAddrs
  dsimp only
  split <;> exact ⟨id, rfl, rfl⟩

theorem checkIface_eq (done : checkIface env iface = .ok (iface', ret)) :
    iface' = fillDefaults iface := by
  rw [checkIface] at done
  rcases forwarding : checkIp6IfaceForwarding env with exit | value
  · rw [forwarding] at done
    cases done
  · rw [forwarding] at done
    cases done
    rfl

def Interface.unready (iface : Interface) : Interface :=
  { iface with stateInfo := { iface.stateInfo with changed := false, ready := false } }

def Interface.readied (iface : Interface) : Interface :=
  { iface with stateInfo := { iface.stateInfo with ready := true } }

/-- How far a set-up gets: to the device, to the checks, or to its end. -/
inductive SetupCase (env : SetupEnv) (iface : Interface) : Interface → Int → Prop where
  | device {iface' : Interface} {ret : Int} (failed : ret < 0) (measured : Remeasured iface.unready iface') :
      SetupCase env iface iface' ret
  | checked {known iface' : Interface} {ret : Int} (measured : Remeasured iface.unready known)
      (failed : ret < 0) (filled : Remeasured (fillDefaults known) iface') : SetupCase env iface iface' ret
  | ready {known : Interface} {ret : Int} (measured : Remeasured iface.unready known)
      (hwaddr : known.sllao.ifHwaddrLen ≤ 128)
      (check : checkIface env known = .ok (fillDefaults known, ret)) (accepts : ¬ret < 0)
      (addrs : ¬(setupIfaceAddrs env (fillDefaults known)).2 < 0)
      (source : (setupIfaceAddrs env (fillDefaults known)).1.props.ifAddrRasrc ≠ none)
      (joins : env.joins = true) :
      SetupCase env iface (setupIfaceAddrs env (fillDefaults known)).1.readied 0

/-- Where a set-up stops, with what the steps before have found. -/
inductive SetupStage (env : SetupEnv) (iface : Interface) : Interface → Int → Prop where
  | index : SetupStage env iface (updateDeviceIndex env iface.unready).1 (-1)
  | device : SetupStage env iface
      (checkDevice env (updateDeviceIndex env iface.unready).1).1 (-2)
  | info {known : Interface} {knownRet : Int}
      (info : updateDeviceInfo env.device
        (checkDevice env (updateDeviceIndex env iface.unready).1).1 = .ok (known, knownRet)) :
      SetupStage env iface known (-3)
  | check {known : Interface} {knownRet ret : Int}
      (info : updateDeviceInfo env.device
        (checkDevice env (updateDeviceIndex env iface.unready).1).1 = .ok (known, knownRet))
      (check : checkIface env known = .ok (fillDefaults known, ret)) (failed : ret < 0) :
      SetupStage env iface (fillDefaults known) (-4)
  | addrs {known : Interface} {knownRet ret last : Int}
      (info : updateDeviceInfo env.device
        (checkDevice env (updateDeviceIndex env iface.unready).1).1 = .ok (known, knownRet))
      (check : checkIface env known = .ok (fillDefaults known, ret)) (last_le : last ≤ -5)
      (fails_iff : last = -5 ↔ (setupIfaceAddrs env (fillDefaults known)).2 < 0) :
      SetupStage env iface (setupIfaceAddrs env (fillDefaults known)).1 last
  | ready {known : Interface} {knownRet ret : Int}
      (info : updateDeviceInfo env.device
        (checkDevice env (updateDeviceIndex env iface.unready).1).1 = .ok (known, knownRet))
      (complete : ¬knownRet < 0) (check : checkIface env known = .ok (fillDefaults known, ret))
      (accepts : ¬ret < 0) (addrs : ¬(setupIfaceAddrs env (fillDefaults known)).2 < 0)
      (source : (setupIfaceAddrs env (fillDefaults known)).1.props.ifAddrRasrc ≠ none)
      (joins : env.joins = true) :
      SetupStage env iface (setupIfaceAddrs env (fillDefaults known)).1.readied 0

theorem setupIface_stage (done : setupIface env iface = .ok (iface', ret)) :
    SetupStage env iface iface' ret := by
  rw [setupIface] at done
  dsimp only at done
  change (if _ then _ else if _ then _ else do
    let (iface, ret) ← updateDeviceInfo env.device
      (checkDevice env (updateDeviceIndex env iface.unready).1).1
    if ret < 0 then return (iface, -3)
    _) = _ at done
  split at done
  · cases done
    exact .index
  split at done
  · cases done
    exact .device
  rcases info : updateDeviceInfo env.device
      (checkDevice env (updateDeviceIndex env iface.unready).1).1 with exit | ⟨known, knownRet⟩
  · rw [info] at done
    cases done
  rw [info] at done
  simp only [Bind.bind, Except.bind] at done
  split at done
  · cases done
    exact .info info
  rename_i complete
  rcases check : checkIface env known with exit | ⟨checked, checkedRet⟩
  · rw [check] at done
    cases done
  rw [check] at done
  dsimp only at done
  have filled := checkIface_eq check
  subst filled
  split at done
  · cases done
    exact .check info check ‹_›
  rename_i accepts
  split_ifs at done with addrs source joined
  · cases done
    exact .addrs info check (by decide) (by simp [addrs])
  · cases done
    exact .addrs info check (by decide) (by simp [addrs])
  · cases done
    exact .addrs info check (by decide) (by simp [addrs])
  · cases done
    exact .ready info complete check accepts addrs source (by simpa using joined)

theorem setupIface_cases (done : setupIface env iface = .ok (iface', ret)) :
    SetupCase env iface iface' ret := by
  have indexed := @remeasured_updateDeviceIndex env iface.unready
  have measured := indexed.trans (@remeasured_checkDevice env _)
  cases setupIface_stage done with
  | index => exact .device (by decide) indexed
  | device => exact .device (by decide) measured
  | info info =>
      exact .device (by decide) (measured.trans (remeasured_updateDeviceInfo info).1)
  | check info check failed =>
      exact .checked (measured.trans (remeasured_updateDeviceInfo info).1) (by decide) (.refl _)
  | addrs info check last_le fails_iff =>
      exact .checked (measured.trans (remeasured_updateDeviceInfo info).1) (by omega)
        remeasured_setupIfaceAddrs
  | ready info complete check accepts addrs source joins =>
      have known := remeasured_updateDeviceInfo info
      exact .ready (measured.trans known.1) (known.2 complete) check accepts addrs source joins

theorem frame_fillDefaults : Frame iface (fillDefaults iface) := by
  unfold fillDefaults
  dsimp only
  split_ifs <;> exact ⟨rfl, rfl, rfl⟩

/-- Setting up an interface touches neither its times nor its prefixes. -/
theorem frame_setupIface (done : setupIface env iface = .ok (iface', ret)) :
    Frame iface iface' := by
  have started : Frame iface iface.unready := ⟨rfl, rfl, rfl⟩
  cases setupIface_cases done with
  | device _ measured => exact started.trans measured.frame
  | checked measured _ filled =>
      exact started.trans (measured.frame.trans (frame_fillDefaults.trans filled.frame))
  | ready measured =>
      have framed := started.trans (measured.frame.trans
        (frame_fillDefaults.trans (@remeasured_setupIfaceAddrs env _).frame))
      exact ⟨framed.times_eq, framed.prefixes_eq, framed.cease_eq⟩

end

end Radvd
