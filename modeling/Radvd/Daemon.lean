import Radvd.Library.Runs
import Radvd.Setup
import Radvd.Times

/-!
# Sending router advertisements

`check_ip6_forwarding` with its static variable, `send_ra`, `send_ra_forall` and
the functions of `radvd.c` that call them at start-up and at signals.

Every function takes the answers of the system that it asks for, such as clock
readings and procfs values, as an argument, and returns what is transmitted
together with the changed state. The model is that of the build with netlink.
-/

namespace Radvd

open Wire

/-- What `check_ip6_forwarding` reads. An entry that is missing from procfs in a
build without `sysctl` reads as -1. -/
inductive ForwardingRead where
  | garbage
  /-- There is neither a procfs entry nor a `sysctl` branch. -/
  | unavailable
  | value (value : Int32)
  deriving DecidableEq, Repr

def ForwardingRead.isDisabled : ForwardingRead → Bool
  | .value setting => setting ≠ 1 && setting ≠ 2
  | _ => false

/-- `check_ip6_forwarding`: whether the result is not zero, and the static
variable `warned` after the call. -/
def checkIp6Forwarding (read : ForwardingRead) (warned : Bool) : Except Exit (Bool × Bool) :=
  match read with
  | .garbage => .error .checkIp6Forwarding
  | .unavailable => .ok (false, warned)
  | .value value =>
      if !warned && value ≠ 1 && value ≠ 2 then .ok (true, true) else .ok (false, warned)

/-- The answers of the system to one call of `send_ra`. -/
structure SendEnv where
  order : ByteOrder
  kernel : Kernel
  multicastTime : Timespec
  now : Timespec
  forwarding : ForwardingRead
  /-- Which calls of `really_send` succeed. -/
  reallySend : Nat → Bool

def allHostsAddr : In6Addr :=
  ⟨#[0xff, 0x02, 0, 0, 0, 0, 0, 0, 0, 0, 0, 0, 0, 0, 0, 1], rfl⟩

structure SendOutcome where
  iface : Interface
  warned : Bool
  sent : List Bytes
  status : SendStatus

/-- The part of `send_ra` before its loop: the static variable, the header and
the option blocks. -/
def buildRa (env : SendEnv) (warned : Bool) (iface : Interface) (dest : In6Addr) :
    Except Exit (Bool × Bytes × List Bytes) := do
  let (ceaseAdv, warned) ←
    if iface.stateInfo.ceaseAdv then pure (true, warned)
    else checkIp6Forwarding env.forwarding warned
  let raHdr ← addRaHeader SafeBuffer.new iface.raHeaderInfo ceaseAdv
  let raOpts ← buildRaOptions env.order env.kernel iface dest
  pure (warned, raHdr.bytes, raOpts.blocks)

def noteMulticast (env : SendEnv) (iface : Interface) (dest : Option In6Addr) : Interface :=
  match dest with
  | none => { iface with times := { iface.times with lastMulticast := env.multicastTime } }
  | some _ => iface

def agedIface (env : SendEnv) (iface : Interface) (dest : Option In6Addr) : Interface :=
  updateIfaceTimes env.now (noteMulticast env iface dest)

def sendRa (env : SendEnv) (warned : Bool) (iface : Interface) (dest : Option In6Addr) :
    SendOutcome :=
  if !iface.advSendAdvert then ⟨iface, warned, [], .done⟩
  else
    let iface := agedIface env iface dest
    match buildRa env warned iface (dest.getD allHostsAddr) with
    | .error exit => ⟨iface, warned, [], .exited exit⟩
    | .ok (warned, raHdr, raOpts) =>
        let result := sendOptions raHdr iface.props.maxRaOptionSize.toNat env.reallySend raOpts
        ⟨iface, warned, result.sent, result.status⟩

/-! ## All clients of an interface -/

/-- The loop of `send_ra_forall` over the client list: the destinations of the
RAs it sends, and whether it returns from the function. -/
def clientDests (dest : Option In6Addr) : List Clients → List (Option In6Addr) × Bool
  | [] => ([], false)
  | current :: rest =>
      if dest ≠ none ∧ dest ≠ some current.address then clientDests dest rest
      else if current.ignored then
        if dest ≠ none then ([], true) else clientDests dest rest
      else if dest ≠ none then ([some current.address], true)
      else (some current.address :: (clientDests dest rest).1, (clientDests dest rest).2)

def raDests (iface : Interface) (dest : Option In6Addr) : List (Option In6Addr) :=
  if iface.clientList = [] then
    if dest = none ∧ iface.unicastOnly then [] else [dest]
  else
    let (dests, returned) := clientDests dest iface.clientList
    if returned || dest = none then dests
    else if iface.unrestrictedUnicast then dests ++ [dest]
    else dests

structure ForallOutcome where
  iface : Interface
  warned : Bool
  transmissions : List (In6Addr × List Bytes)
  exit : Option Exit

/-- Send RAs to the given destinations, the `index`-th of them with the answers
`envs index`. -/
def sendRas (envs : Nat → SendEnv) (index : Nat) (warned : Bool) (iface : Interface) :
    List (Option In6Addr) → ForallOutcome
  | [] => ⟨iface, warned, [], none⟩
  | dest :: rest =>
      let outcome := sendRa (envs index) warned iface dest
      match outcome.status with
      | .exited exit =>
          ⟨outcome.iface, outcome.warned, [(dest.getD allHostsAddr, outcome.sent)], some exit⟩
      | _ =>
          let later := sendRas envs (index + 1) outcome.warned outcome.iface rest
          { later with
            transmissions := (dest.getD allHostsAddr, outcome.sent) :: later.transmissions }

def ensureIfaceSetup (setup : SetupEnv) (iface : Interface) : Except Exit Interface :=
  if iface.stateInfo.changed then (setupIface setup iface).map Prod.fst else .ok iface

def countRa (iface : Interface) (dest : Option In6Addr) : Interface :=
  if iface.stateInfo.racount < maxInitialRtrAdvertisements ∧ dest = none then
    { iface with stateInfo := { iface.stateInfo with racount := iface.stateInfo.racount + 1 } }
  else iface

def sendRaForall (setup : SetupEnv) (envs : Nat → SendEnv) (warned : Bool) (iface : Interface)
    (dest : Option In6Addr) : ForallOutcome :=
  match ensureIfaceSetup setup iface with
  | .error exit => ⟨iface, warned, [], some exit⟩
  | .ok iface =>
      if !iface.stateInfo.ready then ⟨iface, warned, [], none⟩
      else
        let iface := countRa iface dest
        sendRas envs 0 warned iface (raDests iface dest)

/-! ## Start-up and netlink events -/

def rescheduleIface (now : Timespec) (iface : Interface) (next : ℚ) : Interface :=
  let next :=
    if !iface.stateInfo.changed && !iface.stateInfo.ready then 10 * iface.maxRtrAdvInterval
    else if next = 0 then 1
    else if iface.stateInfo.racount < maxInitialRtrAdvertisements then
      min maxInitialRtrAdvertInterval iface.maxRtrAdvInterval
    else next
  { iface with times := { iface.times with nextMulticast := nextTimespec now next } }

def touchIface (now : Timespec) (iface : Interface) : Interface :=
  let iface :=
    { iface with
      stateInfo := { iface.stateInfo with changed := true, ready := false, racount := 0 } }
  rescheduleIface now iface 0

structure KickoffEnv where
  now : Timespec
  multicastTime : Timespec
  setup : SetupEnv
  envs : Nat → SendEnv
  rescheduleTime : Timespec

def kickoffAdverts (env : KickoffEnv) (warned : Bool) (iface : Interface) : ForallOutcome :=
  let iface := { iface with times := { iface.times with lastRaTime := env.now } }
  if iface.unicastOnly then ⟨iface, warned, [], none⟩
  else
    let iface := { iface with times := { iface.times with lastMulticast := env.multicastTime } }
    let outcome := sendRaForall env.setup env.envs warned iface none
    match outcome.exit with
    | some _ => outcome
    | none =>
        { outcome with
          iface := rescheduleIface env.rescheduleTime outcome.iface
            (min maxInitialRtrAdvertInterval outcome.iface.maxRtrAdvInterval) }

/-- `RAND_MAX + 1` of the C library. -/
def randBound : Nat := 2147483648

/-- A result of `rand()`. -/
abbrev Rand := Fin 2147483648

instance neZero_randBound : NeZero 2147483648 :=
  ⟨by decide⟩

def randBetween (lower upper : ℚ) (rand : Rand) : ℚ :=
  (upper - lower) / randBound * rand.val + lower

/-- The interface of an outcome is given its next random interval. -/
def ForallOutcome.rescheduled (outcome : ForallOutcome) (now : Timespec) (rand : Rand) :
    ForallOutcome :=
  match outcome.exit with
  | some _ => outcome
  | none =>
      { outcome with
        iface := rescheduleIface now outcome.iface
          (randBetween outcome.iface.minRtrAdvInterval outcome.iface.maxRtrAdvInterval rand) }

structure TimerEnv where
  setup : SetupEnv
  envs : Nat → SendEnv
  intervalRand : Rand
  rescheduleTime : Timespec

def timerHandler (env : TimerEnv) (warned : Bool) (iface : Interface) : ForallOutcome :=
  (sendRaForall env.setup env.envs warned iface none).rescheduled env.rescheduleTime
    env.intervalRand

structure StopEnv where
  setup : SetupEnv
  envs : Nat → SendEnv

def stopAdvertFoo (env : StopEnv) (warned : Bool) (iface : Interface) : ForallOutcome :=
  if !iface.unicastOnly && iface.removeAdvOnExit then
    sendRaForall env.setup env.envs warned
      { iface with stateInfo := { iface.stateInfo with ceaseAdv := true } } none
  else ⟨iface, warned, [], none⟩

/-- `setup_iface_foo`; `config_interface` only writes to the system. -/
def setupIfaceFoo (setup : SetupEnv) (kickoff : KickoffEnv) (warned : Bool)
    (iface : Interface) : ForallOutcome :=
  match setupIface setup iface with
  | .error exit => ⟨iface, warned, [], some exit⟩
  | .ok (iface, ret) =>
      if ret < 0 then
        if iface.ignoreIfMissing then ⟨iface, warned, [], none⟩
        else ⟨iface, warned, [], some .setupIfaceFoo⟩
      else kickoffAdverts kickoff warned iface

/-! ## All interfaces -/

/-- The interfaces of the daemon and the static variable of
`check_ip6_forwarding`. -/
structure Daemon where
  ifaces : List Interface
  warned : Bool

/-- An RA for the interface at this position of the list. -/
structure Sent where
  position : Nat
  dest : In6Addr
  messages : List Bytes
  deriving DecidableEq, Repr

structure DaemonOutcome where
  daemon : Daemon
  sent : List Sent
  exit : Option Exit

def DaemonOutcome.unchanged (daemon : Daemon) : DaemonOutcome :=
  ⟨daemon, [], none⟩

/-- Put the outcome for the interface at `position` back into the list. -/
def Daemon.settle (daemon : Daemon) (position : Nat) (outcome : ForallOutcome) : DaemonOutcome where
  daemon := ⟨daemon.ifaces.set position outcome.iface, outcome.warned⟩
  sent := outcome.transmissions.map fun sent => ⟨position, sent.1, sent.2⟩
  exit := outcome.exit

/-- The first interface with some property and its position in the list. -/
def findIface (ifaces : List Interface) (wanted : Interface → Bool) : Option (Nat × Interface) :=
  (ifaces.zipIdx.find? fun entry => wanted entry.1).map Prod.swap

def findIfaceByIndex (ifaces : List Interface) (index : Nat) : Option (Nat × Interface) :=
  findIface ifaces fun iface => iface.props.ifIndex = index

theorem findIface_spec {ifaces : List Interface} {wanted : Interface → Bool} {position : Nat}
    {iface : Interface} (found : findIface ifaces wanted = some (position, iface)) :
    ifaces[position]? = some iface ∧ wanted iface = true := by
  simp only [findIface, Option.map_eq_some_iff] at found
  rcases found with ⟨⟨other, place⟩, first, swapped⟩
  cases swapped
  have listed := List.mem_zipIdx_iff_getElem?.mp (List.mem_of_find?_eq_some first)
  have right := List.find?_some first
  exact ⟨listed, right⟩

theorem set_of_getElem? {α : Type} {entries : List α} {position : Nat} {entry : α}
    (found : entries[position]? = some entry) : entries.set position entry = entries := by
  rcases List.getElem?_eq_some_iff.mp found with ⟨bound, rfl⟩
  exact List.set_getElem_self bound

/-- `stop_adverts`: the interfaces from `position` on, the answers for each of
them at its position. -/
def stopAdvertsFrom (envs : Nat → StopEnv) (position : Nat) (warned : Bool) :
    List Interface → DaemonOutcome
  | [] => ⟨⟨[], warned⟩, [], none⟩
  | iface :: rest =>
      let outcome := stopAdvertFoo (envs position) warned iface
      let sent := outcome.transmissions.map fun sent => ⟨position, sent.1, sent.2⟩
      match outcome.exit with
      | some exit => ⟨⟨outcome.iface :: rest, outcome.warned⟩, sent, some exit⟩
      | none =>
          let later := stopAdvertsFrom envs (position + 1) outcome.warned rest
          ⟨⟨outcome.iface :: later.daemon.ifaces, later.daemon.warned⟩, sent ++ later.sent,
            later.exit⟩

def stopAdverts (envs : Nat → StopEnv) (daemon : Daemon) : DaemonOutcome :=
  stopAdvertsFrom envs 0 daemon.warned daemon.ifaces

end Radvd
