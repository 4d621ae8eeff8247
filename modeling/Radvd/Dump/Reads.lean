import Radvd.Dump.PrintFf
import Radvd.Library.Access

/-!
# What `print_ff` reads of a message

The functions of `print_ff` once more, as computations that record the octets
they read and note the statements they print. What they print is what the
functions of `Radvd.Dump.PrintFf` print (`notes_printFf`).

`print_ff` reads the header, the Prefix Information options and the Timestamp
options as structures of a fixed size, whatever their length, and it copies a
label of a search list with the length the label announces. It stays inside the
message if and only if these do (`printFf_inside_iff`).
-/

namespace Radvd.Dump.Recorded

open Wire Tlv Access

abbrev Printing := Access Statement

def printHeader (mem : Memory) (edefs : Bool) : Printing Unit := do
  let flags ← load8 mem 5
  emit (printFlag edefs false .advManagedFlag flags ndRaFlagManaged)
  emit (printFlag edefs false .advOtherConfigFlag flags ndRaFlagOther)
  let reachable ← load32 mem 8
  emit (printNumber edefs 0 .advReachableTime reachable.toNat)
  let retransmit ← load32 mem 12
  emit (printNumber edefs 0 .advRetransTimer retransmit.toNat)
  let curhoplimit ← load8 mem 4
  emit (printNumber edefs 64 .advCurHopLimit curhoplimit.toNat)
  let routerLifetime ← load16 mem 6
  emit (printNumber edefs 1800 .advDefaultLifetime routerLifetime.toNat)
  emit (printFlag edefs false .advHomeAgentFlag flags ndRaFlagHomeAgent)
  emit (printFlag edefs false .advSNACRouterFlag flags ndRaFlagSnacRouter)
  emit (if !edefs || preferenceOf flags ≠ .medium then
    [.setting .advDefaultPreference (.preference (preferenceOf flags))] else [])

/-! ## Settings of the interface -/

def printHomeAgentInfo (order : ByteOrder) (mem : Memory) (edefs : Bool) (optStr : Nat) :
    Printing Unit := do
  emit [.setting .advHomeAgentInfo (.flag true)]
  let flagsReserved ← load order.load16 2 mem (optStr + 2)
  let flags := flagsReserved &&& ndOptHaiFlagSupportMr order
  emit (if !edefs || 0 ≠ flags then [.setting .advMobRtrSupportFlag (.flag (flags ≠ 0))] else [])
  let preference ← load16 mem (optStr + 4)
  emit (printNumber edefs 0 .homeAgentPreference preference.toNat)
  let haLifetime ← load16 mem (optStr + 6)
  emit (printNumber edefs 1800 .homeAgentLifetime haLifetime.toNat)

def printCaptivePortal (mem : Memory) (visit : Visit) : Printing Unit := do
  let text ← loadString mem (visit.offset + 2) (visit.optlen - 2)
  emit [.setting .advCaptivePortalAPI (.text (sanitized text))]

def printTimestamp (mem : Memory) (optStr : Nat) : Printing Unit := do
  let high ← load16 mem (optStr + 8)
  let low ← load32 mem (optStr + 10)
  let fracs ← load16 mem (optStr + 14)
  emit [.setting .advTimestamp (.timestamp (high.toNat * 2 ^ 32 + low.toNat) fracs.toNat)]

def printOption (order : ByteOrder) (mem : Memory) (edefs : Bool) (visit : Visit) :
    Printing Unit := do
  let type ← load8 mem visit.offset
  if type = ndOptMtu then
    let mtu ← load32 mem (visit.offset + 4)
    emit (printNumber edefs 0 .advLinkMTU mtu.toNat)
  else if type = ndOptSourceLinkaddr then
    emit (if !edefs || !true then [.setting .advSourceLLAddress (.flag true)] else [])
  else if type = ndOptRtrAdvInterval then
    emit (if !edefs || !false then [.setting .advIntervalOpt (.flag true)] else [])
  else if type = ndOptHomeAgentInfo then printHomeAgentInfo order mem edefs visit.offset
  else if type = ndOptCaptivePortal then printCaptivePortal mem visit
  else if type = ndOptTimestamp then printTimestamp mem visit.offset
  else if type = ndOptTargetLinkaddr || type = ndOptRedirectedHeader then
    emit [.log (.invalidOption type)]
  else if type = ndOptPrefixInformation || type = ndOptRouteInformation ||
      type = ndOptRdnssInformation || type = ndOptDnsslInformation || type = ndOptPref64 then
    pure ()
  else emit [.log (.unknownOption type)]

/-! ## Blocks -/

/-- The first `count` octets of an address, the others being zero. -/
def loadAddr (mem : Memory) (offset count : Nat) : Printing In6Addr :=
  load (fun mem offset => addrAt mem offset count) count mem offset

def printPrefix (mem : Memory) (edefs : Bool) (optStr : Nat) : Printing Unit := do
  let prefixAddr ← loadAddr mem (optStr + 16) 16
  let prefixLen ← load8 mem (optStr + 2)
  emit [.opens (.prefixInfo prefixAddr prefixLen.toNat)]
  let validTime ← load32 mem (optStr + 4)
  emit (printLifetime edefs 86400 .advValidLifetime validTime)
  let preferredTime ← load32 mem (optStr + 8)
  emit (printLifetime edefs 14400 .advPreferredLifetime preferredTime)
  let flags ← load8 mem (optStr + 3)
  emit (printFlag edefs true .advOnLink flags ndOptPiFlagOnlink)
  emit (printFlag edefs true .advAutonomous flags ndOptPiFlagAuto)
  emit (printFlag edefs false .advRouterAddr flags ndOptPiFlagRaddr)
  emit (printFlag edefs false .advDHCPv6PDPreferred flags ndOptPiFlagDhcpv6PdPref)
  emit [.closes]

def printRouteSettings (mem : Memory) (edefs : Bool) (optStr : Nat) : Printing Unit := do
  let headerFlags ← if edefs then load8 mem 5 else pure 0
  if !edefs || preferenceOf headerFlags ≠ .medium then
    let flags ← load8 mem (optStr + 3)
    emit [.setting .advRoutePreference (.preference (preferenceOf flags))]
  let routeLifetime ← load32 mem (optStr + 4)
  emit [.setting .advRouteLifetime (lifetime routeLifetime), .closes]

def printRoute (mem : Memory) (edefs : Bool) (visit : Visit) : Printing Unit := do
  if visit.optlen = 8 then
    emit [.opens (.route In6Addr.unspecified 0)]
    printRouteSettings mem edefs visit.offset
  else
    let riLen ← load8 mem (visit.offset + 1)
    let riPrefixLen ← load8 mem (visit.offset + 2)
    if riLen > 3 || riLen = 0 || (riPrefixLen > 64 && riLen < 3) ||
        (riPrefixLen > 0 && riLen < 1) then
      emit [.log (.invalidRouteLength riLen), .invalidRouteLength riLen]
    else
      let addr ← loadAddr mem (visit.offset + 8) (if riLen > 1 then (riLen.toNat - 1) * 8 else 0)
      emit [.opens (.route addr riPrefixLen.toNat)]
      printRouteSettings mem edefs visit.offset

/-- The loop over the addresses of an RDNSS option, of which `count` are left. -/
def loadAddrs (mem : Memory) (offset : Nat) : Nat → Printing (List In6Addr)
  | 0 => pure []
  | count + 1 => do
      let addr ← loadAddr mem offset 16
      let rest ← loadAddrs mem (offset + 16) count
      pure (addr :: rest)

def printRdnss (mem : Memory) (optStr : Nat) : Printing Unit := do
  let rdnssiLen ← load8 mem (optStr + 1)
  if rdnssiLen ≥ 3 && rdnssiLen % 2 = 1 then
    let addrs ← loadAddrs mem (optStr + 8) ((rdnssiLen.toNat - 1) / 2)
    emit [.opens (.rdnss addrs)]
    let rdnssLifetime ← load32 mem (optStr + 4)
    emit [.setting .advRDNSSLifetime (lifetime rdnssLifetime), .closes]
  else emit [.log (.invalidRdnssLength rdnssiLen), .invalidRdnssLength rdnssiLen]

def dnsslLoop (mem : Memory) (suffixes limit offset : Nat) (suffix : Bytes) :
    Printing (List Bytes × Bool) :=
  if offset < limit then do
    let octet ← load8 mem (suffixes + offset)
    let labelLen := octet.toNat
    if labelLen = 0 then
      let rest ← dnsslLoop mem suffixes limit (offset + 1) []
      pure (if suffix = [] then rest else (sanitized suffix :: rest.1, rest.2))
    else if 256 - suffix.length < labelLen + 2 then pure ([], true)
    else
      let label ← loadString mem (suffixes + (offset + 1)) labelLen
      dnsslLoop mem suffixes limit (offset + 1 + labelLen)
        (if suffix ≠ [] then suffix ++ 46 :: label else label)
  else pure ([], false)
termination_by limit - offset

def printDnssl (mem : Memory) (optStr : Nat) : Printing Unit := do
  let length ← load8 mem (optStr + 1)
  let (suffixes, oversized) ← dnsslLoop mem (optStr + 8) ((length.toNat - 1) * 8) 0 []
  emit (if oversized then [.log .oversizedSuffix] else [])
  emit [.opens (.dnssl suffixes)]
  let dnsslLifetime ← load32 mem (optStr + 4)
  emit [.setting .advDNSSLLifetime (lifetime dnsslLifetime), .closes]

def printPref64 (mem : Memory) (visit : Visit) : Printing Unit := do
  if visit.optlen ≠ 16 then emit [.log .incorrectPref64Length]
  else
    let lifetimePreflen ← load16 mem (visit.offset + 2)
    let prefixLengthCode := (lifetimePreflen &&& 7).toNat
    let prefixLifetime := (lifetimePreflen &&& 0xFFF8).toNat
    let nat64prefix ← loadAddr mem (visit.offset + 4) 12
    emit (if prefixLengthCode > 5 then [.log (.reservedLengthCode prefixLengthCode)] else [])
    emit [.opens (.nat64Prefix nat64prefix (prefixSize prefixLengthCode)),
      .setting .advValidLifetime (.number prefixLifetime), .closes]

def printBlock (mem : Memory) (edefs : Bool) (visit : Visit) : Printing Unit := do
  let type ← load8 mem visit.offset
  if type = ndOptPrefixInformation then printPrefix mem edefs visit.offset
  else if type = ndOptRouteInformation then printRoute mem edefs visit
  else if type = ndOptRdnssInformation then printRdnss mem visit.offset
  else if type = ndOptDnsslInformation then printDnssl mem visit.offset
  else if type = ndOptPref64 then printPref64 mem visit
  else pure ()

/-! ## The function -/

/-- The message about an option that is too long names its type. -/
def loadOverlongType (mem : Memory) (stop : Stop) : Printing Unit :=
  if stop.ending = .overlong then do
    let _ ← load8 mem stop.offset
    pure ()
  else pure ()

/-- One of the two loops over the options. -/
def pass (mem : Memory) (len : Nat) (print : Visit → Printing Unit) : Printing End := do
  let stop ← options mem (fun visit => do print visit; pure false) 16 (len - 16)
  loadOverlongType mem stop
  emit (logEnd stop.ending)
  pure stop.ending

/-- The second loop, which an option that is too long leaves out. -/
def secondPass (mem : Memory) (len : Nat) (edefs : Bool) (ending : End) : Printing Unit :=
  if ending = .overlong then pure ()
  else do
    let _ ← pass mem len (printBlock mem edefs)
    pure ()

def printFf (order : ByteOrder) (mem : Memory) (len : Nat) (edefs : Bool) : Printing Unit := do
  emit [.opens .interface]
  printHeader mem edefs
  if len = 16 then pure ()
  else
    let ending ← pass mem len (printOption order mem edefs)
    secondPass mem len edefs ending
    emit [.closes]

/-! ## What is printed -/

section

variable (order : ByteOrder) (mem : Memory) (edefs : Bool) (optStr : Nat) (visit : Visit)

theorem notes_printHeader : (printHeader mem edefs).notes = Dump.printHeader mem edefs := by
  have silent : ∀ rest : List Statement, [] ++ rest = rest := List.nil_append
  simp only [printHeader, Dump.printHeader, notes_bind, notes_load8, notes_load16, notes_load32,
    value_load8, value_load16, value_load32, notes_emit, silent, List.append_assoc]

theorem notes_printHomeAgentInfo :
    (printHomeAgentInfo order mem edefs optStr).notes =
      Dump.printHomeAgentInfo order mem edefs optStr := by
  simp [printHomeAgentInfo, Dump.printHomeAgentInfo]

theorem notes_printOption :
    (printOption order mem edefs visit).notes = Dump.printOption order mem edefs visit := by
  simp only [printOption, Dump.printOption, notes_bind, notes_load8, value_load8, List.nil_append,
    notes_ite, notes_load32, value_load32, notes_emit, notes_printHomeAgentInfo, notes_pure]
  simp [printCaptivePortal, Dump.printCaptivePortal, cString, printTimestamp, Dump.printTimestamp]

@[simp]
theorem notes_loadAddr (offset count : Nat) : (loadAddr mem offset count).notes = [] :=
  notes_load _ _ _ _

@[simp]
theorem value_loadAddr (offset count : Nat) :
    (loadAddr mem offset count).value = addrAt mem offset count :=
  value_load _ _ _ _

theorem notes_printPrefix : (printPrefix mem edefs optStr).notes = Dump.printPrefix mem edefs optStr := by
  have silent : ∀ rest : List Statement, [] ++ rest = rest := List.nil_append
  simp only [printPrefix, Dump.printPrefix, notes_bind, notes_loadAddr, value_loadAddr,
    notes_load8, notes_load32, value_load8, value_load32, notes_emit, silent, List.append_assoc]

theorem notes_printRouteSettings :
    (printRouteSettings mem edefs optStr).notes = Dump.printRouteSettings mem edefs optStr := by
  cases edefs
  · simp [printRouteSettings, Dump.printRouteSettings]
  · by_cases medium : preferenceOf (mem 5) = .medium <;>
      simp [printRouteSettings, Dump.printRouteSettings, medium]

theorem notes_printRoute : (printRoute mem edefs visit).notes = Dump.printRoute mem edefs visit := by
  unfold printRoute Dump.printRoute
  split
  · simp [notes_printRouteSettings]
  · simp only [notes_bind, notes_load8, value_load8, List.nil_append, notes_ite, notes_emit,
      notes_loadAddr, value_loadAddr, notes_printRouteSettings]
    split <;> rfl

theorem loadAddrs_spec (count offset : Nat) :
    (loadAddrs mem offset count).notes = [] ∧
      (loadAddrs mem offset count).value =
        (List.range count).map fun i => addrAt mem (offset + 16 * i) 16 := by
  induction count generalizing offset with
  | zero => exact ⟨rfl, rfl⟩
  | succ count ih =>
      constructor
      · simp [loadAddrs, (ih _).1]
      · simp [loadAddrs, (ih _).2, List.range_succ_eq_map, Nat.mul_add, Nat.add_assoc,
          Nat.add_comm 16]

theorem notes_printRdnss : (printRdnss mem optStr).notes = Dump.printRdnss mem optStr := by
  simp only [printRdnss, Dump.printRdnss, notes_bind, notes_load8, value_load8, List.nil_append,
    notes_ite, (loadAddrs_spec mem _ _).1, (loadAddrs_spec mem _ _).2, notes_emit, notes_load32,
    value_load32]
  split <;> rfl

theorem dnsslLoop_spec (suffixes limit offset : Nat) (suffix : Bytes) :
    (dnsslLoop mem suffixes limit offset suffix).notes = [] ∧
      (dnsslLoop mem suffixes limit offset suffix).value =
        Dump.dnsslLoop mem suffixes limit offset suffix := by
  fun_induction Dump.dnsslLoop mem suffixes limit offset suffix with
  | case1 offset before labelLen zero ih =>
      unfold dnsslLoop
      simp only [labelLen] at zero
      simp [before, zero, ih]
  | case2 offset suffix before labelLen zero filled rest ih =>
      unfold dnsslLoop
      simp only [labelLen] at zero
      simp [before, zero, filled, ih, rest]
  | case3 offset suffix before labelLen nonzero oversized =>
      unfold dnsslLoop
      simp only [labelLen] at nonzero oversized
      simp [before, nonzero, oversized]
  | case4 offset suffix before labelLen nonzero fits label ih =>
      unfold dnsslLoop
      simp only [labelLen, label, cString] at nonzero fits ih
      simp only [before, nonzero, fits, if_true, if_false, notes_bind, notes_load8, value_load8,
        value_bind, notes_loadString, value_loadString, List.nil_append, label, labelLen, cString]
      exact ih
  | case5 offset suffix after =>
      unfold dnsslLoop
      simp [after]

theorem notes_printDnssl : (printDnssl mem optStr).notes = Dump.printDnssl mem optStr := by
  simp only [printDnssl, Dump.printDnssl, dnsslSuffixes, notes_bind, notes_load8, value_load8,
    (dnsslLoop_spec mem _ _ _ _).1, (dnsslLoop_spec mem _ _ _ _).2, notes_emit, notes_load32,
    value_load32, List.nil_append]
  rfl

theorem notes_printPref64 : (printPref64 mem visit).notes = Dump.printPref64 mem visit := by
  unfold printPref64 Dump.printPref64
  split <;> simp

theorem notes_printBlock : (printBlock mem edefs visit).notes = Dump.printBlock mem edefs visit := by
  simp only [printBlock, Dump.printBlock, notes_bind, notes_load8, value_load8, List.nil_append,
    notes_ite, notes_printPrefix, notes_printRoute, notes_printRdnss, notes_printDnssl,
    notes_printPref64, notes_pure]

theorem value_pass (len : Nat) (print : Visit → Printing Unit) :
    (pass mem len print).value = (printFfWalk mem len).2 := by
  have ending := value_options mem (fun visit => do print visit; pure false) 16 (len - 16)
  simp only [value_bind, value_pure] at ending
  simp only [pass, value_bind, value_pure]
  exact ending

theorem notes_pass (len : Nat) (print : Visit → Printing Unit) :
    (pass mem len print).notes =
      (printFfWalk mem len).1.flatMap (fun visit => (print visit).notes) ++
        logEnd (printFfWalk mem len).2 := by
  have ending := value_options mem (fun visit => do print visit; pure false) 16 (len - 16)
  have noted := notes_options mem (fun visit => do print visit; pure false) 16 (len - 16)
  have silent : ∀ stop, (loadOverlongType mem stop).notes = [] := by
    intro stop
    unfold loadOverlongType
    split <;> simp
  simp only [value_bind, value_pure] at ending
  simp only [value_bind, value_pure, notes_bind, notes_pure, List.append_nil] at noted
  simp only [pass, notes_bind, noted, silent, notes_emit, notes_pure, List.append_nil, ending,
    List.nil_append]
  rfl

/-- The recording prints what `print_ff` prints. -/
theorem notes_printFf (len : Nat) :
    (printFf order mem len edefs).notes = Dump.printFf order mem len edefs := by
  simp only [printFf, Dump.printFf, notes_bind, notes_emit, notes_printHeader, notes_ite,
    notes_pure, notes_pass, value_pass, notes_printOption, secondPass, notes_printBlock,
    List.append_nil, List.append_assoc]

end

/-! ## What is read -/

/-- A label: where it starts and the length it announces. -/
structure Label where
  place : Nat
  count : Nat
  deriving DecidableEq, Repr

/-- The labels of a search list that the loop copies. -/
def copiedLabels (mem : Memory) (suffixes limit offset : Nat) (suffix : Bytes) : List Label :=
  if offset < limit then
    let labelLen := (mem (suffixes + offset)).toNat
    if labelLen = 0 then copiedLabels mem suffixes limit (offset + 1) []
    else if 256 - suffix.length < labelLen + 2 then []
    else
      let label := cString (mem.slice (suffixes + (offset + 1)) labelLen)
      ⟨suffixes + (offset + 1), labelLen⟩ ::
        copiedLabels mem suffixes limit (offset + 1 + labelLen)
          (if suffix ≠ [] then suffix ++ 46 :: label else label)
  else []
termination_by limit - offset

/-- The label ends, or has a NUL, inside the message. -/
def Label.Inside (mem : Memory) (len : Nat) (label : Label) : Prop :=
  label.place + min label.count ((cString (mem.slice label.place label.count)).length + 1) ≤ len

/-- What `print_ff` reads without a check lies inside the message. -/
structure ReadsInside (mem : Memory) (len : Nat) : Prop where
  header : 16 ≤ len
  timestamps : ∀ visit ∈ (printFfWalk mem len).1, mem visit.offset = ndOptTimestamp →
    visit.offset + 16 ≤ len
  prefixes : (printFfWalk mem len).2 ≠ .overlong → ∀ visit ∈ (printFfWalk mem len).1,
    mem visit.offset = ndOptPrefixInformation → visit.offset + 32 ≤ len
  labels : (printFfWalk mem len).2 ≠ .overlong → ∀ visit ∈ (printFfWalk mem len).1,
    mem visit.offset = ndOptDnsslInformation →
      ∀ label ∈ copiedLabels mem (visit.offset + 8) (((mem (visit.offset + 1)).toNat - 1) * 8) 0 [],
        label.Inside mem len

section

variable {order : ByteOrder} {mem : Memory} {edefs : Bool} {optStr len : Nat} {visit : Visit}

theorem all_printHeader : (printHeader mem edefs).All (Event.Below len) ↔ 16 ≤ len := by
  simp only [printHeader, all_bind, all_load8, all_load16, all_load32, all_emit, Event.below_read,
    Event.below_note, implies_true, true_and, and_true]
  constructor
  · rintro ⟨-, -, fits, -, -⟩
    have last := fits 3 (by omega)
    omega
  · intro long
    exact ⟨by omega, fun index bound => by omega, fun index bound => by omega, by omega,
      fun index bound => by omega⟩

theorem all_printHomeAgentInfo (inside : optStr + 8 ≤ len) :
    (printHomeAgentInfo order mem edefs optStr).All (Event.Below len) := by
  simp only [printHomeAgentInfo, all_bind, all_load, all_load16, all_emit, Event.below_read,
    Event.below_note, implies_true, true_and, and_true]
  exact ⟨fun index bound => by omega, fun index bound => by omega, fun index bound => by omega⟩

theorem all_printCaptivePortal (inside : visit.offset + visit.optlen ≤ len) :
    (printCaptivePortal mem visit).All (Event.Below len) := by
  simp only [printCaptivePortal, all_bind, all_loadString, all_emit, Event.below_read,
    Event.below_note, implies_true, and_true]
  intro index bound _
  omega

theorem all_printTimestamp :
    (printTimestamp mem optStr).All (Event.Below len) ↔ optStr + 16 ≤ len := by
  simp only [printTimestamp, all_bind, all_load16, all_load32, all_emit, Event.below_read,
    Event.below_note, implies_true, and_true]
  constructor
  · rintro ⟨-, -, fits⟩
    have last := fits 1 (by omega)
    omega
  · intro long
    exact ⟨fun index bound => by omega, fun index bound => by omega, fun index bound => by omega⟩

theorem all_printOption (inside : Tlv.Inside mem len visit) :
    (printOption order mem edefs visit).All (Event.Below len) ↔
      (mem visit.offset = ndOptTimestamp → visit.offset + 16 ≤ len) := by
  have fits := inside.offset_add_le
  have first : visit.offset < len := by omega
  have mtu : ∀ index < 4, visit.offset + 4 + index < len := fun index bound => by omega
  have homeAgent := @all_printHomeAgentInfo order mem edefs visit.offset len (by omega)
  have captivePortal := @all_printCaptivePortal mem len visit fits.1
  simp only [printOption, all_bind, all_load8, Event.below_read, first, value_load8, all_ite,
    all_load32, all_emit, Event.below_note, implies_true, and_true, true_and, homeAgent,
    captivePortal, all_printTimestamp, all_pure]
  by_cases timestamp : mem visit.offset = ndOptTimestamp
  · simp [timestamp, ndOptTimestamp, ndOptMtu, ndOptSourceLinkaddr, ndOptRtrAdvInterval,
      ndOptHomeAgentInfo, ndOptCaptivePortal]
  · simp only [timestamp, false_implies, if_false, ite_self, iff_true]
    split
    · exact mtu
    · trivial

theorem all_loadString_iff {place count : Nat} (positive : count ≠ 0) :
    (loadString mem place count : Printing Bytes).All (Event.Below len) ↔
      (⟨place, count⟩ : Label).Inside mem len := by
  simp only [all_loadString, Event.below_read, Label.Inside, cString]
  constructor
  · intro reads
    have last := reads (min count (((mem.slice place count).takeWhile (· ≠ 0)).length + 1) - 1)
      (by omega) (by omega)
    omega
  · intro fits index bound within
    omega

theorem all_dnsslLoop {suffixes limit : Nat} (inside : suffixes + limit ≤ len) (offset : Nat)
    (suffix : Bytes) :
    (dnsslLoop mem suffixes limit offset suffix).All (Event.Below len) ↔
      ∀ label ∈ copiedLabels mem suffixes limit offset suffix, label.Inside mem len := by
  fun_induction copiedLabels mem suffixes limit offset suffix with
  | case1 offset suffix before labelLen zero ih =>
      have read : suffixes + offset < len := by omega
      unfold dnsslLoop
      simp only [labelLen] at zero
      simp [before, zero, ih, read]
  | case2 offset suffix before labelLen nonzero oversized =>
      have read : suffixes + offset < len := by omega
      unfold dnsslLoop
      simp only [labelLen] at nonzero oversized
      simp [before, nonzero, oversized, read]
  | case3 offset suffix before labelLen nonzero fits label ih =>
      have read : suffixes + offset < len := by omega
      unfold dnsslLoop
      simp only [labelLen, label, cString, dite_eq_ite] at nonzero fits ih
      simp only [before, nonzero, fits, if_true, if_false, all_bind, all_load8, Event.below_read,
        read, value_load8, true_and, all_loadString_iff nonzero, value_loadString, ih, label,
        labelLen, cString, List.forall_mem_cons]
  | case4 offset suffix after =>
      unfold dnsslLoop
      simp [after]

theorem all_printPrefix (mem : Memory) (edefs : Bool) (optStr len : Nat) :
    (printPrefix mem edefs optStr).All (Event.Below len) ↔ optStr + 32 ≤ len := by
  simp only [printPrefix, loadAddr, all_bind, all_load, all_load8, all_load32, all_emit,
    Event.below_read, Event.below_note, implies_true, and_true, true_and]
  constructor
  · rintro ⟨fits, -⟩
    have last := fits 15 (by omega)
    omega
  · intro long
    exact ⟨fun index bound => by omega, by omega, fun index bound => by omega,
      fun index bound => by omega, by omega⟩

theorem all_printRouteSettings (header : 16 ≤ len) (inside : optStr + 8 ≤ len) :
    (printRouteSettings mem edefs optStr).All (Event.Below len) := by
  have fifth : 5 < len := by omega
  have flags : optStr + 3 < len := by omega
  have lifetime : (load32 mem (optStr + 4) : Printing UInt32).All (Event.Below len) :=
    below_load (by omega)
  simp only [printRouteSettings, all_bind, all_ite, all_load8, Event.below_read, fifth, flags,
    all_pure, lifetime, all_emit, Event.below_note, implies_true, and_self, ite_self]

theorem all_printRoute (header : 16 ≤ len) (inside : Tlv.Inside mem len visit) :
    (printRoute mem edefs visit).All (Event.Below len) := by
  have fits := inside.offset_add_le
  have settings := @all_printRouteSettings mem edefs visit.offset len header (by omega)
  unfold printRoute
  split
  · simp [settings]
  · have second : visit.offset + 1 < len := by omega
    have third : visit.offset + 2 < len := by omega
    have addr : (loadAddr mem (visit.offset + 8) (if mem (visit.offset + 1) > 1 then
        ((mem (visit.offset + 1)).toNat - 1) * 8 else 0)).All (Event.Below len) := by
      have announced := inside.announced
      apply below_load
      split <;> omega
    simp only [all_bind, all_load8, Event.below_read, second, third, all_ite, all_emit,
      Event.below_note, implies_true, addr, settings, and_self, ite_self, value_load8]

theorem all_loadAddrs {offset count : Nat} (inside : offset + 16 * count ≤ len) :
    (loadAddrs mem offset count).All (Event.Below len) := by
  induction count generalizing offset with
  | zero => simp [loadAddrs]
  | succ count ih =>
      simp only [loadAddrs, loadAddr, all_bind, all_load, Event.below_read, all_pure, and_true]
      exact ⟨fun index bound => by omega, ih (by omega)⟩

theorem all_printRdnss (inside : Tlv.Inside mem len visit) :
    (printRdnss mem visit.offset).All (Event.Below len) := by
  have fits := inside.offset_add_le
  have announced := inside.announced
  have second : visit.offset + 1 < len := by omega
  have addrs := @all_loadAddrs mem len (visit.offset + 8)
    (((mem (visit.offset + 1)).toNat - 1) / 2) (by omega)
  have lifetime : (load32 mem (visit.offset + 4) : Printing UInt32).All (Event.Below len) :=
    below_load (by omega)
  simp only [printRdnss, all_bind, all_load8, Event.below_read, second, value_load8, all_ite, addrs,
    lifetime, all_emit, Event.below_note, implies_true, and_self, ite_self]

theorem all_printDnssl (inside : Tlv.Inside mem len visit) :
    (printDnssl mem visit.offset).All (Event.Below len) ↔
      ∀ label ∈ copiedLabels mem (visit.offset + 8) (((mem (visit.offset + 1)).toNat - 1) * 8) 0 [],
        label.Inside mem len := by
  have fits := inside.offset_add_le
  have announced := inside.announced
  have second : visit.offset + 1 < len := by omega
  have lifetime : (load32 mem (visit.offset + 4) : Printing UInt32).All (Event.Below len) :=
    below_load (by omega)
  have loop := @all_dnsslLoop mem len (visit.offset + 8)
    (((mem (visit.offset + 1)).toNat - 1) * 8) (by omega) 0 []
  simp only [printDnssl, all_bind, all_load8, Event.below_read, second, value_load8, loop,
    lifetime, all_emit, Event.below_note, implies_true, and_true, true_and]

theorem all_printPref64 (inside : Tlv.Inside mem len visit) :
    (printPref64 mem visit).All (Event.Below len) := by
  have fits := inside.offset_add_le
  unfold printPref64
  split
  · simp
  · rename_i right
    simp only [all_bind, all_load16, loadAddr, all_load, Event.below_read, all_emit,
      Event.below_note, implies_true, and_true]
    exact ⟨fun index bound => by omega, fun index bound => by omega⟩

theorem all_printBlock (header : 16 ≤ len) (inside : Tlv.Inside mem len visit) :
    (printBlock mem edefs visit).All (Event.Below len) ↔
      (mem visit.offset = ndOptPrefixInformation → visit.offset + 32 ≤ len) ∧
      (mem visit.offset = ndOptDnsslInformation → ∀ label ∈ copiedLabels mem (visit.offset + 8)
        (((mem (visit.offset + 1)).toNat - 1) * 8) 0 [], label.Inside mem len) := by
  have first : visit.offset < len := by
    have fits := inside.offset_add_le
    omega
  simp only [printBlock, all_bind, all_load8, Event.below_read, first, value_load8, all_ite,
    all_printPrefix, all_printRoute header inside, all_printRdnss inside, all_printDnssl inside,
    all_printPref64 inside, all_pure, true_and]
  by_cases isPrefix : mem visit.offset = ndOptPrefixInformation
  · simp [isPrefix, ndOptPrefixInformation, ndOptDnsslInformation]
  · by_cases isDnssl : mem visit.offset = ndOptDnsslInformation
    · simp [isDnssl, ndOptPrefixInformation, ndOptDnsslInformation, ndOptRouteInformation,
        ndOptRdnssInformation]
    · simp only [isPrefix, isDnssl, if_false, ite_self, false_implies, and_self]

theorem all_pass {print : Visit → Printing Unit} :
    (pass mem len print).All (Event.Below len) ↔
      ∀ visit ∈ (printFfWalk mem len).1, (print visit).All (Event.Below len) := by
  have within : ((16 : Nat) : Int) + (len - 16) ≤ len := by omega
  have walked := @all_options _ mem (fun visit => do print visit; pure false) 16 (len - 16)
    (Event.Below len) len within fun offset bound => bound
  have stop := stop_options mem (fun visit => do print visit; pure false) 16 (len - 16)
  have named : (loadOverlongType mem (options mem (fun visit => do print visit; pure false) 16
      (len - 16)).value).All (Event.Below len) := by
    unfold loadOverlongType
    split
    · rename_i overlong
      have left := stop.2 overlong
      simp only [all_bind, all_load8, Event.below_read, all_pure, and_true]
      omega
    · apply all_pure
  simp only [value_bind, value_pure, all_bind, all_pure, and_true] at walked
  simp only [pass, all_bind, walked, named, all_emit, Event.below_note, implies_true, all_pure,
    and_true]
  rfl

/-- `print_ff` reads only octets of the message if and only if the message has a
whole header, every Timestamp option its 16 octets and, unless an option that
is too long ends the output, every Prefix Information option its 32 octets and
every label of a search list its end or a NUL inside the message. -/
theorem printFf_inside_iff (order : ByteOrder) (mem : Memory) (len : Nat) (edefs : Bool) :
    (printFf order mem len edefs).All (Event.Below len) ↔ ReadsInside mem len := by
  by_cases header : 16 ≤ len
  · have inside : ∀ visit ∈ (printFfWalk mem len).1, Tlv.Inside mem len visit := by
      intro visit visitMem
      have found := inside_of_mem_walk visitMem
      rwa [show ((16 : Nat) : Int) + (len - 16) = len by omega] at found
    have second : (secondPass mem len edefs (printFfWalk mem len).2).All (Event.Below len) ↔
        ((printFfWalk mem len).2 ≠ .overlong → ∀ visit ∈ (printFfWalk mem len).1,
          (printBlock mem edefs visit).All (Event.Below len)) := by
      unfold secondPass
      split
      · rename_i overlong
        simp [overlong]
      · rename_i regular
        simp [regular, all_pass]
    have parts : ReadsInside mem len ↔
        (∀ visit ∈ (printFfWalk mem len).1, (printOption order mem edefs visit).All
          (Event.Below len)) ∧
        (secondPass mem len edefs (printFfWalk mem len).2).All (Event.Below len) := by
      rw [second]
      constructor
      · rintro ⟨-, timestamps, prefixes, labels⟩
        refine ⟨fun visit visitMem => ?_, fun regular visit visitMem => ?_⟩
        · exact (all_printOption (inside visit visitMem)).mpr (timestamps visit visitMem)
        · exact (all_printBlock header (inside visit visitMem)).mpr
            ⟨prefixes regular visit visitMem, labels regular visit visitMem⟩
      · rintro ⟨first, blocks⟩
        refine ⟨header, fun visit visitMem => ?_, fun regular visit visitMem => ?_,
          fun regular visit visitMem => ?_⟩
        · exact (all_printOption (inside visit visitMem)).mp (first visit visitMem)
        · exact ((all_printBlock header (inside visit visitMem)).mp
            (blocks regular visit visitMem)).1
        · exact ((all_printBlock header (inside visit visitMem)).mp
            (blocks regular visit visitMem)).2
    rw [parts]
    simp only [printFf, all_bind, all_emit, Event.below_note, implies_true, all_printHeader, header,
      all_ite, all_pure, all_pass, value_pass, and_true, true_and]
    split
    · rename_i empty
      have unvisited : printFfWalk mem len = ([], .finished) := by
        rw [empty, printFfWalk, walk]
        rfl
      simp [unvisited, secondPass, all_pass]
    · rfl
  · constructor
    · intro reads
      simp only [printFf, all_bind, all_printHeader] at reads
      exact absurd reads.2.1 header
    · intro reads
      exact absurd reads.header header

end

/-- An RA that ends after the first eight octets of its header. -/
def shortRa : Bytes :=
  [134, 0, 0, 0, 64, 0, 7, 8]

theorem printFf_outside_shortRa :
    ¬(printFf .littleEndian (fun index => shortRa.getD index 0) shortRa.length false).All
      (Event.Below shortRa.length) := by
  intro reads
  simp only [printFf, all_bind, all_printHeader] at reads
  exact absurd reads.2.1 (by decide)

end Radvd.Dump.Recorded
