import Radvd.Send.Encode

/-!
# Prefix information options of an interface

The options of `add_ra_options_prefix`: literal prefixes, prefixes taken from
the addresses of an interface and 6to4 prefixes, with their lifetimes limited by
what the kernel reports through netlink.

The answers of the system while one RA is built are collected in `Kernel`. The
main result `writes_addRaOptionsPrefix` says which entries are advertised, in
terms of the pure function `advertisedPrefixes`.
-/

namespace Radvd

open Wire SafeBuffer SafeBufferList

inductive RtAttr where
  | address (addr : In6Addr)
  | cacheinfo (ifaValid ifaPrefered : UInt32)
  | other
  deriving DecidableEq, Repr

inductive IfaAddr where
  | inet6 (addr netmask : In6Addr)
  | other
  deriving DecidableEq, Repr

structure Ifaddrs where
  ifaName : Bytes
  ifaAddr : Option IfaAddr
  deriving DecidableEq, Repr

/-- What the system answers while one RA is built. -/
structure Kernel where
  getV4addr : Bytes → Option (Vector UInt8 4)
  getifaddrs : List Ifaddrs
  /-- The address messages in reply to `RTM_GETADDR`, if there is a reply. -/
  rtmGetaddr : Option (List (List RtAttr))

/-! ## Lifetimes known to the kernel -/

def prefixMatch (entry : AdvPrefix) (addr : In6Addr) : Bool :=
  if entry.prefixLen % 8 = 0 then
    entry.prefixAddr.toList.take (entry.prefixLen.toNat / 8) =
      addr.toList.take (entry.prefixLen.toNat / 8)
  else
    (List.range entry.prefixLen.toNat).all fun i =>
      let mask := UInt8.ofNat (2 ^ (8 - i % 8))
      entry.prefixAddr.toList.getD (i / 8) 0 &&& mask = addr.toList.getD (i / 8) 0 &&& mask

structure AddressLifetimes where
  valid : UInt32
  preferred : UInt32
  ret : Bool
  deriving DecidableEq, Repr

/-- The scan over the attributes of one message, with the flag `found`. -/
def scanAttrs (entry : AdvPrefix) (found : Bool) (acc : AddressLifetimes) :
    List RtAttr → AddressLifetimes
  | [] => acc
  | .address addr :: rest => scanAttrs entry (prefixMatch entry addr) acc rest
  | .cacheinfo ifaValid ifaPrefered :: rest =>
      if found then
        scanAttrs entry false
          { valid := if ifaValid > acc.valid then ifaValid else acc.valid
            preferred := if ifaPrefered > acc.preferred then ifaPrefered else acc.preferred
            ret := true } rest
      else scanAttrs entry found acc rest
  | .other :: rest => scanAttrs entry found acc rest

def netlinkGetAddressLifetimes (kernel : Kernel) (entry : AdvPrefix) : AddressLifetimes :=
  match kernel.rtmGetaddr with
  | none => ⟨0, 0, false⟩
  | some messages => messages.foldl (scanAttrs entry false) ⟨0, 0, false⟩

def limitPrefixLifetimes (kernel : Kernel) (entry : AdvPrefix) : AdvPrefix :=
  let lifetimes := netlinkGetAddressLifetimes kernel entry
  if lifetimes.ret then
    { entry with
      currValidlft := min lifetimes.valid entry.currValidlft
      currPreferredlft := min lifetimes.preferred entry.currPreferredlft }
  else entry

/-! ## Prefixes of an interface -/

def getPrefix6 (addr mask : In6Addr) : In6Addr :=
  Vector.zipWith (· &&& ·) addr mask

/-- `countbits`: every turn clears the lowest bit that is set. -/
def countbits (b : Nat) : Nat :=
  if b = 0 then 0 else countbits (b &&& (b - 1)) + 1
termination_by b
decreasing_by
  have := Nat.and_le_right (n := b) (m := b - 1)
  omega

def countMask (mask : In6Addr) : Nat :=
  (mask.toList.map fun octet => countbits octet.toNat).sum

/-- `schedule_helper`: every option is due at every time. -/
def scheduleHelper (_dest : In6Addr) (_iface : Interface) (_optionLifetime : Int32) : Bool :=
  true

def scheduleOptionPrefix (dest : In6Addr) (iface : Interface) (entry : AdvPrefix) : Bool :=
  scheduleHelper dest iface entry.currPreferredlft.toInt32

def addXPrefix (iface : Interface) (ceaseAdv : Bool) (dest : In6Addr) (entry : AdvPrefix)
    (sbl : SafeBufferList) : Except Exit SafeBufferList :=
  sbl.addIf (ceaseAdv || scheduleOptionPrefix dest iface entry) fun sbl =>
    sbl.append.write (addRaOptionPrefix · entry ceaseAdv)

def prefix6to4 (entry : AdvPrefix) (dst : Vector UInt8 4) : AdvPrefix :=
  { entry with
    prefixAddr := Vector.ofFn fun i =>
      if i.val = 0 then 0x20
      else if i.val = 1 then 0x02
      else if i.val < 6 then dst.toList.getD (i.val - 2) 0
      else entry.prefixAddr.get i
    prefixLen := 64 }

def addAutoPrefixes6to4 (kernel : Kernel) (iface : Interface) (entry : AdvPrefix)
    (ceaseAdv : Bool) (dest : In6Addr) (sbl : SafeBufferList) : Except Exit SafeBufferList :=
  match kernel.getV4addr entry.if6to4 with
  | none => pure sbl
  | some dst =>
      addXPrefix iface ceaseAdv dest (limitPrefixLifetimes kernel (prefix6to4 entry dst)) sbl

def isIgnored (iface : Interface) (prefix6 mask : In6Addr) : Bool :=
  iface.ignorePrefixList.any fun current =>
    prefix6 = getPrefix6 current.prefixAddr current.mask && mask = current.mask

/-- The entry an address of the interface `ifname` gives rise to, if any. -/
def autoPrefix (iface : Interface) (ifname : Bytes) (entry : AdvPrefix) (ifa : Ifaddrs) :
    Option AdvPrefix :=
  if ifa.ifaName.take 16 ≠ ifname.take 16 then none
  else
    match ifa.ifaAddr with
    | some (.inet6 addr mask) =>
        if addr.isLinklocal then none
        else if isIgnored iface (getPrefix6 addr mask) mask then none
        else some { entry with
          prefixAddr := getPrefix6 addr mask
          prefixLen := UInt8.ofNat (countMask mask) }
    | _ => none

def addAutoPrefixesLoop (kernel : Kernel) (iface : Interface) (ifname : Bytes)
    (entry : AdvPrefix) (ceaseAdv : Bool) (dest : In6Addr) (sbl : SafeBufferList) :
    List Ifaddrs → Except Exit SafeBufferList
  | [] => pure sbl
  | ifa :: rest =>
      match autoPrefix iface ifname entry ifa with
      | none => addAutoPrefixesLoop kernel iface ifname entry ceaseAdv dest sbl rest
      | some xprefix => do
          let sbl ← addXPrefix iface ceaseAdv dest (limitPrefixLifetimes kernel xprefix) sbl
          addAutoPrefixesLoop kernel iface ifname entry ceaseAdv dest sbl rest

def addAutoPrefixes (kernel : Kernel) (iface : Interface) (ifname : Bytes) (entry : AdvPrefix)
    (ceaseAdv : Bool) (dest : In6Addr) (sbl : SafeBufferList) : Except Exit SafeBufferList :=
  addAutoPrefixesLoop kernel iface ifname entry ceaseAdv dest sbl kernel.getifaddrs

/-- A prefix that is given literally and not taken from addresses. -/
def AdvPrefix.isLiteral (entry : AdvPrefix) : Bool :=
  !(entry.if6to4 ≠ [] || entry.if6 ≠ [] || entry.prefixAddr = In6Addr.unspecified)

def addRaOptionsPrefixEntry (kernel : Kernel) (iface : Interface) (ceaseAdv : Bool)
    (dest : In6Addr) (entry : AdvPrefix) (sbl : SafeBufferList) :
    Except Exit SafeBufferList :=
  if !entry.decrementLifetimesFlag || entry.currPreferredlft > 0 then
    if entry.isLiteral then
      sbl.addIf (ceaseAdv || scheduleOptionPrefix dest iface entry) fun sbl =>
        sbl.append.write (addRaOptionPrefix · (limitPrefixLifetimes kernel entry) ceaseAdv)
    else do
      let sbl ← sbl.addIf (entry.if6to4 ≠ [])
        (addAutoPrefixes6to4 kernel iface entry ceaseAdv dest)
      let sbl ← sbl.addIf (entry.if6 ≠ [])
        (addAutoPrefixes kernel iface entry.if6 entry ceaseAdv dest)
      sbl.addIf (entry.prefixAddr = In6Addr.unspecified)
        (addAutoPrefixes kernel iface iface.props.name entry ceaseAdv dest)
  else pure sbl

def addRaOptionsPrefix (kernel : Kernel) (iface : Interface) (ceaseAdv : Bool) (dest : In6Addr)
    (sbl : SafeBufferList) : List AdvPrefix → Except Exit SafeBufferList
  | [] => pure sbl
  | entry :: rest => do
      let sbl ← addRaOptionsPrefixEntry kernel iface ceaseAdv dest entry sbl
      addRaOptionsPrefix kernel iface ceaseAdv dest sbl rest

/-! ## The entries that are advertised -/

def autoPrefixes (kernel : Kernel) (iface : Interface) (ifname : Bytes) (entry : AdvPrefix) :
    List AdvPrefix :=
  (kernel.getifaddrs.filterMap (autoPrefix iface ifname entry)).map (limitPrefixLifetimes kernel)

def autoPrefixes6to4 (kernel : Kernel) (entry : AdvPrefix) : List AdvPrefix :=
  ((kernel.getV4addr entry.if6to4).map fun dst =>
    limitPrefixLifetimes kernel (prefix6to4 entry dst)).toList

/-- The entries advertised for one element of the prefix list. -/
def advertisedPrefixes (kernel : Kernel) (iface : Interface) (entry : AdvPrefix) :
    List AdvPrefix :=
  if !entry.decrementLifetimesFlag || entry.currPreferredlft > 0 then
    if entry.isLiteral then [limitPrefixLifetimes kernel entry]
    else
      (if entry.if6to4 ≠ [] then autoPrefixes6to4 kernel entry else []) ++
        (if entry.if6 ≠ [] then autoPrefixes kernel iface entry.if6 entry else []) ++
        if entry.prefixAddr = In6Addr.unspecified then
          autoPrefixes kernel iface iface.props.name entry
        else []
  else []

def prefixBlocks (kernel : Kernel) (iface : Interface) (ceaseAdv : Bool)
    (entries : List AdvPrefix) : List Bytes :=
  (entries.flatMap (advertisedPrefixes kernel iface)).map (prefixBlock · ceaseAdv)

variable {kernel : Kernel} {iface : Interface} {ceaseAdv : Bool} {dest : In6Addr}

theorem writes_addXPrefix (entry : AdvPrefix) :
    Writes (addXPrefix iface ceaseAdv dest entry) [prefixBlock entry ceaseAdv] := by
  have writes : Writes (fun sbl => sbl.append.write (addRaOptionPrefix · entry ceaseAdv))
      [prefixBlock entry ceaseAdv] := writes_append_write (appends_append _) (by simp)
  have always : (ceaseAdv || scheduleOptionPrefix dest iface entry) = true := by
    simp [scheduleOptionPrefix, scheduleHelper]
  unfold addXPrefix
  rw [always]
  exact writes.addIf true

theorem writes_addAutoPrefixes6to4 (entry : AdvPrefix) :
    Writes (addAutoPrefixes6to4 kernel iface entry ceaseAdv dest)
      ((autoPrefixes6to4 kernel entry).map (prefixBlock · ceaseAdv)) := by
  unfold addAutoPrefixes6to4 autoPrefixes6to4
  cases kernel.getV4addr entry.if6to4 with
  | none => exact writes_pure
  | some dst => exact writes_addXPrefix _

theorem writes_addAutoPrefixes (ifname : Bytes) (entry : AdvPrefix) :
    Writes (addAutoPrefixes kernel iface ifname entry ceaseAdv dest)
      ((autoPrefixes kernel iface ifname entry).map (prefixBlock · ceaseAdv)) := by
  unfold addAutoPrefixes autoPrefixes
  induction kernel.getifaddrs with
  | nil => exact writes_pure
  | cons ifa rest ih =>
      simp only [addAutoPrefixesLoop, List.filterMap_cons]
      cases autoPrefix iface ifname entry ifa with
      | none => exact ih
      | some xprefix => exact (writes_addXPrefix _).bind ih

theorem writes_addRaOptionsPrefixEntry (entry : AdvPrefix) :
    Writes (addRaOptionsPrefixEntry kernel iface ceaseAdv dest entry)
      ((advertisedPrefixes kernel iface entry).map (prefixBlock · ceaseAdv)) := by
  unfold addRaOptionsPrefixEntry advertisedPrefixes
  by_cases advertised : (!entry.decrementLifetimesFlag || entry.currPreferredlft > 0) = true
  · simp only [advertised, if_true]
    by_cases literal : entry.isLiteral = true
    · simp only [literal, if_true]
      have writes : Writes (addXPrefix iface ceaseAdv dest (limitPrefixLifetimes kernel entry)) _ :=
        writes_addXPrefix (limitPrefixLifetimes kernel entry)
      exact writes
    · simp only [literal, Bool.false_eq_true, if_false, List.map_append, List.append_assoc]
      have first : Writes (addAutoPrefixes6to4 kernel iface entry ceaseAdv dest) _ :=
        writes_addAutoPrefixes6to4 entry
      have second : Writes (addAutoPrefixes kernel iface entry.if6 entry ceaseAdv dest) _ :=
        writes_addAutoPrefixes entry.if6 entry
      have third :
          Writes (addAutoPrefixes kernel iface iface.props.name entry ceaseAdv dest) _ :=
        writes_addAutoPrefixes iface.props.name entry
      have all := (first.addIf (entry.if6to4 ≠ [])).bind
        ((second.addIf (entry.if6 ≠ [])).bind
          (third.addIf (entry.prefixAddr = In6Addr.unspecified)))
      simp only [decide_eq_true_eq] at all
      simpa only [apply_ite (List.map (prefixBlock · ceaseAdv)), List.map_nil] using all
  · simp only [advertised, if_false, Bool.false_eq_true]
    exact writes_pure

theorem writes_addRaOptionsPrefix (entries : List AdvPrefix) :
    Writes (addRaOptionsPrefix kernel iface ceaseAdv dest · entries)
      (prefixBlocks kernel iface ceaseAdv entries) := by
  induction entries with
  | nil => exact writes_pure
  | cons entry rest ih =>
      rw [prefixBlocks, List.flatMap_cons, List.map_append]
      exact (writes_addRaOptionsPrefixEntry entry).bind ih

end Radvd
