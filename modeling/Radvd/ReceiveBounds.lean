import Radvd.Lifetimes
import Radvd.Receive

/-!
# What `process` reads of a message

`process` terminates on every message, because it is a function, and it reads
no octet at or after the end of the message. The array in which `process_ra`
assembles a suffix of a search list never holds more than 255 characters.

The bound of every read comes from the walk over the options: an option that is
visited lies inside the message with all the octets its length octet counts.
The parser limits the length of a prefix, and with it how much of an option
`addr_match` compares.
-/

namespace Radvd

open Wire Tlv Access

/-- The prefix lengths that the parser lets pass. -/
def Interface.PrefixLensParsed (iface : Interface) : Prop :=
  ∀ entry ∈ iface.advPrefixList, entry.prefixLen ≤ 128

/-- An event allowed while a message of `len` octets is processed. -/
def Bounded (len : Nat) : Event ReceiveNote → Prop
  | .read offset => offset < len
  | .note (.suffixLength length) => length ≤ 255
  | .note (.flog _) => True
  | .note .answers => True

section

variable {mem : Memory} {iface : Interface} {len limit : Nat}

@[simp]
theorem bounded_read {offset : Nat} : Bounded len (.read offset) ↔ offset < len := Iff.rfl

@[simp]
theorem all_flog (complaint : Complaint) : (flog complaint).All (Bounded len) := by
  simp [flog, Bounded]

@[simp]
theorem all_flogIf (condition : Bool) (complaint : Complaint) :
    (flogIf condition complaint).All (Bounded len) := by
  unfold flogIf
  split <;> simp

theorem all_addrMatch {prefixAddr : In6Addr} {offset prefixlen : Nat} (short : prefixlen ≤ 128)
    (inside : offset + 16 ≤ len) : (addrMatch mem prefixAddr offset prefixlen).All (Bounded len) := by
  have whole : ∀ index < 4 * (prefixlen / 32), offset + index < len := by
    intro index bound
    omega
  simp only [addrMatch, all_bind, all_loadSlice, bounded_read, value_loadSlice, all_ite, all_pure,
    all_load32, and_true]
  refine ⟨whole, ?_⟩
  split_ifs
  intro index bound
  omega

theorem all_checkPrefixLifetimes {offset : Nat} {valid preferred : UInt32}
    {entries : List AdvPrefix} (short : ∀ entry ∈ entries, entry.prefixLen ≤ 128)
    (inside : offset + 32 ≤ len) :
    (checkPrefixLifetimes mem offset valid preferred entries).All (Bounded len) := by
  induction entries with
  | nil => simp [checkPrefixLifetimes]
  | cons entry rest ih =>
      have later := ih fun other otherMem => short other (List.mem_cons_of_mem _ otherMem)
      have compared : (addrMatch mem entry.prefixAddr (offset + 16) entry.prefixLen.toNat).All
          (Bounded len) := by
        apply all_addrMatch
        · exact UInt8.le_iff_toNat_le.mp (short entry List.mem_cons_self)
        · omega
      have second : offset + 2 < len := by omega
      simp only [checkPrefixLifetimes, all_bind, all_load8, bounded_read, second, all_ite,
        compared, later, all_flogIf, true_and]
      split_ifs

theorem all_checkRdnssAddrs {offset count : Nat} (inside : offset + 16 * count ≤ len) :
    (checkRdnssAddrs mem iface offset count).All (Bounded len) := by
  induction count generalizing offset with
  | zero => simp [checkRdnssAddrs]
  | succ count ih =>
      simp only [checkRdnssAddrs, all_bind, all_loadSlice, bounded_read, all_flogIf, true_and]
      constructor
      · intro index bound
        omega
      · apply ih
        omega

theorem all_checkDnsslSuffixes {optStr : Nat} {left : Int} {offset : Nat}
    (inside : optStr + left ≤ len) :
    (checkDnsslSuffixes mem iface optStr limit left offset).All (Bounded len) := by
  fun_induction dnsslReturns mem optStr limit left offset with
  | case1 offset before outside =>
      unfold checkDnsslSuffixes
      simp [before, outside]
  | case2 offset before within labelLen zero ih =>
      have read : optStr + 8 + offset < len := by omega
      unfold checkDnsslSuffixes
      simp only [labelLen] at zero
      simp [before, within, zero, ih, read]
  | case3 offset before within labelLen nonzero oversized =>
      have read : optStr + 8 + offset < len := by omega
      unfold checkDnsslSuffixes
      simp only [labelLen] at nonzero oversized
      simp only [before, within, nonzero, oversized, if_true, if_false, all_bind, all_load8,
        bounded_read, read, value_load8, List.length_nil, Nat.sub_zero, all_flog, all_pure,
        and_self]
  | case4 offset before within labelLen nonzero fits ih =>
      have read : optStr + 8 + offset < len := by omega
      have short := length_loadString_le mem (optStr + 8 + offset + 1) labelLen
      unfold checkDnsslSuffixes
      simp only [labelLen, ne_eq] at nonzero fits ih short
      simp only [before, within, nonzero, fits, if_true, if_false, all_bind, all_load8,
        read, value_load8, List.length_nil, Nat.sub_zero, all_loadString,
        value_loadString, ne_eq, not_true_eq_false, all_note, Bounded, ih, and_true, true_and]
      constructor
      · intro index bound _
        omega
      · omega
  | case5 offset after =>
      unfold checkDnsslSuffixes
      simp [after]

/-! ## The options -/

theorem all_options_of_inside {body : Visit → Receiving Bool} {start : Nat}
    (all : ∀ visit, Inside mem len visit → (body visit).All (Bounded len)) :
    (options mem body start (len - start)).All (Bounded len) := by
  have within : (start : Int) + (len - start) ≤ len := by omega
  apply (all_options within fun offset bound => bounded_read.mpr bound).mpr
  intro visit visitMem
  have inside := inside_of_mem_walk visitMem
  rw [add_sub_cancel] at inside
  exact all visit inside

variable {visit : Visit}

theorem all_processRaOption (short : iface.PrefixLensParsed) (inside : Inside mem len visit) :
    (processRaOption mem iface visit).All (Bounded len) := by
  rcases inside with ⟨announced, filled, bounded, total⟩
  have mtu : (processRaMtu mem iface visit).All (Bounded len) := by
    unfold processRaMtu
    split_ifs
    · apply all_pure
    · apply all_pure
    · simp only [all_bind, all_load32, bounded_read, all_flogIf, all_pure, and_true]
      intro index bound
      omega
  have prefixInfo : (processRaPrefix mem iface visit).All (Bounded len) := by
    unfold processRaPrefix
    split_ifs
    · apply all_pure
    · simp only [all_bind, all_load32, bounded_read, all_pure, and_true]
      refine ⟨fun index bound => by omega, fun index bound => by omega, ?_⟩
      apply all_checkPrefixLifetimes short
      omega
  have rdnss : (processRaRdnss mem iface visit).All (Bounded len) := by
    unfold processRaRdnss
    split_ifs
    · apply all_pure
    · have servers : (checkRdnssAddrs mem iface (visit.offset + 8)
          (((mem (visit.offset + 1)).toNat - 1) / 2)).All (Bounded len) := by
        apply all_checkRdnssAddrs
        omega
      have second : visit.offset + 1 < len := by omega
      simp only [all_bind, all_load8, bounded_read, second, value_load8, all_ite, servers,
        all_flog, all_pure, and_self, ite_self]
  have dnssl : (processRaDnssl mem iface visit).All (Bounded len) := by
    unfold processRaDnssl
    split_ifs
    · apply all_pure
    · have second : visit.offset + 1 < len := by omega
      simp only [all_bind, all_load8, bounded_read, second, true_and]
      apply all_checkDnsslSuffixes
      omega
  have first : visit.offset < len := by omega
  simp only [processRaOption, all_bind, all_load8, bounded_read, first, all_ite, mtu, prefixInfo,
    rdnss, dnssl, all_flogIf, all_pure, and_self, ite_self]

theorem all_processRsOption {addr : In6Addr} (inside : Inside mem len visit) :
    (processRsOption mem addr visit).All (Bounded len) := by
  rcases inside with ⟨announced, filled, bounded, total⟩
  have first : visit.offset < len := by omega
  simp only [processRsOption, all_bind, all_load8, bounded_read, first, all_ite, all_flog,
    all_pure, and_self, ite_self]

end

/-! ## The message -/

section

variable {packet : Packet} {iface : Interface} {env : ProcessEnv} {warned : Bool}

theorem all_processRa (short : iface.PrefixLensParsed) (long : 16 ≤ packet.len) :
    (processRa packet iface).All (Bounded packet.len) := by
  have header : ∀ offset < 16, offset < packet.len := by
    intro offset bound
    omega
  have walked : (options packet.msg (processRaOption packet.msg iface) 16 (packet.len - 16)).All
      (Bounded packet.len) :=
    all_options_of_inside fun visit inside => all_processRaOption short inside
  simp only [processRa, all_bind, all_load8, bounded_read, header, all_flogIf, all_load32,
    Nat.reduceLT, true_and, walked]
  refine ⟨fun index bound => by omega, fun index bound => by omega, ?_⟩
  split <;> simp

theorem all_processRs :
    (processRs env packet warned iface).All (Bounded packet.len) := by
  have walked : (options packet.msg (processRsOption packet.msg packet.addr) 8
      (packet.len - 8)).All (Bounded packet.len) :=
    all_options_of_inside fun visit inside => all_processRsOption inside
  simp only [processRs, all_bind, walked, true_and]
  split <;> simp [Bounded]

theorem all_processReady (short : iface.PrefixLensParsed) (long : 8 ≤ packet.len)
    (longRa : packet.msg 0 ≠ ndRouterSolicit → 16 ≤ packet.len) :
    (processReady env packet warned iface).All (Bounded packet.len) := by
  have first : 0 < packet.len := by omega
  simp only [processReady, all_ite, all_bind, all_flog, all_pure, all_load8, bounded_read, first,
    value_load8, all_processRs, and_self, true_and, and_true]
  split_ifs with hoplimit solicit
  exact all_processRa short (longRa solicit)

theorem all_processOn (short : iface.PrefixLensParsed) (long : 8 ≤ packet.len)
    (longRa : packet.msg 0 ≠ ndRouterSolicit → 16 ≤ packet.len) :
    (processOn env packet warned iface).All (Bounded packet.len) := by
  unfold processOn
  split_ifs
  · exact all_processReady short long longRa
  · split
    · apply all_pure
    · rename_i ready ret done
      have shortReady : ready.PrefixLensParsed := by
        intro entry entryMem
        rw [(frame_setupIface done).prefixes_eq] at entryMem
        exact short entry entryMem
      split_ifs
      · simp
      · exact all_processReady shortReady long longRa

/-- Whatever is received, `process` reads the message only inside its `len`
octets and keeps the suffix of a search list below 256 characters. -/
theorem process_bounded (env : ProcessEnv) (packet : Packet) (daemon : Daemon)
    (parsed : ∀ iface ∈ daemon.ifaces, iface.PrefixLensParsed) :
    (process env packet daemon).All (Bounded packet.len) := by
  unfold process
  by_cases short : packet.len < 8
  · simp [short]
  · have first : 0 < packet.len := by omega
    have second : 1 < packet.len := by omega
    simp only [short, if_false, all_ite, all_bind, all_flog, all_pure, all_load8, bounded_read,
      value_load8, first, second, and_false, true_and]
    split_ifs with filter shortRa source code
    split
    · apply all_pure
    · rename_i position iface found
      have listed := List.mem_of_getElem? (findIface_spec found).1
      have longRa : packet.msg 0 ≠ ndRouterSolicit → 16 ≤ packet.len := by
        intro notSolicit
        by_contra shortened
        exact shortRa ⟨by_contra fun notAdvert => filter ⟨notSolicit, notAdvert⟩, by omega⟩
      simp only [all_bind, all_pure, and_true]
      exact all_processOn (parsed iface listed) (by omega) longRa

/-- A message received with hop limit 255 on the interface with index 2. -/
def Packet.received (octets : Bytes) (addr : In6Addr) : Packet where
  msg := fun index => octets.getD index 0
  len := octets.length
  addr := addr
  ifindex := 2
  hoplimit := 255

def ProcessEnv.ethernet (now : Timespec) : ProcessEnv where
  setup := SetupEnv.ethernet
  now := now
  delayRand := 0
  sendSetup := SetupEnv.ethernet
  envs := fun _ => routerEnv now
  intervalRand := 0
  rescheduleTime := now

/-- An RA whose last option is a search list with a label that runs past the
end of the message. -/
def overrunningRa : Bytes :=
  [134, 0, 0, 0, 64, 0, 7, 8, 0, 0, 0, 0, 0, 0, 0, 0,
    31, 2, 0, 0, 0, 0, 0, 60, 1, 97, 100, 98, 98, 98, 98, 98]

theorem process_bounded_overrunningRa :
    (process (.ethernet ⟨100, 0⟩) (.received overrunningRa linkLocalAddr)
      ⟨[{ decrementing with props := { decrementing.props with ifIndex := 2 } }], false⟩).All
      (Bounded 32) := by
  apply process_bounded
  intro iface listed
  cases List.mem_singleton.mp listed
  intro entry entryMem
  cases List.mem_singleton.mp entryMem
  decide

end

end Radvd
