import Radvd.Dump.Values

/-!
# Router advertisements on the wire and back

What `print_ff` prints for the header and for each option that the `add_ra_*`
functions write, with defaults not excluded. The lemmas about one option hold
wherever the option is stored in a message (`Prints`), so a whole advertisement
is printed as the walk visits it: first the settings of all options, then their
blocks (`printFf_of_holds`).
-/

namespace Radvd.Dump

open Wire Tlv

section Shown

variable (keyword : Keyword)

@[simp]
theorem printNumber_all (dflt value : Nat) :
    printNumber false dflt keyword value = [.setting keyword (.number value)] := rfl

@[simp]
theorem printFlag_all (dflt : Bool) (octet mask : UInt8) :
    printFlag false dflt keyword octet mask =
      [.setting keyword (.flag (octet &&& mask ≠ 0))] := rfl

@[simp]
theorem printLifetime_all (dflt value : UInt32) :
    printLifetime false dflt keyword value = [.setting keyword (lifetime value)] := rfl

end Shown

/-! ## The header -/

structure HeaderValid (info : RaHeaderInfo) : Prop where
  preference : IsPreference info.advDefaultPreference
  lifetime_nonneg : 0 ≤ info.advDefaultLifetime
  lifetime_le : info.advDefaultLifetime ≤ 65535

def headerStatements (info : RaHeaderInfo) (ceaseAdv : Bool) : List Statement :=
  [.setting .advManagedFlag (.flag info.advManagedFlag),
    .setting .advOtherConfigFlag (.flag info.advOtherConfigFlag),
    .setting .advReachableTime (.number info.advReachableTime.toNat),
    .setting .advRetransTimer (.number info.advRetransTimer.toNat),
    .setting .advCurHopLimit (.number info.advCurHopLimit.toNat),
    .setting .advDefaultLifetime
      (.number (if ceaseAdv then 0 else info.advDefaultLifetime.toNat)),
    .setting .advHomeAgentFlag (.flag info.advHomeAgentFlag),
    .setting .advSNACRouterFlag (.flag info.advSNACRouterFlag),
    .setting .advDefaultPreference (.preference (preferenceShown info.advDefaultPreference))]

theorem toNat_uint16_ofInt {value : Int} (nonneg : 0 ≤ value) (bound : value ≤ 65535) :
    (UInt16.ofInt value).toNat = value.toNat := by
  simp only [UInt16.ofInt, UInt16.toNat_ofNat']
  omega

theorem printHeader_of_holds {mem : Memory} {info : RaHeaderInfo} {ceaseAdv : Bool}
    (valid : HeaderValid info) (stored : mem.Holds 0 (raHeaderBlock info ceaseAdv)) :
    printHeader mem false = headerStatements info ceaseAdv := by
  simp only [raHeaderBlock, Memory.holds_append, Memory.holds_cons, List.length_append,
    List.length_cons, List.length_nil, length_be16, length_be32, Memory.holds_nil, and_true,
    Nat.zero_add, Nat.reduceAdd] at stored
  rcases stored with ⟨⟨⟨⟨-, hopLimit, flags⟩, routerLifetime⟩, reachable⟩, retransmit⟩
  have lifetimeRead := Memory.u16_of_holds routerLifetime
  have reachableRead := Memory.u32_of_holds reachable
  have retransmitRead := Memory.u32_of_holds retransmit
  have seconds : (if ceaseAdv then (0 : UInt16) else UInt16.ofInt info.advDefaultLifetime).toNat =
      if ceaseAdv then 0 else info.advDefaultLifetime.toNat := by
    cases ceaseAdv
    · simpa using toNat_uint16_ofInt valid.lifetime_nonneg valid.lifetime_le
    · rfl
  rcases raFlagsReserved_shown valid.preference with
    ⟨managed, other, homeAgent, snacRouter, preference⟩
  simp only [printHeader, printFlag_all, printNumber_all, hopLimit, flags, lifetimeRead,
    reachableRead, retransmitRead, seconds, managed, other, homeAgent, snacRouter, preference,
    Bool.decide_eq_true, headerStatements]
  rfl

/-! ## Single options -/

/-- What the two walks print for an option, wherever it is stored. -/
structure Prints (order : ByteOrder) (block : Bytes) (settings blocks : List Statement) :
    Prop where
  settings_eq : ∀ (mem : Memory) (visit : Visit), mem.Holds visit.offset block →
    visit.optlen = block.length → printOption order mem false visit = settings
  blocks_eq : ∀ (mem : Memory) (visit : Visit), mem.Holds visit.offset block →
    visit.optlen = block.length → printBlock mem false visit = blocks

def isBlockType (type : UInt8) : Bool :=
  type = ndOptPrefixInformation || type = ndOptRouteInformation ||
    type = ndOptRdnssInformation || type = ndOptDnsslInformation || type = ndOptPref64

theorem prints_of_settings {order : ByteOrder} {block : Bytes} {type : UInt8}
    {settings : List Statement} (first : block.head? = some type)
    (isSetting : isBlockType type = false)
    (prints : ∀ (mem : Memory) (visit : Visit), mem.Holds visit.offset block →
      visit.optlen = block.length → printOption order mem false visit = settings) :
    Prints order block settings [] := by
  refine ⟨prints, ?_⟩
  intro mem visit stored _
  simp only [isBlockType, Bool.or_eq_false_iff, decide_eq_false_iff_not] at isSetting
  simp only [printBlock, Memory.eq_of_holds_head? stored first, isSetting, if_false]

theorem prints_of_blocks {order : ByteOrder} {block : Bytes} {type : UInt8}
    {blocks : List Statement} (first : block.head? = some type) (isBlock : isBlockType type = true)
    (prints : ∀ (mem : Memory) (visit : Visit), mem.Holds visit.offset block →
      visit.optlen = block.length → printBlock mem false visit = blocks) :
    Prints order block [] blocks := by
  refine ⟨?_, prints⟩
  intro mem visit stored _
  simp only [isBlockType, Bool.or_eq_true, decide_eq_true_eq] at isBlock
  simp only [printOption, Memory.eq_of_holds_head? stored first]
  rcases isBlock with (((rfl | rfl) | rfl) | rfl) | rfl <;> rfl

theorem prints_prefixBlock (order : ByteOrder) (entry : AdvPrefix) (ceaseAdv : Bool) :
    Prints order (prefixBlock entry ceaseAdv) []
      [.opens (.prefixInfo entry.prefixAddr entry.prefixLen.toNat),
        .setting .advValidLifetime (lifetime (piValidTime entry ceaseAdv)),
        .setting .advPreferredLifetime (lifetime (piPreferredTime entry ceaseAdv)),
        .setting .advOnLink (.flag entry.advOnLinkFlag),
        .setting .advAutonomous (.flag entry.advAutonomousFlag),
        .setting .advRouterAddr (.flag entry.advRouterAddr),
        .setting .advDHCPv6PDPreferred (.flag entry.advDHCPv6PDPreferredFlag), .closes] := by
  apply prints_of_blocks rfl (by decide)
  intro mem visit stored _
  simp only [prefixBlock, List.append_assoc, Memory.holds_append, Memory.holds_cons,
    Memory.holds_nil, and_true, List.length_cons, List.length_nil, length_be32, Nat.add_assoc,
    Nat.zero_add, Nat.reduceAdd] at stored
  rcases stored with ⟨⟨type, -, prefixLen, flags⟩, valid, preferred, -, address⟩
  have validRead := Memory.u32_of_holds valid
  have preferredRead := Memory.u32_of_holds preferred
  have addressRead := addrAt_of_holds address
  rcases piFlagsReserved_shown entry with ⟨onLink, autonomous, routerAddr, pdPreferred⟩
  simp only [printBlock, type, if_true, printPrefix, prefixLen, flags, validRead, preferredRead,
    addressRead, printFlag_all, printLifetime_all, onLink, autonomous, routerAddr, pdPreferred,
    Bool.decide_eq_true]
  rfl

theorem prints_mtuBlock (order : ByteOrder) (advLinkMTU : UInt32) :
    Prints order (mtuBlock advLinkMTU)
      [.setting .advLinkMTU (.number advLinkMTU.toNat)] [] := by
  apply prints_of_settings rfl (by decide)
  intro mem visit stored _
  simp only [mtuBlock, List.append_assoc, Memory.holds_append, Memory.holds_cons,
    Memory.holds_nil, and_true, List.length_cons, List.length_nil, length_be16, Nat.add_assoc,
    Nat.zero_add, Nat.reduceAdd] at stored
  rcases stored with ⟨⟨type, -⟩, -, mtu⟩
  simp only [printOption, type, if_true, Memory.u32_of_holds mtu, printNumber_all]

/-- The flags of the Home Agent Information are written and read by the machine
in its own byte order. -/
theorem load16_of_holds {order : ByteOrder} {mem : Memory} {offset : Nat} {value : UInt16}
    (stored : mem.Holds offset (order.store16 value)) : order.load16 mem offset = value := by
  cases order with
  | bigEndian => exact Memory.u16_of_holds stored
  | littleEndian =>
      simp only [ByteOrder.store16, be16, List.reverse_cons, List.reverse_nil, List.nil_append,
        List.singleton_append, Memory.holds_cons, Memory.holds_nil, and_true] at stored
      apply UInt16.toNat_inj.mp
      simp only [ByteOrder.load16, stored, UInt16.toNat_ofNat', UInt8.toNat_ofNat']
      have := value.toNat_lt
      omega

theorem homeAgentFlags_shown (order : ByteOrder) (advMobRtrSupportFlag : Bool) :
    (if advMobRtrSupportFlag then ndOptHaiFlagSupportMr order else 0) &&&
        ndOptHaiFlagSupportMr order ≠ 0 ↔ advMobRtrSupportFlag = true := by
  cases order <;> revert advMobRtrSupportFlag <;> decide

theorem prints_homeAgentInfoBlock (order : ByteOrder) {mipv6 : Mipv6}
    (nonneg : 0 ≤ mipv6.homeAgentLifetime) (bound : mipv6.homeAgentLifetime ≤ 65535) :
    Prints order (homeAgentInfoBlock order mipv6)
      [.setting .advHomeAgentInfo (.flag true),
        .setting .advMobRtrSupportFlag (.flag mipv6.advMobRtrSupportFlag),
        .setting .homeAgentPreference (.number mipv6.homeAgentPreference.toNat),
        .setting .homeAgentLifetime (.number mipv6.homeAgentLifetime.toNat)] [] := by
  apply prints_of_settings rfl (by decide)
  intro mem visit stored _
  have storedLength : (order.store16 (if mipv6.advMobRtrSupportFlag then
      ndOptHaiFlagSupportMr order else 0)).length = 2 := by cases order <;> rfl
  simp only [homeAgentInfoBlock, List.append_assoc, Memory.holds_append, Memory.holds_cons,
    Memory.holds_nil, and_true, List.length_cons, List.length_nil, length_be16, storedLength,
    Nat.add_assoc, Nat.zero_add, Nat.reduceAdd] at stored
  rcases stored with ⟨⟨type, -⟩, flags, preference, seconds⟩
  have flagsRead := load16_of_holds flags
  have preferenceRead := Memory.u16_of_holds preference
  have secondsRead := Memory.u16_of_holds seconds
  have shown := homeAgentFlags_shown order mipv6.advMobRtrSupportFlag
  have branch : printOption order mem false visit =
      printHomeAgentInfo order mem false visit.offset := by
    simp only [printOption, type]
    rfl
  simp only [branch, printHomeAgentInfo, flagsRead, preferenceRead, secondsRead, shown,
    toNat_uint16_ofInt nonneg bound, printNumber_all, Bool.decide_eq_true]
  rfl

theorem prints_capportBlock (order : ByteOrder) {url : Bytes} (noNul : ∀ octet ∈ url, octet ≠ 0)
    (bound : url.length ≤ 255) :
    Prints order (capportBlock url)
      [.setting .advCaptivePortalAPI (.text (sanitized url))] [] := by
  apply prints_of_settings rfl (by decide)
  intro mem visit stored length
  have read : cString (mem.slice (visit.offset + 2) (visit.optlen - 2)) = url := by
    have octets : visit.optlen - 2 = (url ++ List.replicate
        (capportLen url * 8 - (url.length + 2)) (0 : UInt8)).length := by
      simp only [length, capportBlock, List.length_append, List.length_cons, List.length_nil]
      omega
    have slice := Memory.slice_of_holds (Memory.holds_append.mp stored).2
    simp only [List.length_cons, List.length_nil, Nat.zero_add, Nat.reduceAdd] at slice
    simp only [octets, slice, cString]
    rw [List.takeWhile_append_of_pos (by simpa using noNul)]
    cases capportLen url * 8 - (url.length + 2) <;> simp [List.replicate_succ]
  have type := Memory.eq_of_holds_head? stored rfl
  have branch : printOption order mem false visit = printCaptivePortal mem visit := by
    simp only [printOption, type]
    rfl
  simp only [branch, printCaptivePortal, read]

theorem prints_nat64prefixBlock (order : ByteOrder) {entry : NAT64Prefix}
    (prefixLen : entry.prefixLen ∈ [32, 40, 48, 56, 64, 96])
    (bound : entry.currValidlft.toNat ≤ 65528) :
    Prints order (nat64prefixBlock entry) []
      [.opens (.nat64Prefix (front entry.prefixAddr 12) entry.prefixLen.toNat),
        .setting .advValidLifetime (.number ((entry.currValidlft.toNat + 7) / 8 * 8)),
        .closes] := by
  apply prints_of_blocks rfl (by decide)
  intro mem visit stored length
  have optlen : visit.optlen = 16 := by simpa using length
  simp only [nat64prefixBlock, List.append_assoc, Memory.holds_append, Memory.holds_cons,
    Memory.holds_nil, and_true, List.length_cons, List.length_nil, length_be16, Nat.add_assoc,
    Nat.zero_add, Nat.reduceAdd] at stored
  rcases stored with ⟨⟨type, -⟩, lifetimePreflen, address⟩
  have addressRead := addrAt_eq_front address
  have value := toNat_nat64LifetimePreflen bound
  have code := toNat_prefixLengthCode_lt entry.prefixLen
  have codeRead : (mem.u16 (visit.offset + 2) &&& 7).toNat =
      (prefixLengthCode entry.prefixLen).toNat := by
    simp only [Memory.u16_of_holds lifetimePreflen, UInt16.toNat_and, UInt16.reduceToNat,
      and_seven, value]
    omega
  have lifetimeRead : (mem.u16 (visit.offset + 2) &&& 0xFFF8).toNat =
      (entry.currValidlft.toNat + 7) / 8 * 8 := by
    simp only [Memory.u16_of_holds lifetimePreflen, UInt16.toNat_and, UInt16.reduceToNat]
    rw [and_0xFFF8 (UInt16.toNat_lt _), value]
    omega
  have size : prefixSize (prefixLengthCode entry.prefixLen).toNat = entry.prefixLen.toNat ∧
      ¬(prefixLengthCode entry.prefixLen).toNat > 5 := by
    revert prefixLen
    generalize entry.prefixLen = len
    intro mem
    simp only [List.mem_cons, List.not_mem_nil, or_false] at mem
    rcases mem with rfl | rfl | rfl | rfl | rfl | rfl <;> decide
  have branch : printBlock mem false visit = printPref64 mem visit := by
    simp only [printBlock, type]
    rfl
  simp only [branch, printPref64, optlen, ne_eq, not_true_eq_false, if_false, codeRead,
    lifetimeRead, addressRead, size.1, size.2, List.nil_append]

theorem prints_rdnssBlock (order : ByteOrder) {rdnss : AdvRDNSS} (ceaseAdv : Bool)
    (some : 1 ≤ rdnss.advRDNSSAddr.length) (bound : rdnss.advRDNSSAddr.length ≤ 127) :
    Prints order (rdnssBlock rdnss ceaseAdv) []
      [.opens (.rdnss rdnss.advRDNSSAddr),
        .setting .advRDNSSLifetime (lifetime
          (if ceaseAdv && rdnss.flushRDNSSFlag then 0 else rdnss.advRDNSSLifetime)),
        .closes] := by
  apply prints_of_blocks rfl (by decide)
  intro mem visit stored _
  simp only [rdnssBlock, rdnssInfo, List.append_assoc, Memory.holds_append, Memory.holds_cons,
    Memory.holds_nil, and_true, List.length_cons, List.length_nil, length_be16, length_be32,
    Nat.add_assoc, Nat.zero_add, Nat.reduceAdd] at stored
  rcases stored with ⟨⟨type, units⟩, -, seconds, addresses⟩
  have unitsRead : (mem (visit.offset + 1)).toNat = 1 + 2 * rdnss.advRDNSSAddr.length := by
    simp only [units, UInt8.toNat_ofNat', rdnssBytes]
    omega
  have accepted : (mem (visit.offset + 1) ≥ 3 && mem (visit.offset + 1) % 2 = 1) = true := by
    simp only [ge_iff_le, Bool.and_eq_true, decide_eq_true_eq, UInt8.le_iff_toNat_le,
      ← UInt8.toNat_inj, UInt8.toNat_mod, UInt8.reduceToNat, unitsRead]
    omega
  have count : ((mem (visit.offset + 1)).toNat - 1) / 2 = rdnss.advRDNSSAddr.length := by omega
  have branch : printBlock mem false visit = printRdnss mem visit.offset := by
    simp only [printBlock, type]
    rfl
  simp only [branch, printRdnss, accepted, if_true, count, addrsAt_of_holds addresses,
    Memory.u32_of_holds seconds]

theorem prefixLen_le_routeLen {prefixLen : UInt8} (bound : prefixLen ≤ 128) :
    prefixLen.toNat ≤ 8 * (((routeLen prefixLen).toNat - 1) * 8) := by
  simp only [UInt8.le_iff_toNat_le, UInt8.reduceToNat] at bound
  simp only [routeLen, UInt8.le_iff_toNat_le, ← UInt8.toNat_inj]
  split_ifs <;> simp_all

theorem routeBlock_eq {route : AdvRoute} (bound : route.prefixLen ≤ 128) (ceaseAdv : Bool) :
    routeBlock route ceaseAdv =
      [ndOptRouteInformation, routeLen route.prefixLen, route.prefixLen,
          preferenceBits route.advRoutePreference] ++
        (be32 (if ceaseAdv && route.removeRouteFlag then 0 else route.advRouteLifetime) ++
          route.prefixAddr.toList.take (((routeLen route.prefixLen).toNat - 1) * 8)) := by
  have units := (routeLen_bounds bound).1
  have split : (routeLen route.prefixLen).toNat * 8 =
      ((routeLen route.prefixLen).toNat - 1) * 8 + 8 := by omega
  simp only [routeBlock, routeInfo, split, List.append_assoc]
  rfl

theorem prints_routeBlock (order : ByteOrder) {route : AdvRoute} (ceaseAdv : Bool)
    (bound : route.prefixLen ≤ 128) (valid : IsPreference route.advRoutePreference) :
    Prints order (routeBlock route ceaseAdv) []
      [.opens (.route
          (front route.prefixAddr (((routeLen route.prefixLen).toNat - 1) * 8))
          route.prefixLen.toNat),
        .setting .advRoutePreference (.preference (preferenceShown route.advRoutePreference)),
        .setting .advRouteLifetime (lifetime
          (if ceaseAdv && route.removeRouteFlag then 0 else route.advRouteLifetime)),
        .closes] := by
  have length := length_routeBlock route ceaseAdv
  have block := routeBlock_eq bound ceaseAdv
  have first : (routeBlock route ceaseAdv).head? = some ndOptRouteInformation := by
    simp only [block]
    rfl
  apply prints_of_blocks first (by decide)
  intro mem visit stored optlen
  simp only [length] at optlen
  simp only [block, Memory.holds_append, Memory.holds_cons, Memory.holds_nil, and_true,
    List.length_cons, List.length_nil, length_be32, Nat.add_assoc, Nat.zero_add, Nat.reduceAdd]
    at stored
  rcases stored with ⟨⟨type, units, prefixLen, flags⟩, seconds, address⟩
  have addressRead := addrAt_eq_front address
  have settings : printRouteSettings mem false visit.offset =
      [.setting .advRoutePreference (.preference (preferenceShown route.advRoutePreference)),
        .setting .advRouteLifetime (lifetime
          (if ceaseAdv && route.removeRouteFlag then 0 else route.advRouteLifetime)),
        .closes] := by
    simp only [printRouteSettings, flags, preferenceOf_preferenceBits valid,
      Memory.u32_of_holds seconds]
    rfl
  have branch : printBlock mem false visit = printRoute mem false visit := by
    simp only [printBlock, type]
    rfl
  simp only [branch, printRoute, optlen, settings, units, prefixLen]
  by_cases zero : route.prefixLen = 0
  · simp [zero, routeLen, front_zero]
  by_cases short : route.prefixLen ≤ 64
  · have two : routeLen route.prefixLen = 2 := by simp [routeLen, zero, short]
    simp only [two] at addressRead ⊢
    have within : ¬route.prefixLen > 64 := by simpa using short
    simpa [within] using addressRead
  · have three : routeLen route.prefixLen = 3 := by simp [routeLen, zero, short, bound]
    simp only [three] at addressRead ⊢
    simpa using addressRead

/-! ## Whole advertisements -/

/-- The options with fields that `radvdump` shows, apart from search lists. -/
inductive RaOption where
  | prefixInfo (entry : AdvPrefix)
  | route (route : AdvRoute)
  | rdnss (rdnss : AdvRDNSS)
  | nat64Prefix (entry : NAT64Prefix)
  | mtu (advLinkMTU : UInt32)
  | homeAgentInfo (mipv6 : Mipv6)
  | capport (captivePortal : Bytes)

namespace RaOption

def Valid : RaOption → Prop
  | .prefixInfo _ | .mtu _ => True
  | .route advRoute => advRoute.prefixLen ≤ 128 ∧ IsPreference advRoute.advRoutePreference
  | .rdnss advRdnss => 1 ≤ advRdnss.advRDNSSAddr.length ∧ advRdnss.advRDNSSAddr.length ≤ 127
  | .nat64Prefix entry => entry.prefixLen ∈ [32, 40, 48, 56, 64, 96] ∧
      entry.currValidlft.toNat ≤ 65528
  | .homeAgentInfo mipv6 => 0 ≤ mipv6.homeAgentLifetime ∧ mipv6.homeAgentLifetime ≤ 65535
  | .capport captivePortal => (∀ octet ∈ captivePortal, octet ≠ 0) ∧
      1 ≤ captivePortal.length ∧ captivePortal.length ≤ 255

/-- The function of `send.c` that writes the option; for routes and DNS servers
the body of its loop. -/
def add (order : ByteOrder) (ceaseAdv : Bool) (sb : SafeBuffer) :
    RaOption → Except Exit SafeBuffer
  | .prefixInfo entry => addRaOptionPrefix sb entry ceaseAdv
  | .route advRoute => sb.append (routeBlock advRoute ceaseAdv)
  | .rdnss advRdnss => addRdnss sb advRdnss ceaseAdv
  | .nat64Prefix entry => addRaOptionNat64Prefix sb entry
  | .mtu advLinkMTU => addRaOptionMtu sb advLinkMTU
  | .homeAgentInfo mipv6 => addRaOptionMipv6HomeAgentInfo order sb mipv6
  | .capport captivePortal => addRaOptionCapport sb captivePortal

/-- The option is shown with all its fields: of a route all bits of the prefix, of
a NAT64 prefix 96 bits and the lifetime rounded up to a multiple of eight, of a
URL a text that no other URL has. -/
def Recovered (ceaseAdv : Bool) (settings blocks : List Statement) : RaOption → Prop
  | .prefixInfo entry => settings = [] ∧
      blocks = [.opens (.prefixInfo entry.prefixAddr entry.prefixLen.toNat),
        .setting .advValidLifetime (lifetime (piValidTime entry ceaseAdv)),
        .setting .advPreferredLifetime (lifetime (piPreferredTime entry ceaseAdv)),
        .setting .advOnLink (.flag entry.advOnLinkFlag),
        .setting .advAutonomous (.flag entry.advAutonomousFlag),
        .setting .advRouterAddr (.flag entry.advRouterAddr),
        .setting .advDHCPv6PDPreferred (.flag entry.advDHCPv6PDPreferredFlag), .closes]
  | .route advRoute => settings = [] ∧ ∃ addr,
      AgreeOn advRoute.prefixLen.toNat addr advRoute.prefixAddr ∧
      blocks = [.opens (.route addr advRoute.prefixLen.toNat),
        .setting .advRoutePreference (.preference (preferenceShown advRoute.advRoutePreference)),
        .setting .advRouteLifetime (lifetime
          (if ceaseAdv && advRoute.removeRouteFlag then 0 else advRoute.advRouteLifetime)), .closes]
  | .rdnss advRdnss => settings = [] ∧
      blocks = [.opens (.rdnss advRdnss.advRDNSSAddr),
        .setting .advRDNSSLifetime (lifetime
          (if ceaseAdv && advRdnss.flushRDNSSFlag then 0 else advRdnss.advRDNSSLifetime)), .closes]
  | .nat64Prefix entry => settings = [] ∧ ∃ addr seconds, AgreeOn 96 addr entry.prefixAddr ∧
      entry.currValidlft.toNat ≤ seconds ∧ seconds < entry.currValidlft.toNat + 8 ∧
      8 ∣ seconds ∧
      blocks = [.opens (.nat64Prefix addr entry.prefixLen.toNat),
        .setting .advValidLifetime (.number seconds), .closes]
  | .mtu advLinkMTU => blocks = [] ∧
      settings = [.setting .advLinkMTU (.number advLinkMTU.toNat)]
  | .homeAgentInfo mipv6 => blocks = [] ∧
      settings = [.setting .advHomeAgentInfo (.flag true),
        .setting .advMobRtrSupportFlag (.flag mipv6.advMobRtrSupportFlag),
        .setting .homeAgentPreference (.number mipv6.homeAgentPreference.toNat),
        .setting .homeAgentLifetime (.number mipv6.homeAgentLifetime.toNat)]
  | .capport captivePortal => blocks = [] ∧ ∃ text,
      (∀ url, sanitized url = text ↔ url = captivePortal) ∧
      settings = [.setting .advCaptivePortalAPI (.text text)]

def block (order : ByteOrder) (ceaseAdv : Bool) : RaOption → Bytes
  | .prefixInfo entry => prefixBlock entry ceaseAdv
  | .route advRoute => routeBlock advRoute ceaseAdv
  | .rdnss advRdnss => rdnssBlock advRdnss ceaseAdv
  | .nat64Prefix entry => nat64prefixBlock entry
  | .mtu advLinkMTU => mtuBlock advLinkMTU
  | .homeAgentInfo mipv6 => homeAgentInfoBlock order mipv6
  | .capport captivePortal => capportBlock captivePortal

variable {order : ByteOrder} {ceaseAdv : Bool} {option : RaOption}

theorem appends_add (option : RaOption) :
    SafeBuffer.Appends (option.add order ceaseAdv ·) (option.block order ceaseAdv) := by
  cases option with
  | prefixInfo | route | nat64Prefix | mtu | homeAgentInfo => exact SafeBuffer.appends_append _
  | rdnss advRdnss => exact appends_addRdnss advRdnss ceaseAdv
  | capport captivePortal => exact appends_addRaOptionCapport captivePortal

theorem wellFormed_block (valid : option.Valid) : WellFormed (option.block order ceaseAdv) := by
  cases option with
  | prefixInfo entry => exact wellFormed_prefixBlock entry ceaseAdv
  | route advRoute => exact wellFormed_routeBlock valid.1 ceaseAdv
  | rdnss advRdnss =>
      apply wellFormed_rdnssBlock
      have bound : advRdnss.advRDNSSAddr.length ≤ 127 := valid.2
      simp only [rdnssBytes]
      omega
  | nat64Prefix entry => exact wellFormed_nat64prefixBlock entry
  | mtu advLinkMTU => exact wellFormed_mtuBlock advLinkMTU
  | homeAgentInfo mipv6 => exact wellFormed_homeAgentInfoBlock order mipv6
  | capport captivePortal => exact wellFormed_capportBlock valid.2.2

theorem add_new (valid : option.Valid) :
    ∃ sb, option.add order ceaseAdv SafeBuffer.new = .ok sb ∧
      sb.bytes = option.block order ceaseAdv := by
  have formed := @wellFormed_block order ceaseAdv option valid
  have small := formed.octet_le
  have length := formed.length_eq
  rcases @appends_add order ceaseAdv option SafeBuffer.new (by simp; omega) with
    ⟨sb, sbEq, sbBytes⟩
  exact ⟨sb, sbEq, by simpa using sbBytes⟩

theorem prints_block (valid : option.Valid) :
    ∃ settings blocks, Prints order (option.block order ceaseAdv) settings blocks ∧
      option.Recovered ceaseAdv settings blocks := by
  cases option with
  | prefixInfo entry => exact ⟨_, _, prints_prefixBlock order entry ceaseAdv, rfl, rfl⟩
  | route advRoute =>
      refine ⟨_, _, prints_routeBlock order ceaseAdv valid.1 valid.2, rfl, _, ?_, rfl⟩
      apply (agreeOn_front _ _).mono
      exact prefixLen_le_routeLen valid.1
  | rdnss advRdnss => exact ⟨_, _, prints_rdnssBlock order ceaseAdv valid.1 valid.2, rfl, rfl⟩
  | nat64Prefix entry =>
      exact ⟨_, _, prints_nat64prefixBlock order valid.1 valid.2, rfl, _, _,
        agreeOn_front entry.prefixAddr 12, by omega, by omega, ⟨_, Nat.mul_comm _ _⟩, rfl⟩
  | mtu advLinkMTU => exact ⟨_, _, prints_mtuBlock order advLinkMTU, rfl, rfl⟩
  | homeAgentInfo mipv6 =>
      exact ⟨_, _, prints_homeAgentInfoBlock order valid.1 valid.2, rfl, rfl⟩
  | capport captivePortal =>
      refine ⟨_, _, prints_capportBlock order valid.1 valid.2.2, rfl, _, ?_, rfl⟩
      intro url
      exact sanitized_injective.eq_iff

/-- What is written and what is printed, option by option. -/
theorem exists_outputs {options : List RaOption} (valid : ∀ option ∈ options, option.Valid) :
    ∃ sbs outs, List.Forall₂ (fun option sb => option.add order ceaseAdv SafeBuffer.new = .ok sb)
        options sbs ∧
      sbs.map SafeBuffer.bytes = options.map (RaOption.block order ceaseAdv) ∧
      List.Forall₂ (fun option (out : List Statement × List Statement) =>
        option.Recovered ceaseAdv out.1 out.2) options outs ∧
      List.Forall₂ (fun block (out : List Statement × List Statement) =>
        Prints order block out.1 out.2) (options.map (RaOption.block order ceaseAdv)) outs := by
  induction options with
  | nil => exact ⟨[], [], .nil, rfl, .nil, .nil⟩
  | cons option rest ih =>
      have validHere := valid option (by simp)
      rcases ih fun other otherMem => valid other (by simp [otherMem]) with
        ⟨sbs, outs, added, bytes, recovered, printed⟩
      rcases @add_new order ceaseAdv option validHere with ⟨sb, addedHere, bytesHere⟩
      rcases @prints_block order ceaseAdv option validHere with
        ⟨settings, blocks, printedHere, recoveredHere⟩
      refine ⟨sb :: sbs, (settings, blocks) :: outs, .cons addedHere added, ?_,
        .cons recoveredHere recovered, .cons printedHere printed⟩
      rw [List.map_cons, List.map_cons, bytesHere, bytes]

end RaOption

theorem flatMap_visits {print : Visit → List Statement} {mem : Memory} {offset : Nat} {len : Int}
    {blocks : List Bytes} {outs : List (List Statement)}
    (prints : List.Forall₂ (fun block out => ∀ visit : Visit, mem.Holds visit.offset block →
      visit.optlen = block.length → print visit = out) blocks outs)
    (stored : mem.Holds offset blocks.flatten) :
    (visits offset len blocks).flatMap print = outs.flatten := by
  induction prints generalizing offset len with
  | nil => rfl
  | @cons block out blocks outs first _ ih =>
      simp only [List.flatten_cons, Memory.holds_append] at stored
      simp only [visits, List.flatMap_cons, List.flatten_cons, ih stored.2]
      have here := first ⟨offset, block.length, len⟩ stored.1 rfl
      simp only [here]

/-- An advertisement is printed as its header, the settings of its options, and
their blocks; without options it is not closed. -/
theorem printFf_of_holds {order : ByteOrder} {mem : Memory} {info : RaHeaderInfo}
    {ceaseAdv : Bool} {blocks : List Bytes} {outs : List (List Statement × List Statement)}
    (valid : HeaderValid info) (wellFormed : ∀ block ∈ blocks, WellFormed block)
    (prints : List.Forall₂ (fun block out => Prints order block out.1 out.2) blocks outs)
    (stored : mem.Holds 0 (raHeaderBlock info ceaseAdv ++ blocks.flatten)) :
    printFf order mem (raHeaderBlock info ceaseAdv ++ blocks.flatten).length false =
      [.opens .interface] ++ headerStatements info ceaseAdv ++
        ((outs.map Prod.fst).flatten ++ (outs.map Prod.snd).flatten ++
          if blocks = [] then [] else [.closes]) := by
  have parts := Memory.holds_append.mp stored
  simp only [length_raHeaderBlock, Nat.zero_add] at parts
  have header := printHeader_of_holds valid parts.1
  have total : ((raHeaderBlock info ceaseAdv ++ blocks.flatten).length : Int) - 16 =
      blocks.flatten.length := by
    simp only [List.length_append, length_raHeaderBlock]
    omega
  have walked := walk_of_holds wellFormed parts.2 (fun _ _ => rfl : ∀ visit ∈
    visits 16 blocks.flatten.length blocks, (fun _ => false) visit = false)
  have settings := @flatMap_visits (printOption order mem false) mem 16 blocks.flatten.length
    blocks (outs.map Prod.fst) (by
      apply List.forall₂_map_right_iff.mpr
      exact prints.imp fun block out printed visit => printed.settings_eq mem visit) parts.2
  have shown := @flatMap_visits (printBlock mem false) mem 16 blocks.flatten.length
    blocks (outs.map Prod.snd) (by
      apply List.forall₂_map_right_iff.mpr
      exact prints.imp fun block out printed visit => printed.blocks_eq mem visit) parts.2
  simp only [printFf, header, printFfWalk, total, walked, settings, shown]
  cases prints with
  | nil => simp
  | @cons block out rest others first later =>
      have filled := (wellFormed block (by simp)).length_pos
      have long : ¬(raHeaderBlock info ceaseAdv ++ (block :: rest).flatten).length = 16 := by
        simp only [List.length_append, length_raHeaderBlock, List.flatten_cons]
        omega
      simp only [long, if_false]
      simp [logEnd]

/-- The `add_ra_*` functions write the header and the options, and from a message
made of what they write `print_ff` recovers every field of the header and of each
option in order. -/
def RoundTrips (order : ByteOrder) (ceaseAdv : Bool) (info : RaHeaderInfo)
    (options : List RaOption) : Prop :=
  ∃ raHdr sbs, addRaHeader SafeBuffer.new info ceaseAdv = .ok raHdr ∧
    List.Forall₂ (fun option sb => option.add order ceaseAdv SafeBuffer.new = .ok sb)
      options sbs ∧
    ∀ mem : Memory, mem.Holds 0 (raHdr.bytes ++ (sbs.map SafeBuffer.bytes).flatten) →
      ∃ outs : List (List Statement × List Statement),
        List.Forall₂ (fun option out => option.Recovered ceaseAdv out.1 out.2) options outs ∧
        printFf order mem (raHdr.bytes ++ (sbs.map SafeBuffer.bytes).flatten).length false =
          [.opens .interface] ++ headerStatements info ceaseAdv ++
            ((outs.map Prod.fst).flatten ++ (outs.map Prod.snd).flatten ++
              if options = [] then [] else [.closes])

/-- Every header and every list of options that `radvd` can hold make the round
trip through `radvdump` with defaults not excluded. -/
theorem roundTrips (order : ByteOrder) (ceaseAdv : Bool) {info : RaHeaderInfo}
    {options : List RaOption} (headerValid : HeaderValid info)
    (valid : ∀ option ∈ options, option.Valid) : RoundTrips order ceaseAdv info options := by
  rcases addRaHeader_new info ceaseAdv with ⟨raHdr, headerEq, headerBytes⟩
  rcases @RaOption.exists_outputs order ceaseAdv options valid with
    ⟨sbs, outs, added, bytes, recovered, printed⟩
  refine ⟨raHdr, sbs, headerEq, added, ?_⟩
  intro mem stored
  simp only [headerBytes, bytes] at stored ⊢
  refine ⟨outs, recovered, ?_⟩
  have wellFormed : ∀ block ∈ options.map (RaOption.block order ceaseAdv), WellFormed block := by
    intro block blockMem
    rcases List.mem_map.mp blockMem with ⟨option, optionMem, rfl⟩
    exact RaOption.wellFormed_block (valid option optionMem)
  simpa only [List.map_eq_nil_iff] using printFf_of_holds headerValid wellFormed printed stored

def exampleHeader : RaHeaderInfo :=
  { ifaceInitDefaults.raHeaderInfo with advDefaultLifetime := 1800, advDefaultPreference := -1 }

def exampleOptions : List RaOption :=
  [.mtu 1500, .prefixInfo prefixInitDefaults,
    .nat64Prefix ⟨In6Addr.unspecified, 96, 601, 601⟩,
    .route ⟨In6Addr.unspecified, 48, 1, 0xffffffff, true⟩,
    .rdnss ⟨1800, true, [In6Addr.unspecified]⟩,
    .homeAgentInfo ⟨false, true, 10, 1800, true⟩, .capport [104, 92, 1]]

theorem roundTrips_example : RoundTrips .littleEndian false exampleHeader exampleOptions := by
  apply roundTrips
  · exact ⟨.inl rfl, by decide, by decide⟩
  · simp [exampleOptions, RaOption.Valid, IsPreference]

end Radvd.Dump
