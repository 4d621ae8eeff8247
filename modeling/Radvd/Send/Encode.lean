import Mathlib.Data.Rat.Floor
import Radvd.Library.Tlv
import Radvd.SafeBuffer

/-!
# The encoders of `send.c` that fill one block

Each `add_ra_*` function of `send.c` that writes a single block is given twice:
the octets of the structure it fills, in the order of its members, and the
function itself, which appends them to a buffer. The encoders that append in
several pieces come with the block they add up to.

For every option block the lemmas say that it announces its own length.
-/

namespace Radvd

open Wire SafeBuffer

/-! ## Router advertisement header -/

/-- The two preference bits of a flags octet: `(p << ND_OPT_RI_PRF_SHIFT) & MASK`. -/
def preferenceBits (preference : Int) : UInt8 :=
  UInt8.ofInt (preference * 8) &&& ndOptRiPrfMask

def raFlagsReserved (info : RaHeaderInfo) : UInt8 :=
  (if info.advManagedFlag then ndRaFlagManaged else 0) |||
    (if info.advOtherConfigFlag then ndRaFlagOther else 0) |||
    (if info.advHomeAgentFlag then ndRaFlagHomeAgent else 0) |||
    (if info.advSNACRouterFlag then ndRaFlagSnacRouter else 0) |||
    preferenceBits info.advDefaultPreference

/-- `struct nd_router_advert` as `add_ra_header` fills it. -/
def raHeaderBlock (info : RaHeaderInfo) (ceaseAdv : Bool) : Bytes :=
  [ndRouterAdvert, 0] ++ be16 0 ++ [info.advCurHopLimit, raFlagsReserved info] ++
    be16 (if ceaseAdv then 0 else UInt16.ofInt info.advDefaultLifetime) ++
    be32 info.advReachableTime ++ be32 info.advRetransTimer

def addRaHeader (sb : SafeBuffer) (info : RaHeaderInfo) (ceaseAdv : Bool) :
    Except Exit SafeBuffer :=
  sb.append (raHeaderBlock info ceaseAdv)

@[simp]
theorem length_raHeaderBlock (info : RaHeaderInfo) (ceaseAdv : Bool) :
    (raHeaderBlock info ceaseAdv).length = 16 := rfl

theorem addRaHeader_new (info : RaHeaderInfo) (ceaseAdv : Bool) :
    ∃ sb, addRaHeader SafeBuffer.new info ceaseAdv = .ok sb ∧
      sb.bytes = raHeaderBlock info ceaseAdv := by
  rcases SafeBuffer.append_ok SafeBuffer.new (raHeaderBlock info ceaseAdv) (by simp) with
    ⟨sb, sbEq, sbBytes⟩
  exact ⟨sb, sbEq, by simpa using sbBytes⟩

/-! ## Prefix information -/

def piFlagsReserved (entry : AdvPrefix) : UInt8 :=
  (if entry.advOnLinkFlag then ndOptPiFlagOnlink else 0) |||
    (if entry.advAutonomousFlag then ndOptPiFlagAuto else 0) |||
    (if entry.advRouterAddr then ndOptPiFlagRaddr else 0) |||
    (if entry.advDHCPv6PDPreferredFlag then ndOptPiFlagDhcpv6PdPref else 0)

def piValidTime (entry : AdvPrefix) (ceaseAdv : Bool) : UInt32 :=
  if ceaseAdv && entry.deprecatePrefixFlag then
    if entry.currValidlft < minAdvValidLifetime then entry.currValidlft
    else minAdvValidLifetime
  else entry.currValidlft

def piPreferredTime (entry : AdvPrefix) (ceaseAdv : Bool) : UInt32 :=
  if ceaseAdv && entry.deprecatePrefixFlag then 0 else entry.currPreferredlft

def prefixBlock (entry : AdvPrefix) (ceaseAdv : Bool) : Bytes :=
  [ndOptPrefixInformation, 4, entry.prefixLen, piFlagsReserved entry] ++
    be32 (piValidTime entry ceaseAdv) ++ be32 (piPreferredTime entry ceaseAdv) ++ be32 0 ++
    entry.prefixAddr.toList

def addRaOptionPrefix (sb : SafeBuffer) (entry : AdvPrefix) (ceaseAdv : Bool) :
    Except Exit SafeBuffer :=
  sb.append (prefixBlock entry ceaseAdv)

@[simp]
theorem length_prefixBlock (entry : AdvPrefix) (ceaseAdv : Bool) :
    (prefixBlock entry ceaseAdv).length = 32 := by
  simp [prefixBlock]

/-! ## NAT64 prefix -/

/-- The 3-bit code for the length of a NAT64 prefix. -/
def prefixLengthCode (prefixLen : UInt8) : UInt8 :=
  if prefixLen = 96 then 0
  else if prefixLen = 64 then 1
  else if prefixLen = 56 then 2
  else if prefixLen = 48 then 3
  else if prefixLen = 40 then 4
  else if prefixLen = 32 then 5
  else 0

def nat64LifetimePreflen (entry : NAT64Prefix) : UInt16 :=
  (((entry.currValidlft + 7) &&& 0xFFF8) |||
    (prefixLengthCode entry.prefixLen &&& 0x7).toUInt32).toUInt16

def nat64prefixBlock (entry : NAT64Prefix) : Bytes :=
  [ndOptPref64, 2] ++ be16 (nat64LifetimePreflen entry) ++ entry.prefixAddr.toList.take 12

def addRaOptionNat64Prefix (sb : SafeBuffer) (entry : NAT64Prefix) : Except Exit SafeBuffer :=
  sb.append (nat64prefixBlock entry)

@[simp]
theorem length_nat64prefixBlock (entry : NAT64Prefix) :
    (nat64prefixBlock entry).length = 16 := by
  simp [nat64prefixBlock]

/-! ## Route information -/

def routeLen (prefixLen : UInt8) : UInt8 :=
  if prefixLen = 0 then 1
  else if prefixLen ≤ 64 then 2
  else if prefixLen ≤ 128 then 3
  else 0

def routeInfo (route : AdvRoute) (ceaseAdv : Bool) : Bytes :=
  [ndOptRouteInformation, routeLen route.prefixLen, route.prefixLen,
      preferenceBits route.advRoutePreference] ++
    be32 (if ceaseAdv && route.removeRouteFlag then 0 else route.advRouteLifetime) ++
    route.prefixAddr.toList

/-- The part of the structure that goes into the option. -/
def routeBlock (route : AdvRoute) (ceaseAdv : Bool) : Bytes :=
  (routeInfo route ceaseAdv).take ((routeLen route.prefixLen).toNat * 8)

theorem length_routeBlock (route : AdvRoute) (ceaseAdv : Bool) :
    (routeBlock route ceaseAdv).length = (routeLen route.prefixLen).toNat * 8 := by
  have bound : (routeLen route.prefixLen).toNat ≤ 3 := by
    simp only [routeLen]
    split_ifs <;> decide
  simp [routeBlock, routeInfo]
  omega

/-! ## Recursive DNS servers -/

/-- The octets of an RDNSS option: its header and 16 for every address. -/
def rdnssBytes (rdnss : AdvRDNSS) : Nat :=
  8 + 16 * rdnss.advRDNSSAddr.length

def rdnssInfo (rdnss : AdvRDNSS) (ceaseAdv : Bool) : Bytes :=
  [ndOptRdnssInformation, UInt8.ofNat (rdnssBytes rdnss / 8)] ++ be16 0 ++
    be32 (if ceaseAdv && rdnss.flushRDNSSFlag then 0 else rdnss.advRDNSSLifetime)

def addRdnssAddrs (sb : SafeBuffer) (addrs : List In6Addr) : Except Exit SafeBuffer :=
  match addrs with
  | [] => pure sb
  | addr :: rest => do
      let sb ← sb.append addr.toList
      addRdnssAddrs sb rest

def rdnssBlock (rdnss : AdvRDNSS) (ceaseAdv : Bool) : Bytes :=
  rdnssInfo rdnss ceaseAdv ++ rdnss.advRDNSSAddr.flatMap (·.toList)

theorem appends_addRdnssAddrs (addrs : List In6Addr) :
    Appends (addRdnssAddrs · addrs) (addrs.flatMap (·.toList)) := by
  induction addrs with
  | nil => exact appends_pure
  | cons addr rest ih => exact (appends_append addr.toList).bind ih

theorem length_flatMap_toList (addrs : List In6Addr) :
    (addrs.flatMap (·.toList)).length = 16 * addrs.length := by
  induction addrs with
  | nil => rfl
  | cons addr rest ih =>
      rw [List.flatMap_cons, List.length_append, ih, Vector.length_toList, List.length_cons]
      omega

theorem length_rdnssBlock (rdnss : AdvRDNSS) (ceaseAdv : Bool) :
    (rdnssBlock rdnss ceaseAdv).length = rdnssBytes rdnss := by
  rw [rdnssBlock, List.length_append, length_flatMap_toList]
  simp [rdnssInfo, rdnssBytes]

/-! ## Source link-layer address -/

def sllaoBytes (sllao : Sllao) : Nat :=
  (sllao.ifHwaddrLen / 8).toNat + 2

def sllaoLen (sllao : Sllao) : Nat :=
  (sllaoBytes sllao + 7) / 8

def addRaOptionSllao (sb : SafeBuffer) (sllao : Sllao) : Except Exit SafeBuffer := do
  let sb ← sb.append [ndOptSourceLinkaddr, UInt8.ofNat (sllaoLen sllao)]
  let sb ← sb.append (sllao.ifHwaddr.toList.take (sllao.ifHwaddrLen / 8).toNat)
  sb.pad (sllaoLen sllao * 8 - sllaoBytes sllao)

def sllaoBlock (sllao : Sllao) : Bytes :=
  [ndOptSourceLinkaddr, UInt8.ofNat (sllaoLen sllao)] ++
    (sllao.ifHwaddr.toList.take (sllao.ifHwaddrLen / 8).toNat ++
      List.replicate (sllaoLen sllao * 8 - sllaoBytes sllao) 0)

theorem appends_addRaOptionSllao (sllao : Sllao) :
    Appends (addRaOptionSllao · sllao) (sllaoBlock sllao) :=
  (appends_append _).bind ((appends_append _).bind (appends_pad _))

theorem length_sllaoBlock {sllao : Sllao} (bound : sllao.ifHwaddrLen ≤ 128) :
    (sllaoBlock sllao).length = sllaoLen sllao * 8 := by
  have quotient : (sllao.ifHwaddrLen / 8).toNat ≤ 16 := by omega
  simp only [sllaoBlock, List.length_append, List.length_cons, List.length_nil,
    List.length_take, Vector.length_toList, List.length_replicate]
  simp only [sllaoLen, sllaoBytes]
  omega

/-! ## MTU and Mobile IPv6 -/

def mtuBlock (advLinkMTU : UInt32) : Bytes :=
  [ndOptMtu, 1] ++ be16 0 ++ be32 advLinkMTU

def addRaOptionMtu (sb : SafeBuffer) (advLinkMTU : UInt32) : Except Exit SafeBuffer :=
  sb.append (mtuBlock advLinkMTU)

/-- The interval in milliseconds. The product is exact here. The code multiplies
doubles before it cuts off the fraction, which can give one less: 4019 for 4.02 s,
where this is 4020. -/
def advIval (maxRtrAdvInterval : ℚ) : UInt32 :=
  if maxRtrAdvInterval < cautiousMaxRtrAdvInterval then
    UInt32.ofInt (1000 * (maxRtrAdvInterval + cautiousMaxRtrAdvIntervalLeeway)).floor
  else UInt32.ofInt (1000 * maxRtrAdvInterval).floor

def rtrAdvIntervalBlock (maxRtrAdvInterval : ℚ) : Bytes :=
  [ndOptRtrAdvInterval, 1] ++ be16 0 ++ be32 (advIval maxRtrAdvInterval)

def addRaOptionMipv6RtrAdvInterval (sb : SafeBuffer) (maxRtrAdvInterval : ℚ) :
    Except Exit SafeBuffer :=
  sb.append (rtrAdvIntervalBlock maxRtrAdvInterval)

/-- `struct HomeAgentInfo` as `add_ra_option_mipv6_home_agent_info` fills it; the
flags are stored in the machine's own byte order. -/
def homeAgentInfoBlock (order : ByteOrder) (mipv6 : Mipv6) : Bytes :=
  [ndOptHomeAgentInfo, 1] ++
    order.store16 (if mipv6.advMobRtrSupportFlag then ndOptHaiFlagSupportMr order else 0) ++
    be16 mipv6.homeAgentPreference ++ be16 (UInt16.ofInt mipv6.homeAgentLifetime)

def addRaOptionMipv6HomeAgentInfo (order : ByteOrder) (sb : SafeBuffer) (mipv6 : Mipv6) :
    Except Exit SafeBuffer :=
  sb.append (homeAgentInfoBlock order mipv6)

@[simp]
theorem length_mtuBlock (advLinkMTU : UInt32) : (mtuBlock advLinkMTU).length = 8 := rfl

@[simp]
theorem length_rtrAdvIntervalBlock (maxRtrAdvInterval : ℚ) :
    (rtrAdvIntervalBlock maxRtrAdvInterval).length = 8 := rfl

@[simp]
theorem length_homeAgentInfoBlock (order : ByteOrder) (mipv6 : Mipv6) :
    (homeAgentInfoBlock order mipv6).length = 8 := by
  cases order <;> rfl

/-! ## 6LoWPAN -/

def lowpancoBlock (lowpanco : AdvLowpanCo) : Bytes :=
  [ndOpt6co, 3, lowpanco.contextLength,
      (if lowpanco.contextCompressionFlag then 0x10 else 0) ||| (lowpanco.advContextID &&& 0x0F)] ++
    be16 0 ++ be16 lowpanco.advLifeTime ++ lowpanco.advContextPrefix.toList

def addRaOptionLowpanco (sb : SafeBuffer) (lowpanco : AdvLowpanCo) : Except Exit SafeBuffer :=
  sb.append (lowpancoBlock lowpanco)

def abroBlock (abro : AdvAbro) : Bytes :=
  [ndOptAbro, 3] ++ be16 abro.versionLow ++ be16 abro.versionHigh ++ be16 abro.validLifeTime ++
    abro.lbrAddress.toList

def addRaOptionAbro (sb : SafeBuffer) (abro : AdvAbro) : Except Exit SafeBuffer :=
  sb.append (abroBlock abro)

@[simp]
theorem length_lowpancoBlock (lowpanco : AdvLowpanCo) :
    (lowpancoBlock lowpanco).length = 24 := by
  simp [lowpancoBlock]

@[simp]
theorem length_abroBlock (abro : AdvAbro) : (abroBlock abro).length = 24 := by
  simp [abroBlock]

/-! ## Captive portal -/

def capportLen (captivePortal : Bytes) : Nat :=
  (captivePortal.length + 2 + 7) / 8

def addRaOptionCapport (sb : SafeBuffer) (captivePortal : Bytes) : Except Exit SafeBuffer := do
  let sb ← sb.append [ndOptCaptivePortal, UInt8.ofNat (capportLen captivePortal)]
  let sb ← sb.append captivePortal
  sb.pad (capportLen captivePortal * 8 - (captivePortal.length + 2))

def capportBlock (captivePortal : Bytes) : Bytes :=
  [ndOptCaptivePortal, UInt8.ofNat (capportLen captivePortal)] ++
    (captivePortal ++
      List.replicate (capportLen captivePortal * 8 - (captivePortal.length + 2)) 0)

theorem appends_addRaOptionCapport (captivePortal : Bytes) :
    Appends (addRaOptionCapport · captivePortal) (capportBlock captivePortal) :=
  (appends_append _).bind ((appends_append _).bind (appends_pad _))

theorem length_capportBlock (captivePortal : Bytes) :
    (capportBlock captivePortal).length = capportLen captivePortal * 8 := by
  simp only [capportBlock, List.length_append, List.length_cons, List.length_nil,
    List.length_replicate, capportLen]
  omega

end Radvd
