import Radvd.Dump.Restored
import Radvd.Grammar.Files
import Radvd.Validation

/-!
# A daemon on the output of `radvdump`

The message of an interface, printed by `radvdump`, is a configuration whose
interface sends the same message again (`readinFile_restores`). The intervals are
not in the message, so `check_iface` compares the router lifetime with the default
interval and may not accept the file. The texts of the addresses are those of
`inet_ntop`, and the scanner reads them unless an address begins with a group of
zero (`shows_of_inetNtop`).
-/

namespace Radvd.Dump

open Wire Grammar

/-! ## The checks of the restored interface -/

/-- What of the settings that are restored `check_iface` does not accept of every
interface. -/
structure Restartable (iface : Interface) : Prop where
  linkMTU : iface.advLinkMTU = 0 ∨
    1280 ≤ iface.advLinkMTU ∧ ∀ mtu, iface.linkMaximum = some mtu → iface.advLinkMTU ≤ mtu
  reachable_le : iface.raHeaderInfo.advReachableTime ≤ 3600000
  lifetime : iface.raHeaderInfo.advDefaultLifetime = 0 ∨
    600 ≤ iface.raHeaderInfo.advDefaultLifetime
  homeAgentLifetime : sendsHomeAgentInfo iface = true →
    1 ≤ iface.mipv6.homeAgentLifetime ∧ iface.mipv6.homeAgentLifetime ≤ 65520
  homeAgentFlag : sendsHomeAgentInfo iface = true → iface.raHeaderInfo.advHomeAgentFlag = true

section

variable {order : ByteOrder} {kernel : Kernel} {texts : Texts} {iface : Interface}

/-- The interface that is read, on the device of the one that was printed. -/
def RereadLists.reread (lists : RereadLists kernel iface) (name : StringText) : Interface :=
  { lists.readIface name with sllao := iface.sllao }

theorem fillDefaults_reread (lists : RereadLists kernel iface) (name : StringText) :
    fillDefaults (lists.reread name) = onDevice iface.sllao (lists.readIface name) := by
  rw [onDevice, fillDefaults_eq, fillDefaults_eq]
  rfl

theorem minRtrAdvInterval_reread (lists : RereadLists kernel iface) (name : StringText) :
    (fillDefaults (lists.reread name)).minRtrAdvInterval = 198 := by
  have filled : (fillDefaults (lists.reread name)).minRtrAdvInterval =
      if (-1 : ℚ) < 0 then 33 / 100 * 600 else -1 := by
    rw [fillDefaults_eq, RereadLists.reread, lists.readIface_eq]
    rfl
  rw [filled]
  norm_num

theorem raHeaderInfo_reread (restorable : Restorable kernel texts iface)
    (lists : RereadLists kernel iface) (name : StringText) :
    (fillDefaults (lists.reread name)).raHeaderInfo = iface.raHeaderInfo := by
  rw [fillDefaults_reread, RereadLists.readIface, onDevice_add, lists.add_eq]
  exact raHeaderInfo_onDevice restorable name

theorem homeAgentLifetime_reread (restorable : Restorable kernel texts iface)
    (sends : sendsHomeAgentInfo iface = true) (lists : RereadLists kernel iface)
    (name : StringText) :
    (fillDefaults (lists.reread name)).mipv6.homeAgentLifetime =
      iface.mipv6.homeAgentLifetime := by
  have nonneg := (restorable.homeAgent sends).1
  rw [fillDefaults_reread, RereadLists.readIface, onDevice_add, lists.add_eq, onDevice,
    fillDefaults_eq, readSettings_eq, readMipv6, if_pos sends]
  change (if iface.mipv6.homeAgentLifetime < 0 then _ else _ : Mipv6).homeAgentLifetime = _
  rw [if_neg (not_lt.mpr nonneg)]

theorem valid_of_reread (restorable : Restorable kernel texts iface)
    (lists : RereadLists kernel iface) : ∀ entry ∈ lists.prefixes, entry.Valid := by
  intro entry member
  rw [lists.prefixes_eq] at member
  rcases List.mem_map.mp member with ⟨advertised, inList, rfl⟩
  have bounds := (restorable.prefixes advertised inList).1
  exact ⟨bounds.1, bounds.2.2⟩

theorem advHomeAgentInfo_readMipv6 (iface : Interface) :
    (readMipv6 iface).advHomeAgentInfo = sendsHomeAgentInfo iface ∧
      ((readMipv6 iface).advMobRtrSupportFlag = true → sendsHomeAgentInfo iface = true) := by
  rcases sends : sendsHomeAgentInfo iface with _ | _
  · rw [readMipv6, sends]
    exact ⟨rfl, fun on => absurd on Bool.false_ne_true⟩
  · rw [readMipv6, sends]
    exact ⟨rfl, fun _ => rfl⟩

theorem settings_reread (lists : RereadLists kernel iface) (name : StringText) :
    ∃ read, read = lists.reread name ∧ read.maxRtrAdvInterval = 600 ∧
      read.minDelayBetweenRAs = 3 ∧ read.advLinkMTU = iface.advLinkMTU ∧
      read.linkMaximum = iface.linkMaximum ∧ read.raHeaderInfo = iface.raHeaderInfo ∧
      read.mipv6 = readMipv6 iface ∧ read.advPrefixList = lists.prefixes ∧
      read.advRouteList = lists.routes := by
  refine ⟨_, rfl, ?_⟩
  rw [RereadLists.reread, lists.readIface_eq]
  exact ⟨rfl, rfl, rfl, rfl, rfl, rfl, rfl, rfl⟩

theorem documentedSettings_reread_iff (restorable : Restorable kernel texts iface)
    (lists : RereadLists kernel iface) (name : StringText) :
    DocumentedSettings (lists.reread name) ↔ Restartable iface := by
  have min := minRtrAdvInterval_reread lists name
  have info := raHeaderInfo_reread restorable lists name
  have homeAgent := fun sends => homeAgentLifetime_reread restorable sends lists name
  rcases advHomeAgentInfo_readMipv6 iface with ⟨sent, mobRtr⟩
  rcases settings_reread lists name with
    ⟨read, same, max, delay, mtu, maximum, header, mipv6, -, routes⟩
  rw [← same] at min info homeAgent ⊢
  have lifetime : iface.raHeaderInfo.advDefaultLifetime ≤ 65535 := restorable.header.lifetime_le
  have longest : Max.max 1 (600 : ℚ) = 600 := by norm_num
  have seconds : (600 : ℚ) ≤ iface.raHeaderInfo.advDefaultLifetime ↔
      600 ≤ iface.raHeaderInfo.advDefaultLifetime := by
    exact_mod_cast Iff.rfl
  constructor
  · intro settings
    have reachable := settings.reachable_le
    have links := settings.linkMTU
    have defaults := settings.lifetime
    rw [header] at reachable
    rw [mtu, maximum] at links
    rw [info, max, longest, seconds] at defaults
    refine ⟨links, reachable, defaults.imp id And.left, ?_, ?_⟩
    · intro sends
      have bounds := settings.homeAgentLifetime (by rw [mipv6, sent, sends])
      rwa [homeAgent sends] at bounds
    · intro sends
      have flag := settings.homeAgentFlag (by rw [mipv6, sent, sends])
      rwa [header] at flag
  · intro restartable
    constructor
    · rw [min]
      constructor <;> (intro _; norm_num)
    · rw [min, max]
      norm_num
    · rw [max]
      constructor <;> (intro _; norm_num)
    · rw [max]
      norm_num
    · rw [delay]
      constructor <;> (intro _; norm_num)
    · rw [mtu, maximum]
      exact restartable.linkMTU
    · rw [header]
      exact restartable.reachable_le
    · rw [info, max, longest, seconds]
      exact restartable.lifetime.imp id fun long => ⟨long, lifetime⟩
    · rw [mipv6, sent]
      intro sends
      rw [homeAgent sends]
      exact restartable.homeAgentLifetime sends
    · rw [mipv6, sent, header]
      exact restartable.homeAgentFlag
    · rw [mipv6, sent]
      exact mobRtr
    · rw [routes]
      intro route member
      rcases forall₂_mem_right lists.routes_alike member with ⟨_, -, -, short⟩
      exact short

theorem checkIface_ok {env : SetupEnv} (known : env.ifaceForwarding ≠ .garbage)
    (read : Interface) : ∃ status, checkIface env read = .ok (fillDefaults read, status) := by
  have forwarding : ∃ value, checkIp6IfaceForwarding env = .ok value := by
    unfold checkIp6IfaceForwarding
    rcases answer : env.ifaceForwarding with _ | _ | value
    · exact ⟨_, rfl⟩
    · exact absurd answer known
    · exact ⟨_, rfl⟩
  rcases forwarding with ⟨value, answered⟩
  rw [checkIface, answered]
  exact ⟨_, rfl⟩

theorem checkIface_reread {env : SetupEnv} (known : env.ifaceForwarding ≠ .garbage)
    (restorable : Restorable kernel texts iface) (lists : RereadLists kernel iface)
    (name : StringText) :
    ∃ status, checkIface env (lists.reread name) =
        .ok (onDevice iface.sllao (lists.readIface name), status) ∧
      (status = 0 ↔ Restartable iface) := by
  rcases checkIface_ok known (lists.reread name) with ⟨status, checked⟩
  refine ⟨status, by rw [checked, fillDefaults_reread], ?_⟩
  have accepts := @checkIface_eq_ok_iff env (lists.reread name) known
  have valid : ∀ entry ∈ (lists.reread name).checkedPrefixes, entry.Valid := by
    intro entry member
    apply valid_of_reread restorable lists
    rcases settings_reread lists name with ⟨read, same, -, -, -, -, -, -, prefixes, -⟩
    rw [← same, Interface.checkedPrefixes, prefixes] at member
    rcases on : read.mobileFlags with _ | _
    · rw [on, findRouterAddr_false_snd] at member
      rw [← searched_append lists.prefixes]
      exact List.mem_append_right _ member
    · rw [on, findRouterAddr_true] at member
      exact member
  rw [documentedSettings_reread_iff restorable, and_iff_left valid] at accepts
  rw [← accepts, checked]
  simp

end

/-! ## A bridge -/

theorem newline_notMem_bridge : newline ∉ ascii "2.20" := by
  decide

theorem isWordOctet_brLan :
    ∀ octet ∈ ([98, 114, 45, 108, 97, 110] : Bytes), isWordOctet octet = true :=
  List.all_eq_true.mp (by decide)

def Texts.bridge : Texts where
  version := ascii "2.20"
  source := linkLocalAddr
  addrtostr := inetNtop
  ifName := [98, 114, 45, 108, 97, 110]
  newline_notMem_version := newline_notMem_bridge
  isAddrOctet_addrtostr := isAddrOctet_inetNtop
  isWordOctet_ifName := isWordOctet_brLan

/-- A router that also sends an MTU, a resolver and a search list. -/
def bridge : Interface :=
  { advertising 1 with
    raHeaderInfo := exampleHeader
    advLinkMTU := 1500
    sllao := ⟨Vector.replicate 16 2, 48, 64, 1500⟩
    advRDNSSList := [⟨1800, true, [linkLocalAddr]⟩]
    advDNSSLList := [exampleDnssl] }

theorem unnamed_exampleCom : Unnamed exampleCom.text := by
  constructor
  · have inside : dot ∈ exampleCom.text := by decide
    exact notMem_names inside (by decide)
  · exact valueRules_of_head (by decide) (by decide) (by decide) (by decide)

theorem length_exampleDnssl : dnsslBytes exampleDnssl = 26 := by
  have suffixes : exampleDnssl.advDNSSLSuffixes =
      [⟨exampleCom, false⟩, ⟨exampleCom, true⟩].map Suffix.text := rfl
  simp only [dnsslBytes, suffixes, encodeNames, List.map_cons, List.map_nil, List.flatMap_cons,
    List.flatMap_nil, encodeName_text]
  decide

theorem restorable_bridge : Restorable Kernel.silent Texts.bridge bridge where
  running := rfl
  header := ⟨.inl rfl, by decide, by decide⟩
  prefixes := by
    have advertised : bridge.advPrefixList.flatMap (advertisedPrefixes Kernel.silent bridge) =
        [documentationPrefix] := rfl
    rw [advertised]
    simp only [List.mem_singleton, forall_eq]
    exact ⟨⟨by decide, by decide, by decide⟩, shows_of_inetNtop rfl (by decide)⟩
  nat64prefixes := by simp [bridge, advertising, ifaceInitDefaults]
  routes := by simp [bridge, advertising, ifaceInitDefaults]
  rdnss := by
    simp only [bridge, List.mem_singleton, forall_eq]
    exact ⟨by simp, shows_of_inetNtop rfl (by decide)⟩
  dnssl := by
    simp only [bridge, List.mem_singleton, forall_eq]
    refine ⟨[⟨exampleCom, false⟩, ⟨exampleCom, true⟩], by simp, rfl, ?_⟩
    simp only [List.forall_mem_cons]
    exact ⟨unnamed_exampleCom, unnamed_exampleCom, by simp⟩
  dnsslFits := by
    simp only [Interface.DnsslFits, bridge, List.mem_singleton, forall_eq, AdvDNSSL.Fits,
      length_exampleDnssl]
    omega
  source := rfl
  hwaddr_le := by decide
  interval := by decide
  homeAgent := by decide
  lowpanco := rfl
  abro := rfl
  portal := by simp [bridge, advertising, ifaceInitDefaults]

theorem restartable_bridge : Restartable bridge where
  linkMTU := by
    refine .inr ⟨by decide, ?_⟩
    rintro _ ⟨⟩
    decide
  reachable_le := by decide
  lifetime := .inr (by decide)
  homeAgentLifetime := by decide
  homeAgentFlag := by decide

theorem plainWord_brLan : PlainWord Texts.bridge.ifName where
  filled := by simp [Texts.bridge]
  octets := isWordOctet_brLan
  notComment := by decide
  unnamed := unnamed_brLan

end Radvd.Dump
