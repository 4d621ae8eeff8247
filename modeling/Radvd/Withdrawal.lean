import Radvd.Clients
import Radvd.PrefixLifetimes
import Radvd.WireValues

/-!
# The last RAs

At a shutdown every interface that was set up sends its RA once more, as the one of
a router that ceases to advertise. The header, the routes, the RDNSS and DNSSL
blocks and the prefixes look at this one by one, so what is withdrawn is what is
asked for, and the rest is sent as it would have been anyway
(`withdrawn_of_stop`).
-/

namespace Radvd

open Wire Tlv Runs Grammar

/-! ## The interfaces of a series of RAs -/

/-- The interface at each of the RAs to these destinations. -/
def advertisers (envs : Nat → SendEnv) (index : Nat) (iface : Interface) :
    List (Option In6Addr) → List Interface
  | [] => []
  | dest :: rest =>
      agedIface (envs index) iface dest ::
        advertisers envs (index + 1) (agedIface (envs index) iface dest) rest

/-- A prefix after as many RAs as there are numbers of seconds. -/
def ageEntries (cease : Bool) (secs : List Int) (entry : AdvPrefix) : AdvPrefix :=
  secs.foldl (fun entry secs => ageEntry cease secs entry) entry

/-- The interface at such an RA, with what is known of its state. -/
def Interface.agedBy (iface : Interface) (stateInfo : StateInfo) (times : Times)
    (secs : List Int) : Interface :=
  { iface with
    stateInfo := stateInfo
    times := times
    advPrefixList := iface.advPrefixList.map (ageEntries stateInfo.ceaseAdv secs) }

section

variable {iface : Interface} {envs : Nat → SendEnv} {secs : List Int} {entry : AdvPrefix}

theorem deprecatePrefixFlag_ageEntries (cease : Bool) :
    (ageEntries cease secs entry).deprecatePrefixFlag = entry.deprecatePrefixFlag := by
  induction secs generalizing entry with
  | nil => rfl
  | cons first rest ih =>
      rw [ageEntries, List.foldl_cons]
      apply ih.trans
      unfold ageEntry
      split <;> rfl

/-- A prefix that is withdrawn stays as it is. -/
theorem ageEntries_of_deprecate (flag : entry.deprecatePrefixFlag = true) :
    ageEntries true secs entry = entry := by
  induction secs with
  | nil => rfl
  | cons first rest ih =>
      have same : ageEntry true first entry = entry := by simp [ageEntry, flag]
      rw [ageEntries, List.foldl_cons, same]
      exact ih

/-- The others age as always. -/
theorem ageEntries_of_not_deprecate (flag : entry.deprecatePrefixFlag = false) :
    ageEntries true secs entry = ageEntries false secs entry := by
  induction secs generalizing entry with
  | nil => rfl
  | cons first rest ih =>
      have same : ageEntry true first entry = ageEntry false first entry := by
        simp [ageEntry, flag]
      have kept := @deprecatePrefixFlag_ageEntries [first] entry false
      simp only [ageEntries, List.foldl_cons, List.foldl_nil] at ih kept ⊢
      rw [same]
      exact ih (kept.trans flag)

theorem agedIface_agedBy (env : SendEnv) (times : Times) (dest : Option In6Addr) :
    ∃ times' first, ∀ stateInfo, agedIface env (iface.agedBy stateInfo times secs) dest =
      iface.agedBy stateInfo times' (secs ++ [first]) := by
  refine ⟨{ (noteMulticast env { iface with times := times } dest).times with
    lastRaTime := env.now }, secsSinceLastRa env.now times.lastRaTime, ?_⟩
  intro stateInfo
  cases dest
  all_goals
    simp only [agedIface, noteMulticast, updateIfaceTimes, Interface.agedBy, List.map_map]
    congr 1
    apply List.map_congr_left
    intro entry _
    simp [ageEntries]

/-- The times of the RAs do not depend on whether the interface ceases to
advertise. -/
theorem advertisers_agedBy {dests : List (Option In6Addr)} {position : Nat} (times : Times)
    (inside : position < dests.length) (index : Nat) :
    ∃ times' secs', ∀ stateInfo,
      (advertisers envs index (iface.agedBy stateInfo times secs) dests)[position]? =
        some (iface.agedBy stateInfo times' secs') := by
  induction dests generalizing position times secs index with
  | nil => cases inside
  | cons dest rest ih =>
      rcases @agedIface_agedBy iface secs (envs index) times dest with ⟨next, first, aged⟩
      rcases position with _ | position
      · exact ⟨next, secs ++ [first], fun stateInfo => by rw [advertisers, aged]; rfl⟩
      · rcases @ih (secs ++ [first]) position next (by simpa using inside) (index + 1) with
          ⟨times', secs', later⟩
        refine ⟨times', secs', ?_⟩
        intro stateInfo
        rw [advertisers, aged, List.getElem?_cons_succ]
        exact later stateInfo

theorem transmissions_sendRas {warned : Bool} {dests : List (Option In6Addr)} {index position : Nat}
    {addr : In6Addr} {messages : List Bytes} (parsed : iface.Parsed)
    (advertises : iface.advSendAdvert = true)
    (found : (sendRas envs index warned iface dests).transmissions[position]? =
      some (addr, messages)) :
    ∃ dest aged, dests[position]? = some dest ∧ addr = dest.getD allHostsAddr ∧
      (advertisers envs index iface dests)[position]? = some aged ∧
      ∀ message ∈ messages, ∃ cease, (iface.stateInfo.ceaseAdv = true → cease = true) ∧
        Carries iface.raHeaderInfo cease (allOptions (envs (index + position)).order
          (envs (index + position)).kernel aged) message := by
  induction dests generalizing index position warned iface with
  | nil => cases found
  | cons dest rest ih =>
      have next : (sendRa (envs index) warned iface dest).iface =
          agedIface (envs index) iface dest := by rw [iface_sendRa, if_pos advertises]
      have here : ∀ message ∈ (sendRa (envs index) warned iface dest).sent,
          ∃ cease, (iface.stateInfo.ceaseAdv = true → cease = true) ∧
            Carries iface.raHeaderInfo cease (allOptions (envs index).order
              (envs index).kernel (agedIface (envs index) iface dest)) message := by
        intro message sent
        exact ⟨_, fun ceasing => by simp [ceases, ceasing], carries_of_mem_sent parsed sent⟩
      unfold sendRas at found
      dsimp only at found
      rcases position with _ | position
      · have first : (addr, messages) =
            (dest.getD allHostsAddr, (sendRa (envs index) warned iface dest).sent) := by
          split at found <;> exact (Option.some_inj.mp found).symm
        obtain ⟨rfl, rfl⟩ := Prod.mk.inj first
        exact ⟨dest, _, rfl, rfl, rfl, here⟩
      · split at found
        · cases found
        · rw [List.getElem?_cons_succ, next] at found
          rcases @ih (agedIface (envs index) iface dest) _ (index + 1) position
            (parsed_agedIface parsed _ _) (by cases dest <;> exact advertises) found with
            ⟨other, aged, listed, same, place, carries⟩
          refine ⟨other, aged, listed, same, place, ?_⟩
          rw [ceaseAdv_agedIface, raHeaderInfo_agedIface, Nat.add_right_comm] at carries
          exact carries

end

/-! ## The options of the last RAs -/

def optionLifetime (option : Bytes) : UInt32 :=
  (Memory.ofBytes option).u32 4

/-- The lifetime that hosts are left with. -/
def lastLifetime (withdrawn : Bool) (configured : UInt32) : UInt32 :=
  if withdrawn then 0 else configured

/-- The valid lifetime of the addresses in the prefix that the kernel knows. -/
def Kernel.validOf (kernel : Kernel) (candidate : AdvPrefix) : Option UInt32 :=
  if (netlinkGetAddressLifetimes kernel candidate).ret then
    some (netlinkGetAddressLifetimes kernel candidate).valid
  else none

/-- Two hours, or less. -/
def lastValid (current : UInt32) (known : Option UInt32) : UInt32 :=
  min 7200 (known.elim current fun valid => min valid current)

/-- A prefix option is that of a prefix that is withdrawn, or the one that would be
sent. -/
inductive LastPrefix (iface usual : Interface) (kernel : Kernel) (option : Bytes) : Prop where
  | withdrawn {entry candidate : AdvPrefix} (listed : entry ∈ iface.advPrefixList)
      (flag : entry.deprecatePrefixFlag = true)
      (member : candidate ∈ prefixCandidates kernel iface entry)
      (preferred_eq : optionPreferred option = 0)
      (valid_eq : optionValid option = lastValid entry.currValidlft (kernel.validOf candidate))
      (option_eq : option = prefixBlock
        { candidate with currValidlft := optionValid option, currPreferredlft := 0 } false)
  | kept {entry advertised : AdvPrefix} (listed : entry ∈ usual.advPrefixList)
      (flag : entry.deprecatePrefixFlag = false)
      (member : advertised ∈ advertisedPrefixes kernel usual entry)
      (option_eq : option = prefixBlock advertised false)

/-- The message withdraws what is asked for in the configuration. Except for their
lifetimes the options are those that would be sent. -/
structure Withdrawn (parsed iface usual : Interface) (kernel : Kernel) (message : Bytes) :
    Prop where
  lifetime_eq : (Memory.ofBytes message).u16 6 = 0
  routes : ∀ option ∈ raOptions message, optionType option = ndOptRouteInformation →
    ∃ route ∈ parsed.advRouteList,
      optionLifetime option = lastLifetime route.removeRouteFlag route.advRouteLifetime ∧
        option = routeBlock { route with advRouteLifetime := optionLifetime option } false
  rdnss : ∀ option ∈ raOptions message, optionType option = ndOptRdnssInformation →
    ∃ rdnss ∈ parsed.advRDNSSList,
      optionLifetime option = lastLifetime rdnss.flushRDNSSFlag rdnss.advRDNSSLifetime ∧
        option = rdnssBlock { rdnss with advRDNSSLifetime := optionLifetime option } false
  dnssl : ∀ option ∈ raOptions message, optionType option = ndOptDnsslInformation →
    ∃ dnssl ∈ parsed.advDNSSLList,
      optionLifetime option = lastLifetime dnssl.flushDNSSLFlag dnssl.advDNSSLLifetime ∧
        option = dnsslBlock { dnssl with advDNSSLLifetime := optionLifetime option } false
  prefixes : ∀ option ∈ raOptions message, optionType option = ndOptPrefixInformation →
    LastPrefix iface usual kernel option

theorem lastRoute {route : AdvRoute} (bound : route.prefixLen ≤ 128) :
    optionLifetime (routeBlock route true) =
        lastLifetime route.removeRouteFlag route.advRouteLifetime ∧
      routeBlock route true = routeBlock
        { route with advRouteLifetime := lastLifetime route.removeRouteFlag route.advRouteLifetime }
        false := by
  have bounds := routeLen_bounds bound
  constructor
  · have stored : (Memory.ofBytes (routeBlock route true)).Holds 4
        (be32 (lastLifetime route.removeRouteFlag route.advRouteLifetime)) := by
      intro index inside
      rw [length_be32] at inside
      have place : 4 + index < (routeLen route.prefixLen).toNat * 8 := by omega
      rw [Memory.ofBytes, routeBlock, List.getD, List.getElem?_take_of_lt place]
      rcases index with _ | _ | _ | _ | index
      · rfl
      · rfl
      · rfl
      · rfl
      · omega
    exact Memory.u32_of_holds stored
  · simp only [routeBlock, routeInfo, lastLifetime, Bool.true_and, Bool.false_and,
      Bool.false_eq_true, if_false]

theorem lastRdnss (rdnss : AdvRDNSS) :
    optionLifetime (rdnssBlock rdnss true) =
        lastLifetime rdnss.flushRDNSSFlag rdnss.advRDNSSLifetime ∧
      rdnssBlock rdnss true = rdnssBlock
        { rdnss with advRDNSSLifetime := lastLifetime rdnss.flushRDNSSFlag rdnss.advRDNSSLifetime }
        false := by
  constructor
  · have stored := Memory.holds_ofBytes (rdnssBlock rdnss true)
    rw [rdnssBlock, Memory.holds_append, rdnssInfo, Memory.holds_append] at stored
    exact Memory.u32_of_holds stored.1.2
  · simp only [rdnssBlock, rdnssInfo, rdnssBytes, lastLifetime, Bool.true_and, Bool.false_and,
      Bool.false_eq_true, if_false]

theorem lastDnssl (dnssl : AdvDNSSL) :
    optionLifetime (dnsslBlock dnssl true) =
        lastLifetime dnssl.flushDNSSLFlag dnssl.advDNSSLLifetime ∧
      dnsslBlock dnssl true = dnsslBlock
        { dnssl with advDNSSLLifetime := lastLifetime dnssl.flushDNSSLFlag dnssl.advDNSSLLifetime }
        false := by
  constructor
  · have stored := Memory.holds_ofBytes (dnsslBlock dnssl true)
    rw [dnsslBlock, Memory.holds_append, dnsslInfo, Memory.holds_append] at stored
    exact Memory.u32_of_holds stored.1.2
  · simp only [dnsslBlock, dnsslInfo, dnsslBytes, lastLifetime, Bool.true_and, Bool.false_and,
      Bool.false_eq_true, if_false]

theorem limitPrefixLifetimes_eq (kernel : Kernel) (candidate : AdvPrefix) :
    limitPrefixLifetimes kernel candidate =
      { candidate with
        currValidlft := (limitPrefixLifetimes kernel candidate).currValidlft
        currPreferredlft := (limitPrefixLifetimes kernel candidate).currPreferredlft } := by
  unfold limitPrefixLifetimes
  dsimp only
  split_ifs <;> rfl

theorem piValidTime_limited {kernel : Kernel} {candidate : AdvPrefix}
    (flag : candidate.deprecatePrefixFlag = true) :
    piValidTime (limitPrefixLifetimes kernel candidate) true =
      lastValid candidate.currValidlft (kernel.validOf candidate) := by
  have least : ∀ value : UInt32,
      (if value < minAdvValidLifetime then value else minAdvValidLifetime) = min 7200 value := by
    intro value
    have two : minAdvValidLifetime.toNat = 7200 := rfl
    have hours : (7200 : UInt32).toNat = 7200 := rfl
    change _ = if 7200 ≤ value then 7200 else value
    apply UInt32.toNat_inj.mp
    simp only [UInt32.lt_iff_toNat_lt, UInt32.le_iff_toNat_le, two, hours]
    split_ifs <;> omega
  have limited : (limitPrefixLifetimes kernel candidate).currValidlft =
      (kernel.validOf candidate).elim candidate.currValidlft fun valid =>
        min valid candidate.currValidlft := by
    unfold limitPrefixLifetimes Kernel.validOf
    dsimp only
    split_ifs <;> rfl
  have withdrawn : (limitPrefixLifetimes kernel candidate).deprecatePrefixFlag = true := by
    rw [limitPrefixLifetimes_eq]
    exact flag
  rw [piValidTime, withdrawn, Bool.and_true, if_pos rfl, least, limited, lastValid]

theorem lastPrefixBlock {kernel : Kernel} {candidate : AdvPrefix}
    (flag : candidate.deprecatePrefixFlag = true) :
    optionValid (prefixBlock (limitPrefixLifetimes kernel candidate) true) =
        lastValid candidate.currValidlft (kernel.validOf candidate) ∧
      optionPreferred (prefixBlock (limitPrefixLifetimes kernel candidate) true) = 0 ∧
      prefixBlock (limitPrefixLifetimes kernel candidate) true = prefixBlock
        { candidate with
          currValidlft := lastValid candidate.currValidlft (kernel.validOf candidate)
          currPreferredlft := 0 } false := by
  have shown := lifetimes_prefixBlock (limitPrefixLifetimes kernel candidate) true
  have valid := @piValidTime_limited kernel candidate flag
  have preferred : piPreferredTime (limitPrefixLifetimes kernel candidate) true = 0 := by
    rw [limitPrefixLifetimes_eq, piPreferredTime, flag, Bool.and_true, if_pos rfl]
  rw [valid, preferred] at shown
  refine ⟨shown.1, shown.2, ?_⟩
  rw [prefixBlock, valid, preferred, limitPrefixLifetimes_eq]
  rfl

section

variable {iface : Interface} {ceased other : StateInfo} {times : Times} {secs : List Int}
  {kernel : Kernel} {option : Bytes}

theorem deprecatePrefixFlag_of_advertised {entry advertised : AdvPrefix}
    (member : advertised ∈ advertisedPrefixes kernel iface entry) :
    advertised.deprecatePrefixFlag = entry.deprecatePrefixFlag := by
  rcases advertisedPrefixes_spec member with ⟨addr, len, rfl⟩
  rw [limitPrefixLifetimes_eq]

theorem lastPrefix_of_mem (ceases : ceased.ceaseAdv = true) (stays : other.ceaseAdv = false)
    (member : option ∈ prefixBlocks kernel (iface.agedBy ceased times secs) true
      (iface.agedBy ceased times secs).advPrefixList) :
    LastPrefix iface (iface.agedBy other times secs) kernel option := by
  rcases List.mem_map.mp member with ⟨advertised, listed, rfl⟩
  rcases List.mem_flatMap.mp listed with ⟨aged, agedMem, sent⟩
  simp only [Interface.agedBy, List.mem_map, ceases] at agedMem
  rcases agedMem with ⟨entry, entryMem, rfl⟩
  have flags := deprecatePrefixFlag_of_advertised sent
  rw [deprecatePrefixFlag_ageEntries] at flags
  rcases flag : entry.deprecatePrefixFlag with _ | _
  · rw [ageEntries_of_not_deprecate flag] at sent
    apply @LastPrefix.kept _ _ _ _ (ageEntries false secs entry) advertised
    · simp only [Interface.agedBy, stays]
      exact List.mem_map_of_mem entryMem
    · rw [deprecatePrefixFlag_ageEntries, flag]
    · exact sent
    · simp only [prefixBlock, piValidTime, piPreferredTime, flags, flag, Bool.and_false]
  · rw [ageEntries_of_deprecate flag, advertisedPrefixes_eq] at sent
    split_ifs at sent
    · rcases List.mem_map.mp sent with ⟨candidate, candidateMem, rfl⟩
      have own : candidate.deprecatePrefixFlag = true ∧
          candidate.currValidlft = entry.currValidlft := by
        rcases eq_of_mem_prefixCandidates candidateMem with ⟨addr, len, rfl⟩
        exact ⟨flag, rfl⟩
      have shown := @lastPrefixBlock kernel candidate own.1
      rw [own.2] at shown
      apply @LastPrefix.withdrawn _ _ _ _ entry candidate entryMem flag candidateMem shown.2.1 shown.1
      rw [shown.1]
      exact shown.2.2
    · cases sent

theorem withdrawn_of_carries {parsed : Interface} {order : ByteOrder} {info : RaHeaderInfo}
    {message : Bytes} (isParsed : iface.Parsed) (derived : Derived parsed iface)
    (ceases : ceased.ceaseAdv = true) (stays : other.ceaseAdv = false)
    (carries : Carries info true
      (allOptions order kernel (iface.agedBy ceased times secs)) message) :
    Withdrawn parsed iface (iface.agedBy other times secs) kernel message := by
  have aged : (iface.agedBy ceased times secs).Parsed :=
    ⟨isParsed.route_prefixLen, isParsed.dnssl_parsed, isParsed.hwaddr_le, isParsed.capport_length⟩
  have listed : ∀ type, ∀ option ∈ raOptions message, optionType option = type →
      option ∈ ofType type (allOptions order kernel (iface.agedBy ceased times secs)) :=
    fun type option member same => mem_ofType.mpr ⟨carries.options_infix.subset member, same⟩
  constructor
  case lifetime_eq =>
    have stored := Memory.holds_ofBytes message
    have header := Memory.holds_ofBytes (raHeaderBlock info true)
    rw [carries.message_eq, Memory.holds_append] at stored
    have front := stored.1
    simp only [raHeaderBlock, Memory.holds_append, List.length_append, List.length_cons,
      List.length_nil, length_be16, Nat.zero_add, Nat.reduceAdd] at front
    rw [carries.message_eq]
    exact Memory.u16_of_holds front.1.1.2
  case routes =>
    intro option member type
    have found := listed _ option member type
    rw [ofType_route aged] at found
    rcases List.mem_map.mp found with ⟨route, routeMem, rfl⟩
    have shown := lastRoute (aged.route_prefixLen route routeMem)
    replace routeMem : route ∈ iface.advRouteList := routeMem
    rw [derived.same Interface.advRouteList fun _ => rfl] at routeMem
    simp only [Interface.agedBy, ceases]
    exact ⟨route, routeMem, shown.1, by rw [shown.1]; exact shown.2⟩
  case rdnss =>
    intro option member type
    have found := listed _ option member type
    rw [ofType_rdnss aged] at found
    rcases List.mem_map.mp found with ⟨rdnss, filtered, rfl⟩
    have rdnssMem : rdnss ∈ iface.advRDNSSList := List.mem_of_mem_filter filtered
    rw [derived.same Interface.advRDNSSList fun _ => rfl] at rdnssMem
    have shown := lastRdnss rdnss
    simp only [Interface.agedBy, ceases]
    exact ⟨rdnss, rdnssMem, shown.1, by rw [shown.1]; exact shown.2⟩
  case dnssl =>
    intro option member type
    have found := listed _ option member type
    rw [ofType_dnssl aged] at found
    rcases List.mem_map.mp found with ⟨dnssl, filtered, rfl⟩
    have dnsslMem : dnssl ∈ iface.advDNSSLList := List.mem_of_mem_filter filtered
    rw [derived.same Interface.advDNSSLList fun _ => rfl] at dnsslMem
    have shown := lastDnssl dnssl
    simp only [Interface.agedBy, ceases]
    exact ⟨dnssl, dnsslMem, shown.1, by rw [shown.1]; exact shown.2⟩
  case prefixes =>
    intro option member type
    have found := listed _ option member type
    rw [ofType_prefixes aged] at found
    have on : (iface.agedBy ceased times secs).stateInfo.ceaseAdv = true := ceases
    rw [on] at found
    exact lastPrefix_of_mem ceases stays found

end

/-! ## The shutdown -/

theorem stable_unchanged {allowed : SendEnv → Prop} {shutdown : Prop} :
    Stable allowed shutdown fun iface =>
      iface.stateInfo.ready = true → iface.stateInfo.changed = false where
  setUp := by
    intro env iface iface' ret done _ _
    rw [(setupIface_setUp done).stateInfo_eq]
  aged := by
    intro env iface dest _ _ holds
    rw [ceaseAdv_agedIface]
    exact holds
  counted := by
    intro iface dest holds
    unfold countRa
    split <;> exact holds
  timed := fun _ holds => holds
  touched := fun _ _ ready => by cases ready
  ceased := fun _ _ holds => holds
  reset := fun holds => holds

theorem exists_of_mem_stopAdvertsFrom {envs : Nat → StopEnv} {ifaces : List Interface}
    {start : Nat} {warned : Bool} {sent : Sent}
    (member : sent ∈ (stopAdvertsFrom envs start warned ifaces).sent) :
    ∃ (offset : Nat) (iface : Interface) (warned' : Bool) (index : Nat),
      ifaces[offset]? = some iface ∧ sent.position = start + offset ∧
      (stopAdvertFoo (envs sent.position) warned' iface).transmissions[index]? =
        some (sent.dest, sent.messages) := by
  induction ifaces generalizing start warned with
  | nil => exact absurd member List.not_mem_nil
  | cons iface rest ih =>
      have own : ∀ sent ∈ (stopAdvertFoo (envs start) warned iface).transmissions.map
          fun transmission => (⟨start, transmission.1, transmission.2⟩ : Sent),
          ∃ (offset : Nat) (other : Interface) (warned' : Bool) (index : Nat),
            (iface :: rest)[offset]? = some other ∧ sent.position = start + offset ∧
            (stopAdvertFoo (envs sent.position) warned' other).transmissions[index]? =
              some (sent.dest, sent.messages) := by
        intro sent member
        rcases List.mem_map.mp member with ⟨transmission, listed, rfl⟩
        rcases List.mem_iff_getElem?.mp listed with ⟨index, found⟩
        exact ⟨0, iface, warned, index, rfl, rfl, found⟩
      unfold stopAdvertsFrom at member
      dsimp only at member
      split at member
      · exact own sent member
      · rcases List.mem_append.mp member with here | there
        · exact own sent here
        · rcases ih there with ⟨offset, other, warned', index, found, place, transmitted⟩
          exact ⟨offset + 1, other, warned', index, found, by omega, transmitted⟩

/-- An interface that a run leads to, and the one of the configuration it stems from. -/
theorem derived_of_lives {first : Ifacedef} {rest : List Ifacedef} {ifaces : List Interface}
    {warned : Bool} {events : List LifeEvent} {last : Daemon}
    (read : readinConfig first rest = .ok ifaces)
    (run : Run Daemon.Lives ⟨ifaces, warned⟩ events last) {position : Nat} {iface : Interface}
    (place : last.ifaces[position]? = some iface) :
    ∃ (parsed : Interface) (definition : Ifacedef), ifaces[position]? = some parsed ∧
      definition.Gives parsed ∧
      Derived parsed iface ∧
      (iface.stateInfo.ready = true → iface.stateInfo.changed = false) := by
  have within : ∀ event ∈ events, event.Within (fun _ => True) True := by
    intro event _
    rcases event with event | _
    · cases event <;> simp [LifeEvent.Within]
    · trivial
  have start : Daemon.Has ⟨ifaces, warned⟩ (Configured ifaces fun parsed iface =>
      Derived parsed iface ∧ (iface.stateInfo.ready = true → iface.stateInfo.changed = false)) := by
    intro position parsed found
    rcases gives_of_readinConfig read (List.mem_of_getElem? found) with ⟨definition, -, gives⟩
    refine ⟨parsed, found, derived_of_gives gives, ?_⟩
    rw [gives.stateInfo]
    exact fun isReady => absurd isReady (by decide)
  have reached := has_run (stable_configured fun parsed _ =>
    (stable_derived parsed).and stable_unchanged) run within start
  rcases reached position iface place with ⟨parsed, listed, derived, unchanged⟩
  rcases gives_of_readinConfig read (List.mem_of_getElem? listed) with ⟨definition, -, gives⟩
  exact ⟨parsed, definition, listed, gives, derived, unchanged⟩

/-- The RAs of an interface that is ready when the program is stopped, at the end of
any run from a configuration, withdraw what is asked for. -/
theorem withdrawn_of_stop {first : Ifacedef} {rest : List Ifacedef} {ifaces : List Interface}
    {warned : Bool} {events : List LifeEvent} {last : Daemon} {envs : Nat → StopEnv}
    (read : readinConfig first rest = .ok ifaces)
    (run : Run Daemon.Lives ⟨ifaces, warned⟩ events last) {sent : Sent} {iface : Interface}
    (stopped : sent ∈ (last.live (.handles (.stop envs))).sent)
    (place : last.ifaces[sent.position]? = some iface) (ready : iface.stateInfo.ready = true)
    (advertises : iface.advSendAdvert = true) :
    ∃ parsed dest index usual, ifaces[sent.position]? = some parsed ∧
      (raDests iface none)[index]? = some dest ∧ sent.dest = dest.getD allHostsAddr ∧
      (advertisers (envs sent.position).envs 0
        { iface with stateInfo := { iface.stateInfo with ceaseAdv := false } }
        (raDests iface none))[index]? = some usual ∧
      ∀ message ∈ sent.messages,
        Withdrawn parsed iface usual ((envs sent.position).envs index).kernel message := by
  rcases derived_of_lives read run place with
    ⟨parsed, definition, listed, gives, derived, unchanged⟩
  have isParsed := derived.parsed_of_ready gives.parsed ready
  rcases exists_of_mem_stopAdvertsFrom stopped with
    ⟨offset, other, warned', index, found, position, transmitted⟩
  rw [Nat.zero_add] at position
  rw [position, found] at place
  cases place
  unfold stopAdvertFoo at transmitted
  split at transmitted
  · let ceased := { iface with stateInfo := { iface.stateInfo with ceaseAdv := true } }
    have forall_eq : sendRaForall (envs sent.position).setup (envs sent.position).envs warned'
        ceased none = sendRas (envs sent.position).envs 0 warned' (countRa ceased none)
          (raDests iface none) := sendRaForall_of_ready ready (unchanged ready)
    have counted : countRa ceased none =
        iface.agedBy (countRa ceased none).stateInfo iface.times [] := by
      unfold countRa Interface.agedBy ageEntries
      split <;> simp [ceased]
    have usually : { iface with stateInfo := { iface.stateInfo with ceaseAdv := false } } =
        iface.agedBy { iface.stateInfo with ceaseAdv := false } iface.times [] := by
      unfold Interface.agedBy ageEntries
      simp
    have ceases : (countRa ceased none).stateInfo.ceaseAdv = true := by
      unfold countRa
      split <;> rfl
    have countedParsed : (countRa ceased none).Parsed := by
      rw [counted]
      exact ⟨isParsed.route_prefixLen, isParsed.dnssl_parsed, isParsed.hwaddr_le,
        isParsed.capport_length⟩
    rw [forall_eq] at transmitted
    rcases transmissions_sendRas countedParsed (by rw [counted]; exact advertises) transmitted with
      ⟨dest, aged, destPlace, same, agedPlace, carries⟩
    rcases @advertisers_agedBy iface (envs sent.position).envs [] _ index iface.times
      (List.getElem?_eq_some_iff.mp destPlace).1 0 with ⟨times, secs, all⟩
    rw [counted, all] at agedPlace
    cases agedPlace
    refine ⟨parsed, dest, index, _, listed, destPlace, same, usually ▸ all _, ?_⟩
    intro message messageMem
    rcases carries message messageMem with ⟨cease, forced, carried⟩
    rw [forced ceases, Nat.zero_add] at carried
    exact withdrawn_of_carries isParsed derived ceases rfl carried
  · cases transmitted

/-- The documentation prefix with `DeprecatePrefix` on `eth0`, and a route to it with
`RemoveRoute`. -/
def retiring : Ifacedef :=
  ⟨eth0, [.ifaceval (.advSendAdvert true),
    .prefixdef ⟨documentationPrefix.prefixAddr, ⟨6, [4]⟩, [.deprecatePrefix true]⟩,
    .routedef ⟨documentationPrefix.prefixAddr, ⟨6, [4]⟩, [.removeRoute true]⟩]⟩

def stopAt (now : Timespec) : LifeEvent :=
  .handles (.stop fun _ => ⟨.ethernet, fun _ => routerEnv now⟩)

theorem withdrawn_retiring :
    ∃ ifaces last sent iface message parsed usual, readinConfig retiring [] = .ok ifaces ∧
      Run Daemon.Lives ⟨ifaces, false⟩ [kickoffAt ⟨100, 0⟩] last ∧
      sent ∈ (last.live (stopAt ⟨130, 0⟩)).sent ∧ message ∈ sent.messages ∧
      last.ifaces[sent.position]? = some iface ∧
      Withdrawn parsed iface usual (routerEnv ⟨130, 0⟩).kernel message := by
  have found : (reached retiring [kickoffAt ⟨100, 0⟩]).map (fun seen =>
      (seen.2.ifaces.map fun iface => (iface.stateInfo.ready, iface.advSendAdvert),
        (seen.2.live (stopAt ⟨130, 0⟩)).sent.map fun sent => (sent.position, sent.messages.length)))
      = some ([(true, true)], [(0, 1)]) := by with_unfolding_all decide
  rcases exists_reached found with ⟨ifaces, last, read, run, seen⟩
  rw [Prod.mk.injEq, List.map_eq_singleton_iff, List.map_eq_singleton_iff] at seen
  rcases seen with ⟨⟨iface, only, flags⟩, sent, alone, shape⟩
  rw [Prod.mk.injEq] at flags shape
  rcases List.length_eq_one_iff.mp shape.2 with ⟨message, single⟩
  have stopped : sent ∈ (last.live (stopAt ⟨130, 0⟩)).sent := by
    rw [alone]
    exact List.mem_singleton_self sent
  have place : last.ifaces[sent.position]? = some iface := by
    rw [only, shape.1]
    rfl
  have messageMem : message ∈ sent.messages := by
    rw [single]
    exact List.mem_singleton_self message
  rcases withdrawn_of_stop read run stopped place flags.1 flags.2 with
    ⟨parsed, dest, index, usual, listed, destPlace, same, usually, withdrawn⟩
  exact ⟨ifaces, last, sent, iface, message, parsed, usual, read, run, stopped, messageMem, place,
    withdrawn message messageMem⟩

end Radvd
