import Radvd.Transmitted

/-!
# The two lifetimes of a prefix

Every Prefix Information option that is sent has a preferred lifetime within its
valid lifetime, and a valid lifetime within the one that is configured
(`preferred_le_valid`).

The parser compares the two lifetimes of a prefix. Ageing, resetting, the limits
of the kernel and the last RA of a shutdown change them one by one, but keep
their order (`Limited`).
-/

namespace Radvd

open Wire Tlv Runs Grammar

/-! ## Options -/

def optionValid (option : Bytes) : UInt32 :=
  (Memory.ofBytes option).u32 4

def optionPreferred (option : Bytes) : UInt32 :=
  (Memory.ofBytes option).u32 8

section

variable {kernel : Kernel} {iface : Interface} {entry advertised : AdvPrefix} {ceaseAdv : Bool}

theorem lifetimes_prefixBlock (entry : AdvPrefix) (ceaseAdv : Bool) :
    optionValid (prefixBlock entry ceaseAdv) = piValidTime entry ceaseAdv ∧
      optionPreferred (prefixBlock entry ceaseAdv) = piPreferredTime entry ceaseAdv := by
  have stored := Memory.holds_ofBytes (prefixBlock entry ceaseAdv)
  unfold prefixBlock at stored
  simp only [Memory.holds_append] at stored
  obtain ⟨⟨⟨⟨-, valid⟩, preferred⟩, -⟩, -⟩ := stored
  exact ⟨Memory.u32_of_holds valid, Memory.u32_of_holds preferred⟩

/-- The entries an element of the prefix list stands for, before the kernel limits
their lifetimes. -/
def prefixCandidates (kernel : Kernel) (iface : Interface) (entry : AdvPrefix) : List AdvPrefix :=
  if entry.isLiteral then [entry]
  else
    (if entry.if6to4 ≠ [] then ((kernel.getV4addr entry.if6to4).map (prefix6to4 entry)).toList
      else []) ++
      (if entry.if6 ≠ [] then kernel.getifaddrs.filterMap (autoPrefix iface entry.if6 entry)
        else []) ++
      if entry.prefixAddr = In6Addr.unspecified then
        kernel.getifaddrs.filterMap (autoPrefix iface iface.props.name entry)
      else []

theorem advertisedPrefixes_eq (kernel : Kernel) (iface : Interface) (entry : AdvPrefix) :
    advertisedPrefixes kernel iface entry =
      if !entry.decrementLifetimesFlag || entry.currPreferredlft > 0 then
        (prefixCandidates kernel iface entry).map (limitPrefixLifetimes kernel)
      else [] := by
  unfold advertisedPrefixes prefixCandidates autoPrefixes autoPrefixes6to4
  split
  · split
    · rfl
    · simp only [List.map_append, apply_ite (List.map (limitPrefixLifetimes kernel)), List.map_nil,
        Option.toList_map, List.map_map, Function.comp_def]
  · rfl

theorem eq_of_mem_prefixCandidates {candidate : AdvPrefix}
    (member : candidate ∈ prefixCandidates kernel iface entry) :
    ∃ addr len, candidate = { entry with prefixAddr := addr, prefixLen := len } := by
  have auto : ∀ ifname, candidate ∈ kernel.getifaddrs.filterMap (autoPrefix iface ifname entry) →
      ∃ addr len, candidate = { entry with prefixAddr := addr, prefixLen := len } := by
    intro ifname member
    rcases List.mem_filterMap.mp member with ⟨ifa, -, found⟩
    unfold autoPrefix at found
    split at found
    · cases found
    split at found
    · split_ifs at found
      cases found
      exact ⟨_, _, rfl⟩
    · cases found
  unfold prefixCandidates at member
  split at member
  · cases List.mem_singleton.mp member
    exact ⟨entry.prefixAddr, entry.prefixLen, rfl⟩
  · simp only [List.mem_append, List.mem_ite_nil_right, Option.mem_toList,
      Option.map_eq_some_iff] at member
    rcases member with (⟨-, dst, -, rfl⟩ | ⟨-, from6⟩) | ⟨-, own⟩
    · exact ⟨_, _, rfl⟩
    · exact auto _ from6
    · exact auto _ own

/-- An entry that is advertised has the lifetimes of the one in the list, within
the limits of the kernel. -/
theorem advertisedPrefixes_spec (member : advertised ∈ advertisedPrefixes kernel iface entry) :
    ∃ addr len, advertised =
      limitPrefixLifetimes kernel { entry with prefixAddr := addr, prefixLen := len } := by
  rw [advertisedPrefixes_eq] at member
  split at member
  · rcases List.mem_map.mp member with ⟨candidate, candidateMem, rfl⟩
    rcases eq_of_mem_prefixCandidates candidateMem with ⟨addr, len, rfl⟩
    exact ⟨addr, len, rfl⟩
  · cases member

/-- The option is one the daemon can build for a prefix of the configuration. -/
def BuiltFor (configured : AdvPrefix) (option : Bytes) : Prop :=
  ∃ kernel iface entry advertised ceaseAdv, SameConfig configured entry ∧
    advertised ∈ advertisedPrefixes kernel iface entry ∧ option = prefixBlock advertised ceaseAdv

end

/-! ## The kernel -/

/-- The kernel reports no preferred lifetime beyond the valid one. -/
def Kernel.Sane (kernel : Kernel) : Prop :=
  ∀ messages ∈ kernel.rtmGetaddr, ∀ attrs ∈ messages, ∀ ifaValid ifaPrefered,
    .cacheinfo ifaValid ifaPrefered ∈ attrs → ifaPrefered ≤ ifaValid

def SendEnv.Sane (env : SendEnv) : Prop :=
  env.kernel.Sane

theorem max_le_max_of_le {a b c d : UInt32} (first : a ≤ b) (second : c ≤ d) :
    (if a > c then a else c) ≤ if b > d then b else d := by
  simp only [UInt32.le_iff_toNat_le, gt_iff_lt, UInt32.lt_iff_toNat_lt] at *
  split <;> split <;> omega

theorem scanAttrs_le {entry : AdvPrefix} {found : Bool} {acc : AddressLifetimes}
    {attrs : List RtAttr}
    (sane : ∀ ifaValid ifaPrefered, .cacheinfo ifaValid ifaPrefered ∈ attrs →
      ifaPrefered ≤ ifaValid)
    (ordered : acc.preferred ≤ acc.valid) :
    (scanAttrs entry found acc attrs).preferred ≤ (scanAttrs entry found acc attrs).valid := by
  induction attrs generalizing found acc with
  | nil => exact ordered
  | cons attr rest ih =>
      have later := fun found acc ordered => @ih found acc
        (fun ifaValid ifaPrefered member => sane ifaValid ifaPrefered (List.mem_cons_of_mem _ member))
        ordered
      cases attr with
      | address addr => exact later _ _ ordered
      | other => exact later _ _ ordered
      | cacheinfo ifaValid ifaPrefered =>
          unfold scanAttrs
          split
          · apply later
            exact max_le_max_of_le (sane _ _ (List.mem_cons_self ..)) ordered
          · exact later _ _ ordered

/-- The maxima over the addresses are in order although they may come from
different addresses. -/
theorem netlinkGetAddressLifetimes_le {kernel : Kernel} (sane : kernel.Sane) (entry : AdvPrefix) :
    (netlinkGetAddressLifetimes kernel entry).preferred ≤
      (netlinkGetAddressLifetimes kernel entry).valid := by
  unfold netlinkGetAddressLifetimes
  split
  · exact UInt32.le_refl _
  · rename_i messages reply
    have scanned : ∀ (messages : List (List RtAttr)) (acc : AddressLifetimes),
        (∀ attrs ∈ messages, ∀ ifaValid ifaPrefered,
          .cacheinfo ifaValid ifaPrefered ∈ attrs → ifaPrefered ≤ ifaValid) →
        acc.preferred ≤ acc.valid →
        (messages.foldl (scanAttrs entry false) acc).preferred ≤
          (messages.foldl (scanAttrs entry false) acc).valid := by
      intro messages
      induction messages with
      | nil => exact fun acc _ ordered => ordered
      | cons attrs rest ih =>
          intro acc sane ordered
          rw [List.forall_mem_cons] at sane
          exact ih _ sane.2 (scanAttrs_le sane.1 ordered)
    exact scanned messages _ (sane messages reply) (UInt32.le_refl _)

theorem limitPrefixLifetimes_le {kernel : Kernel} (sane : kernel.Sane) {entry : AdvPrefix}
    (ordered : entry.currPreferredlft ≤ entry.currValidlft) :
    (limitPrefixLifetimes kernel entry).currPreferredlft ≤
        (limitPrefixLifetimes kernel entry).currValidlft ∧
      (limitPrefixLifetimes kernel entry).currValidlft ≤ entry.currValidlft := by
  have known := netlinkGetAddressLifetimes_le sane entry
  unfold limitPrefixLifetimes
  dsimp only
  split
  · simp only [UInt32.le_iff_toNat_le, UInt32.toNat_min] at *
    omega
  · exact ⟨ordered, UInt32.le_refl _⟩

/-! ## The invariant -/

/-- The lifetimes of a prefix are in order and within the valid lifetime that is
configured. -/
structure Limited (configured entry : AdvPrefix) : Prop where
  config : SameConfig configured entry
  configured_le : configured.advPreferredLifetime ≤ configured.advValidLifetime
  preferred_le : entry.currPreferredlft ≤ entry.currValidlft
  valid_le : entry.currValidlft ≤ configured.advValidLifetime

section

variable {configured entry : AdvPrefix}

theorem decrementLifetime_le_decrementLifetime {secs : Int} (nonneg : 0 ≤ secs)
    {first second : UInt32} (le : first ≤ second) :
    decrementLifetime secs first ≤ decrementLifetime secs second := by
  have decremented := toNat_decrementLifetime nonneg first
  have decremented' := toNat_decrementLifetime nonneg second
  rw [UInt32.le_iff_toNat_le] at *
  omega

theorem decrementLifetime_le {secs : Int} (nonneg : 0 ≤ secs) (lifetime : UInt32) :
    decrementLifetime secs lifetime ≤ lifetime := by
  have decremented := toNat_decrementLifetime nonneg lifetime
  rw [UInt32.le_iff_toNat_le]
  omega

theorem Limited.ageEntry (limited : Limited configured entry) (ceaseAdv : Bool) {secs : Int}
    (nonneg : 0 ≤ secs) : Limited configured (ageEntry ceaseAdv secs entry) := by
  refine ⟨limited.config.trans (sameConfig_ageEntry ceaseAdv secs entry), limited.configured_le,
    ?_, ?_⟩
  all_goals
    unfold Radvd.ageEntry
    split
  · exact decrementLifetime_le_decrementLifetime nonneg limited.preferred_le
  · exact limited.preferred_le
  · exact UInt32.le_trans (decrementLifetime_le nonneg _) limited.valid_le
  · exact limited.valid_le

theorem Limited.resetEntry (limited : Limited configured entry) :
    Limited configured (resetEntry entry) := by
  have valid : entry.advValidLifetime = configured.advValidLifetime := by rw [limited.config]
  have preferred : entry.advPreferredLifetime = configured.advPreferredLifetime := by
    rw [limited.config]
  refine ⟨limited.config.trans (sameConfig_resetEntry entry), limited.configured_le, ?_, ?_⟩
  all_goals
    unfold Radvd.resetEntry
    split
  · dsimp only
    rw [preferred, valid]
    exact limited.configured_le
  · exact limited.preferred_le
  · dsimp only
    rw [valid]
    exact UInt32.le_refl _
  · exact limited.valid_le

theorem limited_of_prefixdef {definition : PrefixDef} (read : prefixdef definition = .ok configured) :
    Limited configured configured := by
  have fresh := freshPrefix_of_prefixdef read
  refine ⟨.refl _, fresh.preferred_le, ?_, ?_⟩
  · rw [fresh.valid_eq, fresh.preferred_eq]
    exact fresh.preferred_le
  · rw [fresh.valid_eq]
    exact UInt32.le_refl _

/-- The order of the lifetimes survives the limits of the kernel and the
deprecation of the prefix. -/
theorem Limited.option {kernel : Kernel} {iface : Interface} {advertised : AdvPrefix}
    (limited : Limited configured entry) (sane : kernel.Sane)
    (member : advertised ∈ advertisedPrefixes kernel iface entry) (ceaseAdv : Bool) :
    optionPreferred (prefixBlock advertised ceaseAdv) ≤
        optionValid (prefixBlock advertised ceaseAdv) ∧
      optionValid (prefixBlock advertised ceaseAdv) ≤ configured.advValidLifetime := by
  rcases advertisedPrefixes_spec member with ⟨addr, len, rfl⟩
  have limits := @limitPrefixLifetimes_le _ sane { entry with prefixAddr := addr, prefixLen := len }
    limited.preferred_le
  have within := UInt32.le_trans limits.2 limited.valid_le
  rw [(lifetimes_prefixBlock _ _).1, (lifetimes_prefixBlock _ _).2]
  unfold piPreferredTime piValidTime
  split
  · refine ⟨UInt32.zero_le, ?_⟩
    split
    · exact within
    · rename_i long
      exact UInt32.le_trans (UInt32.not_lt.mp long) within
  · exact ⟨limits.1, within⟩

end

/-! ## Every option that is sent -/

/-- The interface is derived from the configuration, and its prefixes are in
order. -/
def InOrder (parsed iface : Interface) : Prop :=
  Derived parsed iface ∧ List.Forall₂ Limited parsed.advPrefixList iface.advPrefixList

theorem stable_inOrder {allowed : SendEnv → Prop} {shutdown : Prop} (parsed : Interface) :
    Stable allowed shutdown (InOrder parsed) :=
  (stable_derived parsed).and (stable_prefixes _ (fun ceaseAdv _ nonneg limited =>
    limited.ageEntry ceaseAdv nonneg) Limited.resetEntry)

theorem inOrder_of_gives {definition : Ifacedef} {parsed : Interface}
    (gives : definition.Gives parsed) : InOrder parsed parsed := by
  refine ⟨derived_of_gives gives, List.forall₂_same.mpr fun entry member => ?_⟩
  rcases forall₂_mem_right gives.defined.prefixes member with ⟨definition, -, read⟩
  exact limited_of_prefixdef read

/-- A Prefix Information option is built for a prefix of the configuration. -/
theorem exists_prefix_of_mem_sent {parsed iface : Interface}
    {env : SendEnv} {warned : Bool} {dest : Option In6Addr} {message option : Bytes}
    (derived : Derived parsed iface) (wellFormed : parsed.Parsed)
    (ready : iface.stateInfo.ready = true)
    (sent : message ∈ (sendRa env warned iface dest).sent) (listed : option ∈ raOptions message)
    (isPrefix : optionType option = ndOptPrefixInformation) :
    ∃ entry ∈ (agedIface env iface dest).advPrefixList,
      ∃ advertised ∈ advertisedPrefixes env.kernel (agedIface env iface dest) entry,
        option = prefixBlock advertised iface.stateInfo.ceaseAdv := by
  have isParsed := derived.parsed_of_ready wellFormed ready
  have carries := carries_of_mem_sent isParsed sent
  have member := mem_ofType.mpr ⟨carries.options_infix.subset listed, isPrefix⟩
  rw [ofType_prefixes (parsed_agedIface isParsed env dest), ceaseAdv_agedIface, prefixBlocks,
    List.mem_map] at member
  rcases member with ⟨advertised, flat, rfl⟩
  rcases List.mem_flatMap.mp flat with ⟨entry, entryMem, advertisedMem⟩
  exact ⟨entry, entryMem, advertised, advertisedMem, rfl⟩

/-- Along every run of a configuration that the parser accepts, shutdowns and
signals included, each Prefix Information option has a preferred lifetime within
the valid one, which is within the one that is configured for the prefix. -/
theorem preferred_le_valid {first : Ifacedef} {rest : List Ifacedef} {ifaces : List Interface}
    (read : readinConfig first rest = .ok ifaces) {warned : Bool} {events : List LifeEvent}
    {last : Daemon} (run : Run Daemon.Lives ⟨ifaces, warned⟩ events last)
    (sane : ∀ event ∈ events, event.Within SendEnv.Sane True) {event : LifeEvent}
    (next : event.Within SendEnv.Sane True) {sent : Sent} (sentMem : sent ∈ (last.live event).sent)
    {message : Bytes} (messageMem : message ∈ sent.messages) {option : Bytes}
    (listed : option ∈ raOptions message)
    (isPrefix : optionType option = ndOptPrefixInformation) :
    optionPreferred option ≤ optionValid option ∧
      ∃ parsed configured, ifaces[sent.position]? = some parsed ∧
        configured ∈ parsed.advPrefixList ∧ BuiltFor configured option ∧
        optionValid option ≤ configured.advValidLifetime := by
  have stable : ∀ parsed ∈ ifaces, Stable SendEnv.Sane True (InOrder parsed) :=
    fun parsed _ => stable_inOrder parsed
  have initial : ∀ parsed ∈ ifaces, InOrder parsed parsed := by
    intro parsed member
    rcases gives_of_readinConfig read member with ⟨definition, -, gives⟩
    exact inOrder_of_gives gives
  rcases sentBy_reached stable initial run sane next sent sentMem message messageMem with
    ⟨env, warned, iface, dest, kernelSane, ⟨parsed, found, derived, inOrder⟩, ready, built⟩
  rcases gives_of_readinConfig read (List.mem_of_getElem? found) with ⟨definition, -, gives⟩
  rcases exists_prefix_of_mem_sent derived gives.parsed ready built listed isPrefix
    with ⟨entry, entryMem, advertised, advertisedMem, rfl⟩
  have aged := (@stable_inOrder SendEnv.Sane True parsed).aged dest
    (advertises_of_mem_sent built) kernelSane ⟨derived, inOrder⟩
  rcases forall₂_mem_right aged.2 entryMem with ⟨configured, configuredMem, limited⟩
  have ordered := limited.option kernelSane advertisedMem iface.stateInfo.ceaseAdv
  exact ⟨ordered.1, parsed, configured, found, configuredMem,
    ⟨env.kernel, _, entry, advertised, _, limited.config, advertisedMem, rfl⟩, ordered.2⟩

/-- The documentation prefix, valid for 100 seconds and preferred for 50, with
`DecrementLifetimes` on `eth0`. -/
def delegating : Ifacedef :=
  ⟨eth0, [.ifaceval (.advSendAdvert true),
    .prefixdef ⟨documentationPrefix.prefixAddr, ⟨6, [4]⟩,
      [.advValidLifetime (.number ⟨1, [0, 0]⟩), .advPreferredLifetime (.number ⟨5, [0]⟩),
        .decrementLifetimes true]⟩]⟩

theorem sane_silent (now : Timespec) : (routerEnv now).Sane := by
  rintro messages ⟨⟩

/-- Half a minute after the kickoff. -/
theorem preferred_le_valid_delegating :
    ∃ ifaces last sent message option, readinConfig delegating [] = .ok ifaces ∧
      Run Daemon.Lives ⟨ifaces, false⟩ [kickoffAt ⟨100, 0⟩] last ∧
      sent ∈ (last.live (timerAt ⟨130, 0⟩)).sent ∧ message ∈ sent.messages ∧
      option ∈ raOptions message ∧ optionPreferred option = 20 ∧ optionValid option = 70 ∧
      optionPreferred option ≤ optionValid option ∧
      ∃ parsed configured, ifaces[sent.position]? = some parsed ∧
        configured ∈ parsed.advPrefixList ∧ BuiltFor configured option ∧
        optionValid option ≤ configured.advValidLifetime := by
  rcases @exists_option_reached delegating [kickoffAt ⟨100, 0⟩] (timerAt ⟨130, 0⟩)
    (prefixBlock { documentationPrefix with currValidlft := 70, currPreferredlft := 20 } false)
    (by with_unfolding_all decide) with ⟨ifaces, last, read, run, sent, sentMem, message, messageMem, listed⟩
  have within : ∀ event ∈ [kickoffAt ⟨100, 0⟩], event.Within SendEnv.Sane True := by
    intro event member
    rw [List.mem_singleton.mp member]
    exact fun _ => sane_silent _
  have next : (timerAt ⟨130, 0⟩).Within SendEnv.Sane True := fun _ => sane_silent _
  have both := preferred_le_valid read run within next sentMem messageMem listed (by decide)
  exact ⟨ifaces, last, sent, message, _, read, run, sentMem, messageMem, listed, by with_unfolding_all decide,
    by with_unfolding_all decide, both⟩

end Radvd
