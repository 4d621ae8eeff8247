import Radvd.Dump.PrintFf
import Radvd.IfaceRuns
import Radvd.PrefixEnd
import Radvd.PrefixLifetimes

/-!
# Infinite lifetimes

The lifetime `infinity` is the largest of all to the ageing of prefixes, which
subtracts the elapsed seconds from it like from any other. A prefix with
`DecrementLifetimes` keeps an infinite lifetime as long as no RA counts a whole
second while it is preferred (`infinity_stays`).
-/

namespace Radvd

open Wire Runs Grammar Dump

def infinity : UInt32 := 0xffffffff

/-! ## Limits of the kernel -/

section

variable {kernel : Kernel} {iface : Interface} {entry advertised : AdvPrefix}

/-- The kernel reports no valid lifetime for the prefix that is shorter than the
one configured. -/
def Kernel.LeavesValid (kernel : Kernel) (iface : Interface) (entry : AdvPrefix) : Prop :=
  ∀ candidate ∈ prefixCandidates kernel iface entry,
    (netlinkGetAddressLifetimes kernel candidate).ret = true →
      entry.advValidLifetime ≤ (netlinkGetAddressLifetimes kernel candidate).valid

def Kernel.LeavesPreferred (kernel : Kernel) (iface : Interface) (entry : AdvPrefix) : Prop :=
  ∀ candidate ∈ prefixCandidates kernel iface entry,
    (netlinkGetAddressLifetimes kernel candidate).ret = true →
      entry.advPreferredLifetime ≤ (netlinkGetAddressLifetimes kernel candidate).preferred

theorem min_eq_of_infinity {known lifetime : UInt32} (long : infinity ≤ known)
    (infinite : lifetime = infinity) : min known lifetime = infinity := by
  have bound := known.toNat_lt
  rw [UInt32.le_iff_toNat_le] at long
  apply UInt32.toNat_inj.mp
  rw [infinite, UInt32.toNat_min]
  exact Nat.min_eq_right long

/-- Limits of the kernel that are not shorter leave an infinite lifetime alone. -/
theorem infinite_of_mem_advertisedPrefixes
    (member : advertised ∈ advertisedPrefixes kernel iface entry) :
    (entry.decrementLifetimesFlag = true → 0 < entry.currPreferredlft) ∧
      (kernel.LeavesValid iface entry → entry.advValidLifetime = infinity →
        entry.currValidlft = infinity → advertised.currValidlft = infinity) ∧
      (kernel.LeavesPreferred iface entry → entry.advPreferredLifetime = infinity →
        entry.currPreferredlft = infinity → advertised.currPreferredlft = infinity) := by
  rw [advertisedPrefixes_eq] at member
  split at member
  · rename_i carried
    refine ⟨fun decrements => by simpa [decrements] using carried, ?_⟩
    rcases List.mem_map.mp member with ⟨candidate, candidateMem, rfl⟩
    rcases eq_of_mem_prefixCandidates candidateMem with ⟨addr, len, same⟩
    unfold limitPrefixLifetimes
    dsimp only
    split
    · rename_i known
      constructor
      · intro leaves configured infinite
        have long := leaves candidate candidateMem known
        rw [configured] at long
        exact min_eq_of_infinity long (by rw [same]; exact infinite)
      · intro leaves configured infinite
        have long := leaves candidate candidateMem known
        rw [configured] at long
        exact min_eq_of_infinity long (by rw [same]; exact infinite)
    · rw [same]
      exact ⟨fun _ _ => id, fun _ _ => id⟩
  · cases member

end

/-! ## Along a run -/

/-- An RA does not age the prefix at position `index` by a second or more, unless
that uses up its preferred lifetime. -/
def KeepsInfinity (index : Nat) (iface : Interface) : IfaceEvent → Prop
  | .sendRa env _ => ∀ entry, iface.advPrefixList[index]? = some entry →
      entry.decrementLifetimesFlag = true →
      secsSinceLastRa env.now iface.times.lastRaTime = 0 ∨
        entry.currPreferredlft.toNat ≤ secsSinceLastRa env.now iface.times.lastRaTime
  | _ => True

/-- The lifetimes of a prefix that are infinite in its configuration are so unless
the prefix has ended. -/
structure Infinite (configured entry : AdvPrefix) : Prop where
  config : SameConfig configured entry
  valid : configured.advValidLifetime = infinity →
    entry.currValidlft = infinity ∨
      (entry.decrementLifetimesFlag = true ∧ entry.currPreferredlft = 0)
  preferred : configured.advPreferredLifetime = infinity →
    entry.currPreferredlft = infinity ∨
      (entry.decrementLifetimesFlag = true ∧ entry.currPreferredlft = 0)

section

variable {configured entry : AdvPrefix}

theorem decrementLifetime_zero (lifetime : UInt32) : decrementLifetime 0 lifetime = lifetime := by
  have decremented := toNat_decrementLifetime (le_refl 0) lifetime
  apply UInt32.toNat_inj.mp
  omega

theorem decrementLifetime_eq_zero {secs : Int} (nonneg : 0 ≤ secs) {lifetime : UInt32}
    (short : lifetime.toNat ≤ secs) : decrementLifetime secs lifetime = 0 := by
  have decremented := toNat_decrementLifetime nonneg lifetime
  apply UInt32.toNat_inj.mp
  change _ = 0
  omega

theorem Infinite.ageEntry (infinite : Infinite configured entry) (ceaseAdv : Bool) {secs : Int}
    (nonneg : 0 ≤ secs)
    (keeps : entry.decrementLifetimesFlag = true →
      secs = 0 ∨ entry.currPreferredlft.toNat ≤ secs) :
    Infinite configured (ageEntry ceaseAdv secs entry) := by
  have same := infinite.config.trans (sameConfig_ageEntry ceaseAdv secs entry)
  unfold Radvd.ageEntry at same ⊢
  split
  · rename_i ages
    rw [if_pos ages] at same
    simp only [Bool.and_eq_true] at ages
    rcases keeps ages.2 with rfl | short
    · simp only [decrementLifetime_zero]
      exact infinite
    · have ended := decrementLifetime_eq_zero nonneg short
      exact ⟨same, fun _ => .inr ⟨ages.2, ended⟩, fun _ => .inr ⟨ages.2, ended⟩⟩
  · exact infinite

theorem Infinite.resetEntry (infinite : Infinite configured entry) :
    Infinite configured (resetEntry entry) := by
  have valid : entry.advValidLifetime = configured.advValidLifetime := by rw [infinite.config]
  have preferred : entry.advPreferredLifetime = configured.advPreferredLifetime := by
    rw [infinite.config]
  have same := infinite.config.trans (sameConfig_resetEntry entry)
  unfold Radvd.resetEntry at same ⊢
  split
  · rename_i resets
    rw [if_pos resets] at same
    exact ⟨same, fun set => .inl (valid.trans set), fun set => .inl (preferred.trans set)⟩
  · exact infinite

end

def HasInfinite (index : Nat) (configured : AdvPrefix) (iface : Interface) : Prop :=
  ∃ entry, iface.advPrefixList[index]? = some entry ∧ Infinite configured entry

/-- The prefix at position `index` keeps its infinite lifetimes in every step that
does not age them. -/
theorem infinite_step {index : Nat} {configured : AdvPrefix} {iface iface' : Interface}
    {event : IfaceEvent} (step : Guarded IfaceStep (KeepsInfinity index) iface event iface')
    (holds : HasInfinite index configured iface) : HasInfinite index configured iface' := by
  rcases holds with ⟨entry, found, infinite⟩
  rcases step with ⟨keeps, step⟩
  cases step with
  | setUp done => exact ⟨entry, by rw [(frame_setupIface done).prefixes_eq, found], infinite⟩
  | sendRa =>
      exact ⟨_, getElem?_agedIface found, infinite.ageEntry _ (secsSinceLastRa_nonneg _ _)
        (keeps entry found)⟩
  | countRa => exact ⟨entry, by rw [advPrefixList_countRa, found], infinite⟩
  | setTimes => exact ⟨entry, found, infinite⟩
  | touch => exact ⟨entry, found, infinite⟩
  | cease => exact ⟨entry, found, infinite⟩
  | reset =>
      refine ⟨resetEntry entry, ?_, infinite.resetEntry⟩
      rw [resetPrefixLifetimes, List.getElem?_map, found]
      rfl

theorem infinite_of_prefixdef {definition : PrefixDef} {configured : AdvPrefix}
    (read : prefixdef definition = .ok configured) : Infinite configured configured := by
  have fresh := freshPrefix_of_prefixdef read
  refine ⟨.refl _, fun set => .inl ?_, fun set => .inl ?_⟩
  · rw [fresh.valid_eq, set]
  · rw [fresh.preferred_eq, set]

/-! ## What is sent and printed -/

theorem printLifetime_infinity {edefs : Bool} {dflt value : UInt32} {keyword : Keyword}
    (finite : dflt ≠ infinity) (infinite : value = infinity) :
    .setting keyword .infinity ∈ printLifetime edefs dflt keyword value := by
  subst infinite
  rw [printLifetime, if_pos (by simp [finite])]
  exact List.mem_singleton_self _

/-- `radvdump` prints an infinite lifetime as `infinity`. -/
theorem printPrefix_infinity {mem : Memory} {offset : Nat} {entry : AdvPrefix} {ceaseAdv : Bool}
    (stored : mem.Holds offset (prefixBlock entry ceaseAdv)) (edefs : Bool) :
    (piValidTime entry ceaseAdv = infinity →
      .setting .advValidLifetime .infinity ∈ printPrefix mem edefs offset) ∧
      (piPreferredTime entry ceaseAdv = infinity →
        .setting .advPreferredLifetime .infinity ∈ printPrefix mem edefs offset) := by
  unfold prefixBlock at stored
  simp only [Memory.holds_append] at stored
  obtain ⟨⟨⟨⟨-, valid⟩, preferred⟩, -⟩, -⟩ := stored
  have validRead := Memory.u32_of_holds valid
  have preferredRead := Memory.u32_of_holds preferred
  unfold printPrefix
  simp only [List.mem_append]
  constructor
  · intro infinite
    have printed := @printLifetime_infinity edefs 86400 _ .advValidLifetime (by decide)
      (validRead.trans infinite)
    exact .inl (.inl (.inl (.inl (.inl (.inl (.inr printed))))))
  · intro infinite
    have printed := @printLifetime_infinity edefs 14400 _ .advPreferredLifetime (by decide)
      (preferredRead.trans infinite)
    exact .inl (.inl (.inl (.inl (.inl (.inr printed)))))

/-- The option carries infinite lifetimes as such, and `radvdump` prints them so. -/
structure ShowsInfinity (valid preferred : Prop) (option : Bytes) : Prop where
  valid_eq : valid → optionValid option = infinity
  preferred_eq : preferred → optionPreferred option = infinity
  prints_valid : valid → ∀ mem offset edefs, mem.Holds offset option →
    .setting .advValidLifetime .infinity ∈ printPrefix mem edefs offset
  prints_preferred : preferred → ∀ mem offset edefs, mem.Holds offset option →
    .setting .advPreferredLifetime .infinity ∈ printPrefix mem edefs offset

/-- The options of an entry that is as infinite as it was configured. -/
theorem showsInfinity_of_infinite {iface : Interface} {env : SendEnv} {dest : Option In6Addr}
    {index : Nat} {configured entry : AdvPrefix}
    (place : (agedIface env iface dest).advPrefixList[index]? = some entry)
    (infinite : Infinite configured entry) (running : iface.stateInfo.ceaseAdv = false)
    {option : Bytes} (listed : option ∈ prefixOptions env iface dest index) :
    ShowsInfinity
      (configured.advValidLifetime = infinity ∧
        env.kernel.LeavesValid (agedIface env iface dest) entry)
      (configured.advPreferredLifetime = infinity ∧
        env.kernel.LeavesPreferred (agedIface env iface dest) entry) option := by
  unfold prefixOptions at listed
  rw [place, running] at listed
  rcases List.mem_map.mp listed with ⟨advertised, advertisedMem, rfl⟩
  rcases infinite_of_mem_advertisedPrefixes advertisedMem with ⟨alive, validKept, preferredKept⟩
  have lives : ¬(entry.decrementLifetimesFlag = true ∧ entry.currPreferredlft = 0) := by
    rintro ⟨decrements, ended⟩
    have positive := alive decrements
    rw [ended] at positive
    exact absurd positive (by decide)
  have valid : configured.advValidLifetime = infinity ∧
      env.kernel.LeavesValid (agedIface env iface dest) entry →
      advertised.currValidlft = infinity := by
    rintro ⟨set, leaves⟩
    have same : entry.advValidLifetime = infinity := by rw [infinite.config, set]
    exact validKept leaves same ((infinite.valid set).resolve_right lives)
  have preferred : configured.advPreferredLifetime = infinity ∧
      env.kernel.LeavesPreferred (agedIface env iface dest) entry →
      advertised.currPreferredlft = infinity := by
    rintro ⟨set, leaves⟩
    have same : entry.advPreferredLifetime = infinity := by rw [infinite.config, set]
    exact preferredKept leaves same ((infinite.preferred set).resolve_right lives)
  constructor
  · exact fun set => (lifetimes_prefixBlock _ _).1.trans (valid set)
  · exact fun set => (lifetimes_prefixBlock _ _).2.trans (preferred set)
  · exact fun set mem offset edefs stored => (printPrefix_infinity stored edefs).1 (valid set)
  · exact fun set mem offset edefs stored => (printPrefix_infinity stored edefs).2 (preferred set)

/-- In every run in which no RA ages the prefix at position `index`, or only to its
end, an RA outside shutdown carries its infinite lifetimes as such. -/
theorem infinity_stays {first : Ifacedef} {rest : List Ifacedef} {ifaces : List Interface}
    (read : readinConfig first rest = .ok ifaces) {parsed : Interface} (member : parsed ∈ ifaces)
    {index : Nat} {configured : AdvPrefix}
    (found : parsed.advPrefixList[index]? = some configured) {events : List IfaceEvent}
    {iface : Interface} (run : Run (Guarded IfaceStep (KeepsInfinity index)) parsed events iface)
    {env : SendEnv} {warned : Bool} {dest : Option In6Addr} {message : Bytes}
    (keeps : KeepsInfinity index iface (.sendRa env dest))
    (ready : iface.stateInfo.ready = true) (running : iface.stateInfo.ceaseAdv = false)
    (sent : message ∈ (sendRa env warned iface dest).sent) :
    ofType ndOptPrefixInformation (raOptions message) <:+:
        (List.range parsed.advPrefixList.length).flatMap (prefixOptions env iface dest) ∧
      ∃ entry, (agedIface env iface dest).advPrefixList[index]? = some entry ∧
        ∀ option ∈ prefixOptions env iface dest index, ShowsInfinity
          (configured.advValidLifetime = infinity ∧
            env.kernel.LeavesValid (agedIface env iface dest) entry)
          (configured.advPreferredLifetime = infinity ∧
            env.kernel.LeavesPreferred (agedIface env iface dest) entry) option := by
  rcases gives_of_readinConfig read member with ⟨definition, -, gives⟩
  have always : ∀ event ∈ events, event.Within (fun _ => True) True := by
    intro event _
    cases event <;> trivial
  have derived := (@stable_derived (fun _ => True) True parsed).ifaceRun run.of_guarded always
    (derived_of_gives gives)
  have isParsed := derived.parsed_of_ready gives.parsed ready
  have carries := carries_of_mem_sent isParsed sent
  have start : Infinite configured configured := by
    rcases forall₂_mem_right gives.defined.prefixes (List.mem_of_getElem? found) with
      ⟨definition, -, read⟩
    exact infinite_of_prefixdef read
  have kept : HasInfinite index configured iface :=
    run.invariant (fun _ _ _ => infinite_step) ⟨configured, found, start⟩
  have step : Guarded IfaceStep (KeepsInfinity index) iface (.sendRa env dest)
      (agedIface env iface dest) := ⟨keeps, .sendRa (advertises_of_mem_sent sent)⟩
  rcases infinite_step step kept with ⟨entry, place, infinite⟩
  constructor
  · have prefixes := carries.options_infix.filter (optionType · = ndOptPrefixInformation)
    have lengths := derived.prefixes.length_eq
    have all := @ofType_prefixes env.order env.kernel _ (parsed_agedIface isParsed env dest)
    rw [← flatMap_prefixOptions, ← lengths] at all
    unfold ofType at all
    rw [all] at prefixes
    exact prefixes
  · refine ⟨entry, place, ?_⟩
    intro option listed
    exact showsInfinity_of_infinite place infinite running listed

/-- The prefix of the repository's first test, with both lifetimes infinite and
`DecrementLifetimes`. -/
def lasting : Ifacedef :=
  ⟨eth0, [.ifaceval (.advSendAdvert true),
    .prefixdef ⟨documentationPrefix.prefixAddr, ⟨6, [4]⟩,
      [.advAutonomous true, .advRouterAddr true, .advValidLifetime .infinity,
        .advPreferredLifetime .infinity, .deprecatePrefix true, .decrementLifetimes true]⟩]⟩

theorem infinity_stays_lasting :
    ∃ ifaces parsed configured iface message option, readinConfig lasting [] = .ok ifaces ∧
      parsed ∈ ifaces ∧ parsed.advPrefixList[0]? = some configured ∧
      configured.advValidLifetime = infinity ∧ configured.advPreferredLifetime = infinity ∧
      Run (Guarded IfaceStep (KeepsInfinity 0)) parsed [.setUp .ethernet] iface ∧
      message ∈ (sendRa (routerEnv ⟨0, 0⟩) false iface none).sent ∧
      option ∈ raOptions message ∧ option ∈ prefixOptions (routerEnv ⟨0, 0⟩) iface none 0 ∧
      optionValid option = infinity ∧ optionPreferred option = infinity := by
  let env := routerEnv ⟨0, 0⟩
  let entry : AdvPrefix :=
    { documentationPrefix with
      advRouterAddr := true
      deprecatePrefixFlag := true
      decrementLifetimesFlag := true
      advValidLifetime := infinity
      advPreferredLifetime := infinity
      currValidlft := infinity
      currPreferredlft := infinity }
  have found : (prepared lasting).map (fun seen => decide (seen.1.advPrefixList = [entry] ∧
      seen.2.stateInfo.ready = true ∧ seen.2.stateInfo.ceaseAdv = false ∧
      seen.2.times.lastRaTime = ⟨0, 0⟩ ∧ (sendRa env false seen.2 none).sent.map
        (fun message => (raOptions message).head?) = [some (prefixBlock entry false)] ∧
      prefixOptions env seen.2 none 0 = [prefixBlock entry false])) = some true := by
    with_unfolding_all decide
  rcases exists_prepared found with ⟨ifaces, parsed, iface, read, member, step, seen⟩
  rw [decide_eq_true_eq] at seen
  obtain ⟨prefixes, ready, running, lastRaTime, messages, options⟩ := seen
  have place : parsed.advPrefixList[0]? = some entry := by rw [prefixes]; rfl
  have run : Run (Guarded IfaceStep (KeepsInfinity 0)) parsed [.setUp .ethernet] iface :=
    .cons ⟨trivial, step⟩ (.nil _)
  rcases List.map_eq_singleton_iff.mp messages with ⟨message, sent, first⟩
  have sentMem : message ∈ (sendRa env false iface none).sent := by rw [sent]; simp
  have keeps : KeepsInfinity 0 iface (.sendRa env none) := by
    intro _ _ _
    rw [lastRaTime]
    exact .inl (by decide)
  have listed : prefixBlock entry false ∈ prefixOptions env iface none 0 := by
    rw [options]
    exact List.mem_singleton_self _
  rcases infinity_stays read member place run keeps ready running sentMem with
    ⟨-, aged, -, shows⟩
  have leaves : env.kernel.LeavesValid (agedIface env iface none) aged ∧
      env.kernel.LeavesPreferred (agedIface env iface none) aged := by
    constructor <;> exact fun _ _ known => (by cases known)
  have both := shows _ listed
  exact ⟨ifaces, parsed, entry, iface, message, _, read, member, place, rfl, rfl, run, sentMem,
    List.mem_of_head? first, listed, both.valid_eq ⟨rfl, leaves.1⟩,
    both.preferred_eq ⟨rfl, leaves.2⟩⟩

/-- Half a minute after the kickoff the infinite lifetimes are 30 seconds short of
infinity. -/
theorem infinity_decremented :
    ∃ ifaces last sent message option, readinConfig lasting [] = .ok ifaces ∧
      (∀ parsed ∈ ifaces, ∀ configured ∈ parsed.advPrefixList,
        configured.advValidLifetime = infinity ∧ configured.advPreferredLifetime = infinity) ∧
      Run Daemon.Lives ⟨ifaces, false⟩ [kickoffAt ⟨100, 0⟩] last ∧
      sent ∈ (last.live (timerAt ⟨130, 0⟩)).sent ∧ message ∈ sent.messages ∧
      option ∈ raOptions message ∧ optionType option = ndOptPrefixInformation ∧
      optionValid option = infinity - 30 ∧ optionPreferred option = infinity - 30 ∧
      .setting .advValidLifetime (.number 4294967265) ∈
        printPrefix (Memory.ofBytes option) false 0 := by
  let option := prefixBlock { documentationPrefix with
    advRouterAddr := true, currValidlft := infinity - 30, currPreferredlft := infinity - 30 } false
  have found : (reached lasting [kickoffAt ⟨100, 0⟩]).map (fun seen =>
      (decide (∀ parsed ∈ seen.1, ∀ configured ∈ parsed.advPrefixList,
        configured.advValidLifetime = infinity ∧ configured.advPreferredLifetime = infinity),
        (seen.2.optionsSent (timerAt ⟨130, 0⟩)).head?)) = some (true, some option) := by
    with_unfolding_all decide
  rcases exists_reached found with ⟨ifaces, last, read, run, seen⟩
  simp only [Prod.mk.injEq, decide_eq_true_eq] at seen
  rcases exists_of_mem_optionsSent (List.mem_of_head? seen.2) with
    ⟨sent, sentMem, message, messageMem, listed⟩
  exact ⟨ifaces, last, sent, message, option, read, seen.1, run, sentMem, messageMem, listed,
    by decide, by with_unfolding_all decide, by with_unfolding_all decide, by with_unfolding_all decide⟩

end Radvd
