import Radvd.Grammar.Results
import Radvd.Sending

/-!
# Interfaces of a configuration

What the daemon does to an interface keeps it derived from the one that the
parser left (`stable_derived`): the configuration stays, the prefixes only change
their current lifetimes, lifetimes that are set are not replaced by defaults, and
the interface is only ready after `check_iface` has accepted it.
-/

namespace Radvd

open Wire Runs Grammar

/-! ## Interfaces that were set up -/

theorem advDefaultLifetime_fillDefaults (iface : Interface) :
    (fillDefaults iface).raHeaderInfo.advDefaultLifetime =
      if iface.raHeaderInfo.advDefaultLifetime < 0 then max 1 ⌊3 * iface.maxRtrAdvInterval⌋
      else iface.raHeaderInfo.advDefaultLifetime := by
  unfold fillDefaults
  dsimp only
  split_ifs <;> rfl

theorem homeAgentLifetime_fillDefaults (iface : Interface) :
    (fillDefaults iface).mipv6.homeAgentLifetime =
      if iface.mipv6.homeAgentLifetime < 0 then
        (fillDefaults iface).raHeaderInfo.advDefaultLifetime
      else iface.mipv6.homeAgentLifetime := by
  rw [advDefaultLifetime_fillDefaults]
  unfold fillDefaults
  dsimp only
  split_ifs <;> rfl

theorem sllao_fillDefaults (iface : Interface) : (fillDefaults iface).sllao = iface.sllao := by
  unfold fillDefaults
  dsimp only
  split_ifs <;> rfl

/-- What `update_device_info` and `check_iface` say of an interface they
accept. -/
structure Interface.Checked (iface : Interface) : Prop where
  hwaddr_le : iface.sllao.ifHwaddrLen ≤ 128
  lifetime_nonneg : 0 ≤ iface.raHeaderInfo.advDefaultLifetime
  lifetime_le : iface.raHeaderInfo.advDefaultLifetime ≤ 65535
  homeAgent_nonneg : 0 ≤ iface.mipv6.homeAgentLifetime
  homeAgent_le : iface.mipv6.advHomeAgentInfo = true → iface.mipv6.homeAgentLifetime ≤ 65520

theorem checked_of_checkIface {env : SetupEnv} {known : Interface} {ret : Int}
    (check : checkIface env known = .ok (fillDefaults known, ret)) (accepts : ¬ret < 0)
    (hwaddr : known.sllao.ifHwaddrLen ≤ 128) : (fillDefaults known).Checked := by
  have lifetime := advDefaultLifetime_fillDefaults known
  have homeAgent := homeAgentLifetime_fillDefaults known
  have nonneg : 0 ≤ (fillDefaults known).raHeaderInfo.advDefaultLifetime := by
    rw [lifetime]
    split <;> omega
  unfold checkIface at check
  rcases forwarding : checkIp6IfaceForwarding env with exit | value
  · rw [forwarding] at check
    cases check
  · rw [forwarding] at check
    simp only [Bind.bind, Except.bind, pure, Except.pure, Except.ok.injEq, Prod.mk.injEq,
      true_and] at check
    subst check
    split at accepts
    · rename_i checks
      simp only [ifaceChecks, List.all_cons, id_eq, Bool.and_eq_true, Bool.not_eq_true',
        Bool.and_eq_false_iff, Bool.or_eq_false_iff, decide_eq_false_iff_not] at checks
      obtain ⟨-, -, -, -, -, lifetimeRange, homeAgentRange, -⟩ := checks
      refine ⟨by rw [sllao_fillDefaults]; exact hwaddr, nonneg, ?_, ?_, ?_⟩
      · rcases lifetimeRange with zero | ⟨small, -⟩
        · simp only [ne_eq, not_not] at zero
          omega
        · omega
      · rw [homeAgent]
        split <;> omega
      · intro info
        rcases homeAgentRange with off | ⟨small, -⟩
        · rw [info] at off
          cases off
        · omega
    · exact absurd (by decide) accepts

/-- The checks are about the hardware address, the lifetimes and whether Mobile
IPv6 is on. -/
theorem Interface.Checked.of_same {iface other : Interface} (checked : iface.Checked)
    (sllao : other.sllao = iface.sllao) (header : other.raHeaderInfo = iface.raHeaderInfo)
    (mipv6 : other.mipv6 = iface.mipv6) : other.Checked := by
  constructor
  · rw [sllao]
    exact checked.hwaddr_le
  · rw [header]
    exact checked.lifetime_nonneg
  · rw [header]
    exact checked.lifetime_le
  · rw [mipv6]
    exact checked.homeAgent_nonneg
  · rw [mipv6]
    exact checked.homeAgent_le

/-! ## Interfaces of the daemon -/

/-- What the daemon can make of an interface of the configuration. -/
structure Derived (parsed iface : Interface) : Prop where
  config_eq : iface.config = parsed.config
  prefixes : List.Forall₂ SameConfig parsed.advPrefixList iface.advPrefixList
  lifetime_eq : 0 ≤ parsed.raHeaderInfo.advDefaultLifetime →
    iface.raHeaderInfo.advDefaultLifetime = parsed.raHeaderInfo.advDefaultLifetime
  homeAgent_eq : 0 ≤ parsed.mipv6.homeAgentLifetime →
    iface.mipv6.homeAgentLifetime = parsed.mipv6.homeAgentLifetime
  checked_of : iface.stateInfo.ready = true → iface.Checked

section

variable {parsed iface iface' : Interface} {allowed : SendEnv → Prop} {shutdown : Prop}

theorem derived_of_unready (unready : parsed.stateInfo.ready = false) : Derived parsed parsed :=
  ⟨rfl, List.forall₂_same.mpr fun entry _ => .refl entry, fun _ => rfl, fun _ => rfl,
    fun ready => absurd ready (by simp [unready])⟩

theorem Stable.and {first second : Interface → Prop} (one : Stable allowed shutdown first)
    (two : Stable allowed shutdown second) :
    Stable allowed shutdown fun iface => first iface ∧ second iface where
  setUp := fun done holds => ⟨one.setUp done holds.1, two.setUp done holds.2⟩
  aged := fun dest on sane holds => ⟨one.aged dest on sane holds.1, two.aged dest on sane holds.2⟩
  counted := fun dest holds => ⟨one.counted dest holds.1, two.counted dest holds.2⟩
  timed := fun times holds => ⟨one.timed times holds.1, two.timed times holds.2⟩
  touched := fun now holds => ⟨one.touched now holds.1, two.touched now holds.2⟩
  ceased := fun stops _ holds => ⟨one.ceased stops holds.1, two.ceased stops holds.2⟩
  reset := fun holds => ⟨one.reset holds.1, two.reset holds.2⟩

theorem advPrefixList_countRa (dest : Option In6Addr) :
    (countRa iface dest).advPrefixList = iface.advPrefixList := by
  unfold countRa
  split <;> rfl

/-- A relation between the prefixes of the configuration and those of the
interface that ageing and resetting a prefix keep. -/
theorem stable_prefixes {relation : AdvPrefix → AdvPrefix → Prop} (configured : List AdvPrefix)
    (aged : ∀ {configured entry} (ceaseAdv : Bool) {secs : Int}, 0 ≤ secs →
      relation configured entry → relation configured (ageEntry ceaseAdv secs entry))
    (reset : ∀ {configured entry}, relation configured entry →
      relation configured (resetEntry entry)) :
    Stable allowed shutdown fun iface =>
      List.Forall₂ relation configured iface.advPrefixList where
  setUp := by
    intro env iface iface' ret done related
    rw [(frame_setupIface done).prefixes_eq]
    exact related
  aged := by
    intro env iface dest _ _ related
    rw [advPrefixList_agedIface, List.forall₂_map_right_iff]
    exact related.imp fun _ _ => aged _ (secsSinceLastRa_nonneg _ _)
  counted := by
    intro iface dest related
    rw [advPrefixList_countRa]
    exact related
  timed := fun _ related => related
  touched := fun _ related => related
  ceased := fun _ _ related => related
  reset := by
    intro iface related
    simp only [resetPrefixLifetimes, List.forall₂_map_right_iff]
    exact related.imp fun _ _ => reset

theorem Remeasured.keeps (measured : Remeasured iface iface') :
    iface'.raHeaderInfo = iface.raHeaderInfo ∧ iface'.mipv6 = iface.mipv6 := by
  rw [measured.rest_eq]
  exact ⟨rfl, rfl⟩

/-- A set-up only fills in the lifetimes that are not set. -/
structure KeepsLifetimes (before after : Interface) : Prop where
  lifetime_eq : 0 ≤ before.raHeaderInfo.advDefaultLifetime →
    after.raHeaderInfo.advDefaultLifetime = before.raHeaderInfo.advDefaultLifetime
  homeAgent_eq : 0 ≤ before.mipv6.homeAgentLifetime →
    after.mipv6.homeAgentLifetime = before.mipv6.homeAgentLifetime

theorem Remeasured.keepsLifetimes (measured : Remeasured iface iface') :
    KeepsLifetimes iface iface' :=
  ⟨fun _ => by rw [measured.keeps.1], fun _ => by rw [measured.keeps.2]⟩

theorem keepsLifetimes_fillDefaults (iface : Interface) :
    KeepsLifetimes iface (fillDefaults iface) := by
  constructor
  · intro set
    rw [advDefaultLifetime_fillDefaults, if_neg (by omega)]
  · intro set
    rw [homeAgentLifetime_fillDefaults, if_neg (by omega)]

theorem KeepsLifetimes.trans {first second third : Interface} (one : KeepsLifetimes first second)
    (two : KeepsLifetimes second third) : KeepsLifetimes first third := by
  constructor
  · intro set
    have same := one.lifetime_eq set
    rw [← same] at set ⊢
    exact two.lifetime_eq set
  · intro set
    have same := one.homeAgent_eq set
    rw [← same] at set ⊢
    exact two.homeAgent_eq set

theorem keepsLifetimes_setupIface {env : SetupEnv} {ret : Int}
    (done : setupIface env iface = .ok (iface', ret)) :
    KeepsLifetimes iface iface' ∧ (iface'.stateInfo.ready = true → iface'.Checked) := by
  have started : KeepsLifetimes iface iface.unready := ⟨fun _ => rfl, fun _ => rfl⟩
  have setUp := setupIface_setUp done
  cases setupIface_cases done with
  | device failed measured =>
      refine ⟨started.trans measured.keepsLifetimes, fun ready => ?_⟩
      rw [setUp.stateInfo_eq] at ready
      exact absurd (of_decide_eq_true ready) failed.ne
  | checked measured failed filled =>
      refine ⟨started.trans (measured.keepsLifetimes.trans
        ((keepsLifetimes_fillDefaults _).trans filled.keepsLifetimes)), fun ready => ?_⟩
      rw [setUp.stateInfo_eq] at ready
      exact absurd (of_decide_eq_true ready) failed.ne
  | @ready known _ measured hwaddr check accepts =>
      have addrs := @remeasured_setupIfaceAddrs env (fillDefaults known)
      have kept := started.trans (measured.keepsLifetimes.trans
        ((keepsLifetimes_fillDefaults known).trans addrs.keepsLifetimes))
      have checked := checked_of_checkIface check accepts hwaddr
      have sllao : (setupIfaceAddrs env (fillDefaults known)).1.sllao =
          (fillDefaults known).sllao := by
        unfold setupIfaceAddrs
        dsimp only
        split <;> rfl
      exact ⟨⟨kept.lifetime_eq, kept.homeAgent_eq⟩,
        fun _ => checked.of_same sllao addrs.keeps.1 addrs.keeps.2⟩

theorem stable_derived (parsed : Interface) : Stable allowed shutdown (Derived parsed) := by
  have prefixes := @stable_prefixes allowed shutdown SameConfig parsed.advPrefixList
    (fun ceaseAdv _ _ same => same.trans (sameConfig_ageEntry ceaseAdv _ _))
    (fun same => same.trans (sameConfig_resetEntry _))
  constructor
  case setUp =>
    intro env iface iface' ret done derived
    have kept := keepsLifetimes_setupIface done
    refine ⟨(setupIface_setUp done).config_eq.trans derived.config_eq,
      prefixes.setUp done derived.prefixes, ?_, ?_, kept.2⟩
    · intro set
      have same := derived.lifetime_eq set
      rw [← same] at set ⊢
      exact kept.1.lifetime_eq set
    · intro set
      have same := derived.homeAgent_eq set
      rw [← same] at set ⊢
      exact kept.1.homeAgent_eq set
  case aged =>
    intro env iface dest on sane derived
    refine ⟨(config_of_settled (settled_agedIface env)).trans derived.config_eq,
      prefixes.aged dest on sane derived.prefixes, ?_, ?_, ?_⟩
    · cases dest <;> exact derived.lifetime_eq
    · cases dest <;> exact derived.homeAgent_eq
    · cases dest
      all_goals
        intro ready
        exact (derived.checked_of ready).of_same rfl rfl rfl
  case counted =>
    intro iface dest derived
    refine ⟨(config_of_settled settled_countRa).trans derived.config_eq,
      prefixes.counted dest derived.prefixes, ?_, ?_, ?_⟩
    all_goals
      unfold countRa
      split
    · exact derived.lifetime_eq
    · exact derived.lifetime_eq
    · exact derived.homeAgent_eq
    · exact derived.homeAgent_eq
    · intro ready
      exact (derived.checked_of ready).of_same rfl rfl rfl
    · exact derived.checked_of
  case timed =>
    intro iface times derived
    refine ⟨derived.config_eq, derived.prefixes, derived.lifetime_eq, derived.homeAgent_eq, ?_⟩
    intro ready
    exact (derived.checked_of ready).of_same rfl rfl rfl
  case touched =>
    intro iface now derived
    exact ⟨derived.config_eq, derived.prefixes, derived.lifetime_eq, derived.homeAgent_eq,
      fun ready => (by cases ready)⟩
  case ceased =>
    intro _ iface derived
    refine ⟨derived.config_eq, derived.prefixes, derived.lifetime_eq, derived.homeAgent_eq, ?_⟩
    intro ready
    exact (derived.checked_of ready).of_same rfl rfl rfl
  case reset =>
    intro iface derived
    refine ⟨derived.config_eq, prefixes.reset derived.prefixes, derived.lifetime_eq,
      derived.homeAgent_eq, ?_⟩
    intro ready
    exact (derived.checked_of ready).of_same rfl rfl rfl

/-- What is part of the configuration is the same. -/
theorem Derived.same {α : Type} (derived : Derived parsed iface) (view : Interface → α)
    (kept : ∀ iface : Interface, view iface.config = view iface) : view iface = view parsed := by
  rw [← kept iface, derived.config_eq, kept parsed]

/-- The messages of an interface that is ready are well formed if the parser left
it so. -/
theorem Derived.parsed_of_ready (derived : Derived parsed iface) (wellFormed : parsed.Parsed)
    (ready : iface.stateInfo.ready = true) : iface.Parsed := by
  constructor
  · rw [derived.same Interface.advRouteList fun _ => rfl]
    exact wellFormed.route_prefixLen
  · rw [derived.same Interface.advDNSSLList fun _ => rfl]
    exact wellFormed.dnssl_parsed
  · exact (derived.checked_of ready).hwaddr_le
  · rw [derived.same Interface.advCaptivePortalAPI fun _ => rfl]
    exact wellFormed.capport_length

end

end Radvd
