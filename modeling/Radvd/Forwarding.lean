import Radvd.Daemon

/-!
# Router lifetime and forwarding

Whether the RAs of a router that does not forward packets carry a router
lifetime of zero. The decision goes through `check_ip6_forwarding`, which only
reports the first value it finds wrong: its static variable `warned` is set by
the first such reading, which may be the one at start-up, and suppresses all
later ones (`warned_iff`).
-/

namespace Radvd

open Wire Runs Packing

def routerLifetime (message : Bytes) : Nat :=
  (message.getD 6 0).toNat * 256 + (message.getD 7 0).toNat

theorem routerLifetime_message (info : RaHeaderInfo) (ceaseAdv : Bool) (run : List Bytes) :
    routerLifetime (message (raHeaderBlock info ceaseAdv) run) =
      (if ceaseAdv then 0 else UInt16.ofInt info.advDefaultLifetime).toNat := by
  have octets : ∀ value : UInt16,
      (UInt8.ofNat (value.toNat / 2 ^ 8)).toNat * 256 + (UInt8.ofNat value.toNat).toNat =
        value.toNat := by
    intro value
    have := value.toNat_lt
    rw [UInt8.toNat_ofNat', UInt8.toNat_ofNat']
    omega
  exact octets _

/-! ## One RA -/

def ceases (env : SendEnv) (warned : Bool) (iface : Interface) : Bool :=
  iface.stateInfo.ceaseAdv || (env.forwarding.isDisabled && !warned)

def raFindsDisabled (env : SendEnv) (iface : Interface) : Bool :=
  iface.advSendAdvert && !iface.stateInfo.ceaseAdv && env.forwarding.isDisabled

theorem checkIp6Forwarding_ok {read : ForwardingRead} {warned result warned' : Bool}
    (done : checkIp6Forwarding read warned = .ok (result, warned')) :
    result = (read.isDisabled && !warned) ∧ warned' = (warned || read.isDisabled) := by
  cases read with
  | garbage => cases done
  | unavailable =>
      cases done
      simp [ForwardingRead.isDisabled]
  | value setting =>
      simp only [checkIp6Forwarding] at done
      simp only [ForwardingRead.isDisabled]
      split at done
      · rename_i found
        cases done
        simp at found ⊢
        exact ⟨⟨⟨found.1.2, found.2⟩, found.1.1⟩, .inr ⟨found.1.2, found.2⟩⟩
      · rename_i notFound
        cases done
        simp at notFound ⊢
        cases warned <;> simp_all

@[simp]
theorem ceaseAdv_agedIface (env : SendEnv) (iface : Interface) (dest : Option In6Addr) :
    (agedIface env iface dest).stateInfo = iface.stateInfo := by
  cases dest <;> rfl

@[simp]
theorem raHeaderInfo_agedIface (env : SendEnv) (iface : Interface) (dest : Option In6Addr) :
    (agedIface env iface dest).raHeaderInfo = iface.raHeaderInfo := by
  cases dest <;> rfl

theorem buildRa_ok {env : SendEnv} {warned warned' : Bool} {iface : Interface} {dest : In6Addr}
    {raHdr : Bytes} {raOpts : List Bytes}
    (built : buildRa env warned iface dest = .ok (warned', raHdr, raOpts)) :
    raHdr = raHeaderBlock iface.raHeaderInfo (ceases env warned iface) ∧
      warned' = (warned || (!iface.stateInfo.ceaseAdv && env.forwarding.isDisabled)) ∧
      ∃ sbl, buildRaOptions env.order env.kernel iface dest = .ok sbl ∧ raOpts = sbl.blocks := by
  have finish : ∀ ceaseAdv warned'', (do
      let raHdr ← addRaHeader SafeBuffer.new iface.raHeaderInfo ceaseAdv
      let raOpts ← buildRaOptions env.order env.kernel iface dest
      pure (warned'', raHdr.bytes, raOpts.blocks)) = Except.ok (warned', raHdr, raOpts) →
      raHdr = raHeaderBlock iface.raHeaderInfo ceaseAdv ∧ warned' = warned'' ∧
        ∃ sbl, buildRaOptions env.order env.kernel iface dest = .ok sbl ∧
          raOpts = sbl.blocks := by
    intro ceaseAdv warned'' done
    rcases addRaHeader_new iface.raHeaderInfo ceaseAdv with ⟨sb, sbEq, sbBytes⟩
    rcases options : buildRaOptions env.order env.kernel iface dest with exit | sbl
    · rw [sbEq, options] at done
      cases done
    · rw [sbEq, options] at done
      cases done
      exact ⟨sbBytes, rfl, sbl, rfl, rfl⟩
  rw [buildRa] at built
  by_cases ceasing : iface.stateInfo.ceaseAdv = true
  · rw [if_pos ceasing] at built
    simpa [ceases, ceasing] using finish true warned built
  · rw [if_neg ceasing] at built
    rcases check : checkIp6Forwarding env.forwarding warned with exit | ⟨result, after⟩
    · rw [check] at built
      cases built
    · rw [check] at built
      rcases checkIp6Forwarding_ok check with ⟨rfl, rfl⟩
      simpa [ceases, ceasing] using finish _ _ built

/-- Every message of an RA carries the same router lifetime. -/
theorem routerLifetime_of_mem_sent {env : SendEnv} {warned : Bool} {iface : Interface}
    {dest : Option In6Addr} {msg : Bytes} (sentMem : msg ∈ (sendRa env warned iface dest).sent) :
    routerLifetime msg = (if ceases env warned iface then 0
      else UInt16.ofInt iface.raHeaderInfo.advDefaultLifetime).toNat := by
  rw [sendRa] at sentMem
  split at sentMem
  · simp at sentMem
  dsimp only at sentMem
  rcases built : buildRa env warned (agedIface env iface dest) (dest.getD allHostsAddr) with
    exit | ⟨warned', raHdr, raOpts⟩
  · simp [built] at sentMem
  rcases buildRa_ok built with ⟨rfl, -, sbl, -, rfl⟩
  simp only [built, sendOptions_blocks] at sentMem
  rcases exists_run_of_mem_sendBins sentMem with ⟨run, -, rfl⟩
  rw [routerLifetime_message]
  simp [ceases]

theorem warned_sendRa {env : SendEnv} {warned : Bool} {iface : Interface}
    {dest : Option In6Addr}
    (survives : ∀ exit, (sendRa env warned iface dest).status ≠ .exited exit) :
    (sendRa env warned iface dest).warned = (warned || raFindsDisabled env iface) := by
  rw [sendRa] at survives ⊢
  by_cases advertises : iface.advSendAdvert = true
  · simp only [advertises, Bool.not_true, Bool.false_eq_true, if_false] at survives ⊢
    rcases built : buildRa env warned (agedIface env iface dest) (dest.getD allHostsAddr) with
      exit | ⟨warned', raHdr, raOpts⟩
    · simp [built] at survives
    · rcases buildRa_ok built with ⟨-, rfl, -⟩
      simp [raFindsDisabled, advertises]
  · simp [raFindsDisabled, advertises]

/-! ## Whole runs -/

/-- The calls of `check_ip6_forwarding`: directly, as `main` does at start-up, or
for an RA on any interface in any state. -/
inductive ForwardingEvent where
  | check (read : ForwardingRead)
  | ra (env : SendEnv) (iface : Interface) (dest : Option In6Addr)

def ForwardingEvent.findsDisabled : ForwardingEvent → Bool
  | .check read => read.isDisabled
  | .ra env iface _ => raFindsDisabled env iface

inductive ForwardingStep : Bool → ForwardingEvent → Bool → Prop where
  | check {read : ForwardingRead} {warned result warned' : Bool}
      (done : checkIp6Forwarding read warned = .ok (result, warned')) :
      ForwardingStep warned (.check read) warned'
  | ra {env : SendEnv} {iface : Interface} {dest : Option In6Addr} {warned : Bool}
      (survives : ∀ exit, (sendRa env warned iface dest).status ≠ .exited exit) :
      ForwardingStep warned (.ra env iface dest) (sendRa env warned iface dest).warned

theorem ForwardingStep.warned_eq {warned warned' : Bool} {event : ForwardingEvent}
    (step : ForwardingStep warned event warned') :
    warned' = (warned || event.findsDisabled) := by
  cases step with
  | check done => exact (checkIp6Forwarding_ok done).2
  | ra survives => exact warned_sendRa survives

/-- The static variable remembers whether any event found a wrong value. -/
theorem warned_iff {warned warned' : Bool} {events : List ForwardingEvent}
    (run : Run ForwardingStep warned events warned') :
    warned' = (warned || events.any ForwardingEvent.findsDisabled) := by
  induction run with
  | nil => simp
  | cons first _ ih => rw [ih, first.warned_eq, List.any_cons, Bool.or_assoc]

/-- In every run from start-up on, an RA that is transmitted while the value read
is neither 1 nor 2 has router lifetime zero in all its messages exactly if the
interface ceases advertising, its router lifetime is zero anyway, or no earlier
reading of the run was wrong. -/
theorem routerLifetime_zero_iff {start : ForwardingRead} {events : List ForwardingEvent}
    {warned : Bool} (run : Run ForwardingStep false (.check start :: events) warned)
    {env : SendEnv} {iface : Interface} {dest : Option In6Addr}
    (transmitted : (sendRa env warned iface dest).sent ≠ [])
    (disabled : env.forwarding.isDisabled = true) :
    (∀ msg ∈ (sendRa env warned iface dest).sent, routerLifetime msg = 0) ↔
      iface.stateInfo.ceaseAdv = true ∨
        UInt16.ofInt iface.raHeaderInfo.advDefaultLifetime = 0 ∨
        ∀ event ∈ ForwardingEvent.check start :: events, event.findsDisabled = false := by
  have lifetime : (∀ msg ∈ (sendRa env warned iface dest).sent, routerLifetime msg = 0) ↔
      (if ceases env warned iface then 0
        else UInt16.ofInt iface.raHeaderInfo.advDefaultLifetime).toNat = 0 := by
    rcases List.exists_mem_of_ne_nil _ transmitted with ⟨first, firstMem⟩
    constructor
    · intro zero
      rw [← routerLifetime_of_mem_sent firstMem, zero first firstMem]
    · intro zero msg msgMem
      rw [routerLifetime_of_mem_sent msgMem, zero]
  have quiet : (∀ event ∈ ForwardingEvent.check start :: events, event.findsDisabled = false) ↔
      warned = false := by
    rw [warned_iff run, Bool.false_or, List.any_eq_false]
    simp
  rw [lifetime, quiet, ceases, disabled]
  cases iface.stateInfo.ceaseAdv <;> cases warned <;>
    simp [← UInt16.toNat_inj]

/-! ## A router with forwarding switched off -/

theorem parsed_agedIface {iface : Interface} (parsed : iface.Parsed) (env : SendEnv)
    (dest : Option In6Addr) : (agedIface env iface dest).Parsed := by
  cases dest <;> exact ⟨parsed.route_prefixLen, parsed.dnssl_parsed, parsed.hwaddr_le,
    parsed.capport_length⟩

/-- With a message limit within 64 KiB an RA is transmitted if the first send
succeeds. -/
theorem sendRa_transmits {env : SendEnv} {warned result warned' : Bool} {iface : Interface}
    (dest : Option In6Addr) (advertises : iface.advSendAdvert = true) (parsed : iface.Parsed)
    (fits : iface.DnsslFits) (small : iface.props.maxRaOptionSize.toNat ≤ 64 * 1024)
    (read : checkIp6Forwarding env.forwarding warned = .ok (result, warned'))
    (succeeds : ∀ k, env.reallySend k = true) :
    (sendRa env warned iface dest).status = .done ∧ (sendRa env warned iface dest).sent ≠ [] := by
  have agedParsed := parsed_agedIface parsed env dest
  have agedFits : (agedIface env iface dest).DnsslFits := by
    cases dest <;> exact fits
  have agedSize : (agedIface env iface dest).props = iface.props := by
    cases dest <;> rfl
  rcases buildRaOptions_ok env.order env.kernel (dest.getD allHostsAddr) agedParsed agedFits with
    ⟨sbl, options, -⟩
  have built : ∃ warned' raHdr, buildRa env warned (agedIface env iface dest)
      (dest.getD allHostsAddr) = .ok (warned', raHdr, sbl.blocks) := by
    rw [buildRa, ceaseAdv_agedIface, raHeaderInfo_agedIface, read, options]
    by_cases ceasing : iface.stateInfo.ceaseAdv = true
    · rcases addRaHeader_new iface.raHeaderInfo true with ⟨sb, sbEq, -⟩
      exact ⟨warned, sb.bytes, by rw [if_pos ceasing]; simp only [pure_bind, sbEq]; rfl⟩
    · rcases addRaHeader_new iface.raHeaderInfo result with ⟨sb, sbEq, -⟩
      refine ⟨warned', sb.bytes, ?_⟩
      rw [if_neg ceasing]
      simp only [Bind.bind, Except.bind, sbEq]
      rfl
  rcases built with ⟨after, raHdr, built⟩
  rcases buildRa_ok built with ⟨rfl, -⟩
  have fitsBuffer : ∀ run ∈ pack List.length iface.props.maxRaOptionSize.toNat 16 sbl.blocks,
      (message (raHeaderBlock (agedIface env iface dest).raHeaderInfo
        (ceases env warned (agedIface env iface dest))) run).length ≤ 64 * 1024 := by
    intro run runMem
    rw [length_message]
    apply fitsBuffer_map_length.mp (fitsBuffer_of_le small _) run runMem
    simp only [List.forall_mem_map]
    intro block blockMem
    have := length_le_of_mem_blocks agedParsed options blockMem
    omega
  have sent := sendBins_done fitsBuffer fun k _ => succeeds (0 + k)
  simp only [sendRa, advertises, Bool.not_true, Bool.false_eq_true, if_false, built, agedSize,
    sendOptions_blocks, sent]
  refine ⟨trivial, ?_⟩
  rcases blocks : sbl.blocks with _ | ⟨head, tail⟩
  · exact absurd blocks (blocks_ne_nil sbl)
  · rw [pack_cons]
    simp

def defaultRouter : Interface :=
  { advertising 1 with
    raHeaderInfo := { (advertising 1).raHeaderInfo with advDefaultLifetime := 1800 }
    props := { (advertising 1).props with maxRaOptionSize := 1202 } }

def hostEnv : SendEnv where
  order := .littleEndian
  kernel := Kernel.silent
  multicastTime := ⟨0, 0⟩
  now := ⟨0, 0⟩
  forwarding := .value 0
  reallySend := fun _ => true

theorem parsed_defaultRouter : defaultRouter.Parsed :=
  ⟨(parsed_advertising 1).route_prefixLen, (parsed_advertising 1).dnssl_parsed,
    (parsed_advertising 1).hwaddr_le, (parsed_advertising 1).capport_length⟩

theorem defaultRouter_transmits (warned : Bool) :
    (sendRa hostEnv warned defaultRouter none).status = .done ∧
      (sendRa hostEnv warned defaultRouter none).sent ≠ [] := by
  cases warned <;>
    exact sendRa_transmits none rfl parsed_defaultRouter (dnsslFits_advertising 1) (by decide) rfl
      (fun _ => rfl)

theorem routerLifetime_zero_iff_defaultRouter :
    Run ForwardingStep false [.check (.value 1)] false ∧
      ((∀ msg ∈ (sendRa hostEnv false defaultRouter none).sent, routerLifetime msg = 0) ↔
        defaultRouter.stateInfo.ceaseAdv = true ∨
          UInt16.ofInt defaultRouter.raHeaderInfo.advDefaultLifetime = 0 ∨
          ∀ event ∈ [ForwardingEvent.check (.value 1)], event.findsDisabled = false) := by
  have run : Run ForwardingStep false [.check (.value 1)] false := .cons (.check rfl) (.nil false)
  exact ⟨run, routerLifetime_zero_iff run (defaultRouter_transmits false).2 rfl⟩

/-- With forwarding off from the start, the check of `main` finds it and the RAs
offer a default router. -/
theorem routerLifetime_defaultRouter :
    Run ForwardingStep false [.check (.value 0)] true ∧
      hostEnv.forwarding.isDisabled = true ∧
      ¬∀ msg ∈ (sendRa hostEnv true defaultRouter none).sent, routerLifetime msg = 0 := by
  refine ⟨.cons (.check rfl) (.nil true), rfl, ?_⟩
  intro zero
  rcases List.exists_mem_of_ne_nil _ (defaultRouter_transmits true).2 with ⟨first, firstMem⟩
  have lifetime := routerLifetime_of_mem_sent firstMem
  rw [zero first firstMem] at lifetime
  exact absurd lifetime (by decide)

end Radvd
