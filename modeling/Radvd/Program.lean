import Radvd.Grammar.Files
import Radvd.Grammar.Written
import Radvd.MainLoop
import Radvd.Transmitted

/-!
# From the configuration file to the messages

`radvd` as a transition system over the octets of its configuration file, which is
read at the start and at every SIGHUP. The iterations of the main loop are runs of
this system (`run_of_iterates`).

Everything that is ever sent comes from the file that was read last: the message
belongs to a definition of the file that switches advertising on, and every option
in it is that of an entry or of a setting of this definition (`sent_from_file`).
-/

namespace Radvd

open Wire Runs Grammar

/-! ## The program -/

/-- The daemon, and what the file held when it was read. -/
structure Program where
  conf : Bytes
  daemon : Daemon

inductive ProgramEvent where
  | lives (event : LifeEvent)
  /-- SIGHUP, with what the file holds now. -/
  | reload (conf : Bytes)

namespace Program

/-- `readin_config` for a daemon that has checked the forwarding before. -/
def load (conf : Bytes) (warned : Bool) : Option Program :=
  (readinFile conf).map fun ifaces => ⟨conf, ifaces, warned⟩

/-- What an event makes of the program, if it does not end it; a file that is
refused does. -/
def next (program : Program) : ProgramEvent → Option Program
  | .lives event =>
      match (program.daemon.live event).exit with
      | none => some ⟨program.conf, (program.daemon.live event).daemon⟩
      | some _ => none
  | .reload conf => load conf program.daemon.warned

def Step (program : Program) (event : ProgramEvent) (after : Program) : Prop :=
  program.next event = some after

end Program

theorem Program.run_of_lives {daemon last : Daemon} {events : List LifeEvent} (conf : Bytes)
    (run : Run Daemon.Lives daemon events last) :
    Run Program.Step ⟨conf, daemon⟩ (events.map .lives) ⟨conf, last⟩ := by
  induction run with
  | nil daemon => exact .nil _
  | cons first _ ih =>
      rcases first with ⟨survives, rfl⟩
      refine .cons ?_ ih
      rw [Program.Step, Program.next, survives]

/-! ## Iterations of the main loop -/

/-- The event of the program for one of the main loop, while the file holds `conf`. -/
def LoopEvent.ofConf (conf : Bytes) : LoopEvent → ProgramEvent
  | .daemon event => .lives (.handles event)
  | .reload _ => .reload conf
  | .reset => .lives .sigusr1

/-- The interfaces that the main loop reads are those of the file. -/
def LoopEvent.ReadsFrom (conf : Bytes) : LoopEvent → Prop
  | .reload ifaces => readinFile conf = some ifaces
  | _ => True

theorem step_of_becomes {program : Program} {conf : Bytes} {state after : LoopState}
    {event : LoopEvent} (becomes : state.Becomes event after) (reads : event.ReadsFrom conf)
    (same : program.daemon = state.daemon) :
    ∃ later, program.Step (event.ofConf conf) later ∧ later.daemon = after.daemon := by
  cases event with
  | daemon event =>
      rcases becomes with ⟨alive, becomes⟩
      refine ⟨⟨program.conf, after.daemon⟩, ?_, rfl⟩
      rw [Program.Step, LoopEvent.ofConf, Program.next, same, Daemon.live, alive, becomes]
  | reload ifaces =>
      rw [LoopEvent.ReadsFrom] at reads
      refine ⟨⟨conf, ifaces, state.daemon.warned⟩, ?_, becomes.2.symm⟩
      rw [Program.Step, LoopEvent.ofConf, Program.next, same, Program.load, reads]
      rfl
  | reset =>
      refine ⟨⟨program.conf, after.daemon⟩, ?_, rfl⟩
      rw [LoopState.Becomes] at becomes
      rw [Program.Step, LoopEvent.ofConf, Program.next, same, becomes]
      rfl

theorem run_of_iterates {program : Program} {conf : Bytes} {state after : LoopState}
    {env : IterationEnv} (iterates : state.Iterates env after)
    (reads : ∀ event ∈ env.events state.daemon.ifaces, event.ReadsFrom conf)
    (same : program.daemon = state.daemon) :
    ∃ later, Run Program.Step program
        ((env.events state.daemon.ifaces).map (LoopEvent.ofConf conf)) later ∧
      later.daemon = after.daemon := by
  unfold LoopState.Iterates at iterates
  generalize env.events state.daemon.ifaces = events at iterates reads
  induction iterates generalizing program with
  | nil => exact ⟨program, .nil program, same⟩
  | cons first _ ih =>
      rw [List.forall_mem_cons] at reads
      rcases step_of_becomes first.becomes reads.1 same with ⟨middle, step, sameMiddle⟩
      rcases ih sameMiddle reads.2 with ⟨later, run, sameLater⟩
      exact ⟨later, .cons step run, sameLater⟩

/-! ## Options and their definitions -/

/-- Where an option comes from: an entry of a list of the definition, in the form that
it has now, or a setting. -/
inductive Attributed (params : List Ifaceparam) (parsed : Interface) (order : ByteOrder)
    (kernel : Kernel) (iface : Interface) (option : Bytes) : Prop where
  | prefixInfo {definition : PrefixDef} {entry current advertised : AdvPrefix}
      (listed : definition ∈ prefixdefs params) (read : prefixdef definition = .ok entry)
      (same : SameConfig entry current)
      (advertises : advertised ∈ advertisedPrefixes kernel iface current)
      (encodes : option = prefixBlock advertised iface.stateInfo.ceaseAdv)
  | nat64 {definition : Nat64prefixDef} {start : Interface} {entry : NAT64Prefix}
      (listed : definition ∈ nat64prefixdefs params)
      (read : nat64prefixdef start definition = .ok entry)
      (encodes : option = nat64prefixBlock entry)
  | route {definition : RouteDef} {start : Interface} {entry : AdvRoute}
      (listed : definition ∈ routedefs params) (read : routedef start definition = .ok entry)
      (encodes : option = routeBlock entry iface.stateInfo.ceaseAdv)
  | rdnss {definition : RdnssDef} {start : Interface} {entry : AdvRDNSS}
      (listed : definition ∈ rdnssdefs params) (read : rdnssdef start definition = .ok entry)
      (encodes : option = rdnssBlock entry iface.stateInfo.ceaseAdv)
  | dnssl {definition : DnsslDef} {start : Interface} {entry : AdvDNSSL}
      (listed : definition ∈ dnssldefs params) (read : dnssldef start definition = .ok entry)
      (encodes : option = dnsslBlock entry iface.stateInfo.ceaseAdv)
  | lowpanco {definition : LowpancoDef} {entry : AdvLowpanCo}
      (listed : definition ∈ lowpancodefs params) (read : lowpancodef definition = .ok entry)
      (encodes : option = lowpancoBlock entry)
  | abro {definition : AbroDef} {entry : AdvAbro}
      (listed : definition ∈ abrodefs params) (read : abrodef definition = .ok entry)
      (encodes : option = abroBlock entry)
  | mtu (set : parsed.advLinkMTU ≠ 0) (encodes : option = mtuBlock parsed.advLinkMTU)
  | sllao (set : parsed.advSourceLLAddress = true) (encodes : option = sllaoBlock iface.sllao)
  | interval (set : parsed.mipv6.advIntervalOpt = true)
      (encodes : option = rtrAdvIntervalBlock parsed.maxRtrAdvInterval)
  | homeAgent (set : parsed.mipv6.advHomeAgentInfo = true)
      (encodes : option = homeAgentInfoBlock order iface.mipv6)
  | portal {url : Bytes} (set : parsed.advCaptivePortalAPI = some url)
      (encodes : option = capportBlock url)

section

variable {definition : Ifacedef} {parsed iface : Interface} {order : ByteOrder} {kernel : Kernel}
  {option : Bytes}

theorem attributed_of_mem_listBlocks (gives : definition.Gives parsed)
    (derived : Derived parsed iface) (member : option ∈ listBlocks kernel iface) :
    Attributed definition.params parsed order kernel iface option := by
  have defined := gives.defined
  have nat64s := derived.same Interface.nat64PrefixList fun _ => rfl
  have routes := derived.same Interface.advRouteList fun _ => rfl
  have resolvers := derived.same Interface.advRDNSSList fun _ => rfl
  have searches := derived.same Interface.advDNSSLList fun _ => rfl
  simp only [listBlocks, prefixBlocks, rdnssBlocks, dnsslBlocks, List.mem_append, List.mem_map,
    List.mem_flatMap, List.mem_filter, nat64s, routes, resolvers, searches] at member
  rcases member with ⟨advertised, ⟨current, inList, advertises⟩, rfl⟩ | ⟨entry, inList, rfl⟩ |
    ⟨entry, inList, rfl⟩ | ⟨entry, ⟨inList, -⟩, rfl⟩ | ⟨entry, ⟨inList, -⟩, rfl⟩
  · rcases forall₂_mem_right derived.prefixes inList with ⟨entry, inParsed, same⟩
    rcases forall₂_mem_right defined.prefixes inParsed with ⟨definition, listed, read⟩
    exact .prefixInfo listed read same advertises rfl
  · rcases forall₂_mem_right defined.nat64prefixes inList with ⟨definition, listed, _, read⟩
    exact .nat64 listed read rfl
  · rcases forall₂_mem_right defined.routes inList with ⟨definition, listed, _, read⟩
    exact .route listed read rfl
  · rcases forall₂_mem_right defined.rdnss inList with ⟨definition, listed, _, read⟩
    exact .rdnss listed read rfl
  · rcases forall₂_mem_right defined.dnssl inList with ⟨definition, listed, _, read⟩
    exact .dnssl listed read rfl

theorem attributed_of_mem_tailBlocks (gives : definition.Gives parsed)
    (derived : Derived parsed iface) (member : option ∈ tailBlocks order iface) :
    Attributed definition.params parsed order kernel iface option := by
  have defined := gives.defined
  have mtu := derived.same Interface.advLinkMTU fun _ => rfl
  have source := derived.same Interface.advSourceLLAddress fun _ => rfl
  have interval := derived.same (fun iface => iface.mipv6.advIntervalOpt) fun _ => rfl
  have max := derived.same Interface.maxRtrAdvInterval fun _ => rfl
  have homeAgent := derived.same (fun iface => iface.mipv6.advHomeAgentInfo) fun _ => rfl
  have contexts := derived.same Interface.advLowpanCoList fun _ => rfl
  have routers := derived.same Interface.advAbroList fun _ => rfl
  have portal := derived.same Interface.advCaptivePortalAPI fun _ => rfl
  simp only [tailBlocks, List.mem_append, Option.mem_toList, Option.map_eq_some_iff, mtu, source,
    interval, max, contexts, routers, portal] at member
  rcases member with inMtu | inSource | inInterval | inHomeAgent | ⟨entry, head, rfl⟩ |
    ⟨entry, head, rfl⟩ | ⟨url, set, rfl⟩
  · split at inMtu
    · rename_i set
      exact .mtu set (List.mem_singleton.mp inMtu)
    · cases inMtu
  · split at inSource
    · rename_i set
      rw [Bool.and_eq_true] at set
      exact .sllao set.1 (List.mem_singleton.mp inSource)
    · cases inSource
  · split at inInterval
    · rename_i set
      exact .interval set (List.mem_singleton.mp inInterval)
    · cases inInterval
  · split at inHomeAgent
    · rename_i sends
      rw [sendsHomeAgentInfo, homeAgent, Bool.and_eq_true] at sends
      exact .homeAgent sends.1 (List.mem_singleton.mp inHomeAgent)
    · cases inHomeAgent
  · rcases forall₂_mem_right defined.lowpanco (List.mem_of_head? head) with
      ⟨definition, listed, read⟩
    exact .lowpanco listed read rfl
  · rcases forall₂_mem_right defined.abro (List.mem_of_head? head) with ⟨definition, listed, read⟩
    exact .abro listed read rfl
  · exact .portal set rfl

theorem param_of_kind {param : Ifaceparam} (isSwitch : param.kind = .advSendAdvert) :
    ∃ value, param = .ifaceval (.advSendAdvert value) := by
  cases param with
  | ifaceval value =>
      cases value <;> first | exact ⟨_, rfl⟩ | cases isSwitch
  | _ => cases isSwitch

/-- An interface advertises if the last switch for it says so. -/
theorem inEffect_of_advSendAdvert (gives : definition.Gives parsed)
    (on : parsed.advSendAdvert = true) : InEffect definition.params (.advSendAdvert true) := by
  rcases gives with ⟨others, start, head, params⟩
  have changed : cell parsed .advSendAdvert ≠ cell start .advSendAdvert := by
    rw [ifacehead_eq_ok head]
    change parsed.advSendAdvert ≠ false
    rw [on]
    decide
  rcases exists_lastOf_of_changed changed params with ⟨param, isSwitch, effective⟩
  rcases param_of_kind isSwitch with ⟨value, rfl⟩
  have set : parsed.advSendAdvert = value := by
    apply inEffect_of_ifaceparams (fun before after same => same.trans) _ params effective
    intro before after read
    cases read
    rfl
  rw [on] at set
  rw [set]
  exact effective

end

/-! ## Messages and their definitions -/

/-- The message is one of the interface that the definition gives: the definition
switches advertising on, and every option comes from it. -/
def FromDefinition (definition : Ifacedef) (parsed : Interface) (message : Bytes) : Prop :=
  InEffect definition.params (.advSendAdvert true) ∧
    ∃ order kernel iface ceaseAdv, Derived parsed iface ∧
      message = raHeaderBlock iface.raHeaderInfo ceaseAdv ++ (raOptions message).flatten ∧
      ∀ option ∈ raOptions message,
        Attributed definition.params parsed order kernel iface option

theorem fromDefinition_of_sent {definition : Ifacedef} {parsed iface : Interface} {env : SendEnv}
    {warned : Bool} {dest : Option In6Addr} {message : Bytes} (gives : definition.Gives parsed)
    (derived : Derived parsed iface) (ready : iface.stateInfo.ready = true)
    (sent : message ∈ (sendRa env warned iface dest).sent) :
    FromDefinition definition parsed message := by
  have on := advertises_of_mem_sent sent
  have aged : Derived parsed (agedIface env iface dest) :=
    (@stable_derived (fun _ => True) True parsed).aged dest on trivial derived
  have carries := carries_of_mem_sent (derived.parsed_of_ready gives.parsed ready) sent
  rw [derived.same Interface.advSendAdvert fun _ => rfl] at on
  refine ⟨inEffect_of_advSendAdvert gives on, env.order, env.kernel, _, ceases env warned iface,
    aged, ?_, ?_⟩
  · rw [raHeaderInfo_agedIface]
    exact carries.message_eq
  · intro option member
    have inAll := carries.options_infix.subset member
    rw [allOptions, List.mem_append] at inAll
    rcases inAll with inLists | inTail
    · exact attributed_of_mem_listBlocks gives aged inLists
    · exact attributed_of_mem_tailBlocks gives aged inTail

/-! ## Runs -/

/-- The daemon has the interfaces of the file that was read last. -/
def Program.OfConf (program : Program) : Prop :=
  ∃ ifaces, readinFile program.conf = some ifaces ∧
    program.daemon.Has (Configured ifaces Derived)

section

variable {program start last : Program} {events : List ProgramEvent} {conf : Bytes}
  {warned : Bool}

theorem ofConf_of_load (loaded : Program.load conf warned = some program) : program.OfConf := by
  rw [Program.load, Option.map_eq_some_iff] at loaded
  rcases loaded with ⟨ifaces, read, rfl⟩
  refine ⟨ifaces, read, ?_⟩
  intro position parsed found
  rcases exists_of_readinFile read with ⟨_, _, _, -, -, accepted⟩
  rcases gives_of_readinConfig accepted (List.mem_of_getElem? found) with ⟨_, -, gives⟩
  exact ⟨parsed, found, derived_of_gives gives⟩

theorem within_of_any (event : LifeEvent) : event.Within (fun _ => True) True := by
  cases event with
  | handles event => cases event <;> simp [LifeEvent.Within]
  | sigusr1 => trivial

theorem ofConf_of_step {event : ProgramEvent} {next : Program}
    (step : program.Step event next) (ofConf : program.OfConf) : next.OfConf := by
  rw [Program.Step] at step
  cases event with
  | lives event =>
      rw [Program.next] at step
      split at step
      · cases step
        rcases ofConf with ⟨ifaces, read, has⟩
        exact ⟨ifaces, read, has_live (stable_configured fun parsed _ => stable_derived parsed)
          (within_of_any event) has⟩
      · cases step
  | reload conf => exact ofConf_of_load step

/-- Whatever was read before, a message is that of a definition of the file that was
read last. -/
theorem sent_from_file (loaded : Program.load conf warned = some start)
    (run : Run Program.Step start events last) {event : LifeEvent} :
    ∀ sent ∈ (last.daemon.live event).sent, ∀ message ∈ sent.messages,
      ∃ tokens first rest ifaces definition parsed, Laid tokens last.conf ∧
        Yields first rest tokens ∧ readinConfig first rest = .ok ifaces ∧
        ifaces[sent.position]? = some parsed ∧ definition ∈ first :: rest ∧
        definition.Gives parsed ∧ FromDefinition definition parsed message := by
  have ofConf : last.OfConf :=
    run.invariant (fun _ _ _ => ofConf_of_step) (ofConf_of_load loaded)
  rcases ofConf with ⟨ifaces, read, has⟩
  intro sent listed message member
  rcases sentBy_live (stable_configured fun parsed _ => stable_derived parsed)
    (within_of_any event) has sent listed message member with
    ⟨env, warned, iface, dest, -, ⟨parsed, found, derived⟩, ready, transmitted⟩
  rcases exists_of_readinFile read with ⟨tokens, first, rest, laid, yields, accepted⟩
  rcases gives_of_readinConfig accepted (List.mem_of_getElem? found) with
    ⟨definition, defined, gives⟩
  exact ⟨tokens, first, rest, ifaces, definition, parsed, laid, yields, accepted, found, defined,
    gives, fromDefinition_of_sent gives derived ready transmitted⟩

end

/-- The bridge of the example, with an address. -/
def SetupEnv.bridge : SetupEnv :=
  { SetupEnv.ethernet with
    getifaddrs := some [⟨exampleName.ifname, some (.inet6 linkLocalAddr In6Addr.unspecified)⟩] }

def bridgeKickoff (now : Timespec) : LifeEvent :=
  .handles (.start 0 .bridge ⟨now, now, .bridge, fun _ => routerEnv now, now⟩)

/-- What the file held before: the same interface with an MTU and without a prefix. -/
def earlierTree : Ifacedef where
  name := exampleName
  params := [.ifaceval (.advSendAdvert true), .ifaceval (.advLinkMTU ⟨1, [5, 0, 0]⟩)]

def earlierTokens : List Token :=
  [.word .tInterface, .str exampleName, .opening, .word .tAdvSendAdvert, .switch true, .semicolon,
    .word .tAdvLinkMTU, .num ⟨1, [5, 0, 0]⟩, .semicolon, .closing, .semicolon]

theorem earlierTokens_yields : Yields earlierTree [] earlierTokens := by
  refine ⟨[earlierTokens], .cons ?_ .nil, rfl⟩
  refine ⟨[[.word .tAdvSendAdvert, .switch true, .semicolon],
    [.word .tAdvLinkMTU, .num ⟨1, [5, 0, 0]⟩, .semicolon]], ?_, rfl⟩
  exact .cons ⟨_, rfl, rfl⟩ (.cons ⟨_, rfl, rfl⟩ .nil)

theorem earlierTokens_writable : ∀ token ∈ earlierTokens, token.Writable := by
  simp only [earlierTokens, exampleName, List.forall_mem_cons, Token.Writable]
  exact ⟨trivial, ⟨unnamed_brLan, by decide⟩, trivial, trivial, trivial, trivial, trivial,
    by decide, trivial, trivial, trivial, by simp⟩

theorem load_written {tokens : List Token} {first : Ifacedef} {rest : List Ifacedef}
    {ifaces : List Interface} (writable : ∀ token ∈ tokens, token.Writable)
    (yields : Yields first rest tokens) (accepted : readinConfig first rest = .ok ifaces)
    (warned : Bool) :
    Program.load (written tokens) warned = some ⟨written tokens, ifaces, warned⟩ := by
  rw [Program.load, readinFile_of_laid (laid_written writable) yields, accepted]
  rfl

/-- The file is another one at SIGHUP, after the first RAs. -/
theorem sent_from_file_bridge :
    ∃ start last sent message parsed, Program.load (written earlierTokens) false = some start ∧
      Run Program.Step start [.lives (bridgeKickoff ⟨100, 0⟩), .reload (written exampleTokens),
        .lives (bridgeKickoff ⟨110, 0⟩)] last ∧
      sent ∈ (last.daemon.live (bridgeKickoff ⟨130, 0⟩)).sent ∧ message ∈ sent.messages ∧
      exampleTree.Gives parsed ∧ FromDefinition exampleTree parsed message := by
  have before : (reached earlierTree [bridgeKickoff ⟨100, 0⟩]).map (fun seen => seen.2.warned) =
      some false := by
    with_unfolding_all decide
  rcases exists_reached before with ⟨earlier, running, earlierAccepted, earlierLived, quiet⟩
  have found : (reached exampleTree [bridgeKickoff ⟨110, 0⟩]).map (fun seen =>
      (seen.2.live (bridgeKickoff ⟨130, 0⟩)).sent.map fun sent => sent.messages.length) =
        some [1] := by
    with_unfolding_all decide
  rcases exists_reached found with ⟨ifaces, daemon, accepted, lived, seen⟩
  rcases List.map_eq_singleton_iff.mp seen with ⟨sent, sents, length⟩
  rcases List.length_eq_one_iff.mp length with ⟨message, single⟩
  have laid := laid_written exampleTokens_writable
  have loaded := load_written earlierTokens_writable earlierTokens_yields earlierAccepted false
  have reloads : Program.Step ⟨written earlierTokens, running⟩ (.reload (written exampleTokens))
      ⟨written exampleTokens, ifaces, false⟩ := by
    rw [Program.Step, Program.next, quiet]
    exact load_written exampleTokens_writable exampleTokens_yields accepted false
  have run := (Program.run_of_lives (written earlierTokens) earlierLived).append
    (.cons reloads (Program.run_of_lives (written exampleTokens) lived))
  have listed : sent ∈ (daemon.live (bridgeKickoff ⟨130, 0⟩)).sent := by
    rw [sents]
    exact List.mem_singleton_self sent
  have member : message ∈ sent.messages := by
    rw [single]
    exact List.mem_singleton_self message
  rcases sent_from_file loaded run sent listed message member with
    ⟨tokens, first, rest, _, definition, parsed, laidLast, yields, -, -, defined, gives, own⟩
  have scanned : tokens = exampleTokens := (yylex_of_laid laidLast).symm.trans (yylex_of_laid laid)
  -- the file has only this tree
  have tree := yyparse_eq_some_iff.mpr yields
  rw [scanned, yyparse_eq_some_iff.mpr exampleTokens_yields] at tree
  cases tree
  rw [List.mem_singleton] at defined
  subst defined
  exact ⟨_, _, sent, message, parsed, loaded, run, listed, member, gives, own⟩

end Radvd
