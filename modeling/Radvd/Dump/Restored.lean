import Radvd.Dump.Reread
import Radvd.Emission

/-!
# An interface from the output of `radvdump`

`radvdump` prints the settings of a message first and its definitions after them,
and the parser adds each definition to the end of a list. The lists of the
interface that is read differ from those of the interface that sent the message,
but their options do not (`buildRaOptions_onDevice`).
-/

namespace Radvd.Dump

open Wire Tlv Grammar

/-! ## Messages -/

section

variable {order : ByteOrder} {texts : Texts} {blocks others : List Bytes}
  {params : List (List Ifaceparam × List Ifaceparam)}

theorem exists_printed (shown : List.Forall₂ (ReadBack order texts) blocks params) :
    ∃ outs : List (List Statement × List Statement),
      List.Forall₂ (fun block out => Prints order block out.1 out.2) blocks outs ∧
        PrintedAs texts (outs.map Prod.fst).flatten (params.map Prod.fst).flatten ∧
        PrintedAs texts (outs.map Prod.snd).flatten (params.map Prod.snd).flatten := by
  induction shown with
  | nil => exact ⟨[], .nil, .nil, .nil⟩
  | cons here _ ih =>
      rcases here with ⟨settings, definitions, prints, printedSettings, printedDefinitions⟩
      rcases ih with ⟨outs, all, allSettings, allDefinitions⟩
      exact ⟨(settings, definitions) :: outs, .cons prints all, printedSettings.append allSettings,
        printedDefinitions.append allDefinitions⟩

/-- What is printed for a message is read as the tree of its options. -/
theorem readinFile_message {info : RaHeaderInfo} {mem : Memory} (valid : HeaderValid info)
    (named : PlainWord texts.ifName) (wellFormed : ∀ block ∈ blocks, WellFormed block)
    (filled : blocks ≠ []) (shown : List.Forall₂ (ReadBack order texts) blocks params)
    (stored : mem.Holds 0 (raHeaderBlock info false ++ blocks.flatten)) :
    readinFile (texts.printFf order mem (raHeaderBlock info false ++ blocks.flatten).length false) =
      (readinConfig (printedTree named ((headerTree info).map .ifaceval ++
        ((params.map Prod.fst).flatten ++ (params.map Prod.snd).flatten))) []).toOption := by
  rcases exists_printed shown with ⟨outs, prints, settings, definitions⟩
  have printed := printFf_of_holds valid wellFormed prints stored
  rw [if_neg filled] at printed
  rw [Texts.printFf, printed]
  have whole := (printedAs_header valid).append (settings.append definitions)
  have read := readinFile_printed named whole
  simpa using read

/-! ## Settings and definitions -/

/-- The options are shown as settings, and what these do to an interface. -/
def SettingsOf (order : ByteOrder) (texts : Texts) (blocks : List Bytes)
    (effect : Interface → Interface) : Prop :=
  ∃ params : List (List Ifaceparam),
    List.Forall₂ (ReadBack order texts) blocks (params.map fun settings => (settings, [])) ∧
      ∀ iface, ifaceparams iface params.flatten = .ok (effect iface)

/-- The options are shown as definitions, and what these do to an interface. -/
def DefinitionsOf (order : ByteOrder) (texts : Texts) (blocks : List Bytes)
    (effect : Interface → Interface) : Prop :=
  ∃ params : List Ifaceparam,
    List.Forall₂ (ReadBack order texts) blocks (params.map fun definition => ([], [definition])) ∧
      ∀ iface, ifaceparams iface params = .ok (effect iface)

variable {effect next : Interface → Interface}

theorem ifaceparams_append {iface middle : Interface} {first second : List Ifaceparam}
    (read : ifaceparams iface first = .ok middle) :
    ifaceparams iface (first ++ second) = ifaceparams middle second := by
  rw [ifaceparams, List.foldlM_append]
  change ifaceparams iface first >>= _ = _
  rw [read]
  rfl

theorem SettingsOf.append (first : SettingsOf order texts blocks effect)
    (second : SettingsOf order texts others next) :
    SettingsOf order texts (blocks ++ others) (next ∘ effect) := by
  rcases first with ⟨params, shown, read⟩
  rcases second with ⟨paramsOther, shownOther, readOther⟩
  refine ⟨params ++ paramsOther, ?_, ?_⟩
  · rw [List.map_append]
    exact List.rel_append shown shownOther
  · intro iface
    rw [List.flatten_append, ifaceparams_append (read iface)]
    exact readOther _

theorem DefinitionsOf.append (first : DefinitionsOf order texts blocks effect)
    (second : DefinitionsOf order texts others next) :
    DefinitionsOf order texts (blocks ++ others) (next ∘ effect) := by
  rcases first with ⟨params, shown, read⟩
  rcases second with ⟨paramsOther, shownOther, readOther⟩
  refine ⟨params ++ paramsOther, ?_, ?_⟩
  · rw [List.map_append]
    exact List.rel_append shown shownOther
  · intro iface
    rw [ifaceparams_append (read iface)]
    exact readOther _

theorem SettingsOf.nil : SettingsOf order texts [] id :=
  ⟨[], .nil, fun _ => rfl⟩

theorem SettingsOf.single {block : Bytes} {settings : List Ifaceparam}
    (shown : ReadBack order texts block (settings, []))
    (read : ∀ iface, ifaceparams iface settings = .ok (effect iface)) :
    SettingsOf order texts [block] effect := by
  refine ⟨[settings], .cons shown .nil, ?_⟩
  simpa using read

/-- An option that is only sent on a condition. -/
theorem SettingsOf.ite {condition : Prop} [Decidable condition] {block : Bytes}
    (sent : condition → SettingsOf order texts [block] effect) :
    SettingsOf order texts (if condition then [block] else [])
      (if condition then effect else id) := by
  split
  · rename_i holds
    exact sent holds
  · exact .nil

/-- The interface of a file before its statements are read. -/
def freshIface (name : StringText) : Interface :=
  { ifaceInitDefaults with props := { ifaceInitDefaults.props with name := name.ifname } }

theorem readinConfig_single {name : StringText} {params : List Ifaceparam} {iface : Interface}
    (read : ifaceparams (freshIface name) params = .ok iface) :
    readinConfig ⟨name, params⟩ [] = .ok [iface] := by
  have head : ifacehead [] name = .ok (freshIface name) := rfl
  have one : ifacedef [] ⟨name, params⟩ = .ok [iface] := by
    rw [ifacedef, head, ok_bind, read]
    rfl
  rw [readinConfig, List.foldlM_cons, one]
  rfl

theorem readinFile_parts {info : RaHeaderInfo} {mem : Memory} {lists tail : List Bytes}
    (valid : HeaderValid info) (named : PlainWord texts.ifName)
    (wellFormed : ∀ block ∈ lists ++ tail, WellFormed block) (filled : lists ++ tail ≠ [])
    (definitions : DefinitionsOf order texts lists effect)
    (settings : SettingsOf order texts tail next)
    (stored : mem.Holds 0 (raHeaderBlock info false ++ (lists ++ tail).flatten)) :
    readinFile (texts.printFf order mem
        (raHeaderBlock info false ++ (lists ++ tail).flatten).length false) =
      some [effect (next { freshIface (.word texts.ifName named.filled named.octets) with
        advSendAdvert := true
        raHeaderInfo := info })] := by
  rcases definitions with ⟨defined, shownDefined, readDefined⟩
  rcases settings with ⟨set, shownSet, readSet⟩
  have shown : List.Forall₂ (ReadBack order texts) (lists ++ tail)
      ((defined.map fun definition => ([], [definition])) ++
        set.map fun settings => (settings, [])) :=
    List.rel_append shownDefined shownSet
  have read := readinFile_message valid named wellFormed filled shown stored
  have firsts : (defined.map fun definition => (([], [definition]) :
      List Ifaceparam × List Ifaceparam)).flatMap Prod.fst = [] := by
    simp
  have seconds : (set.map fun settings => ((settings, []) :
      List Ifaceparam × List Ifaceparam)).flatMap Prod.snd = [] := by
    simp
  have firstsSet : (set.map fun settings => ((settings, []) :
      List Ifaceparam × List Ifaceparam)).flatMap Prod.fst = set.flatten := by
    simp [Function.comp_def, List.flatMap_def]
  have secondsDefined : (defined.map fun definition => (([], [definition]) :
      List Ifaceparam × List Ifaceparam)).flatMap Prod.snd = defined := by
    simp [List.flatMap_map]
  simp only [← List.flatMap_def, List.flatMap_append, firsts, seconds, firstsSet, secondsDefined,
    List.nil_append, List.append_nil] at read
  have turnedOn : ifaceparams (freshIface (.word texts.ifName named.filled named.octets))
      [.ifaceval (.advSendAdvert true)] = .ok { freshIface
        (.word texts.ifName named.filled named.octets) with advSendAdvert := true } := rfl
  have config : readinConfig (printedTree named ((headerTree info).map .ifaceval ++
      (set.flatten ++ defined))) [] = .ok [effect (next { freshIface
        (.word texts.ifName named.filled named.octets) with
          advSendAdvert := true
          raHeaderInfo := info })] := by
    apply readinConfig_single
    have inOrder := @ifaceparams_append _ _ _ ((headerTree info).map .ifaceval ++
      (set.flatten ++ defined)) turnedOn
    rw [ifaceparams_append (ifaceparams_header valid _), ifaceparams_append (readSet _),
      readDefined] at inOrder
    exact inOrder
  rw [read, config]
  rfl

end

/-! ## Lists of an interface -/

/-- The definitions that add to a list of the interface. -/
structure Definitions (δ α : Type) where
  param : δ → Ifaceparam
  parse : Interface → δ → Parsing α
  view : Interface → List α
  put : Interface → List α → Interface
  added : ∀ iface definition, ifaceparam iface (param definition) =
    parse iface definition >>= fun entry => pure (put iface (view iface ++ [entry]))
  view_put : ∀ iface list, view (put iface list) = list
  put_put : ∀ iface list other, put (put iface list) other = put iface other
  put_view : ∀ iface, put iface (view iface) = iface

namespace Definitions

def prefixes : Definitions PrefixDef AdvPrefix where
  param := .prefixdef
  parse := fun _ => prefixdef
  view := Interface.advPrefixList
  put := fun iface list => { iface with advPrefixList := list }
  added := fun _ _ => rfl
  view_put := fun _ _ => rfl
  put_put := fun _ _ _ => rfl
  put_view := fun _ => rfl

def nat64prefixes : Definitions Nat64prefixDef NAT64Prefix where
  param := .nat64prefixdef
  parse := nat64prefixdef
  view := Interface.nat64PrefixList
  put := fun iface list => { iface with nat64PrefixList := list }
  added := fun _ _ => rfl
  view_put := fun _ _ => rfl
  put_put := fun _ _ _ => rfl
  put_view := fun _ => rfl

def routes : Definitions RouteDef AdvRoute where
  param := .routedef
  parse := routedef
  view := Interface.advRouteList
  put := fun iface list => { iface with advRouteList := list }
  added := fun _ _ => rfl
  view_put := fun _ _ => rfl
  put_put := fun _ _ _ => rfl
  put_view := fun _ => rfl

def rdnss : Definitions RdnssDef AdvRDNSS where
  param := .rdnssdef
  parse := rdnssdef
  view := Interface.advRDNSSList
  put := fun iface list => { iface with advRDNSSList := list }
  added := fun _ _ => rfl
  view_put := fun _ _ => rfl
  put_put := fun _ _ _ => rfl
  put_view := fun _ => rfl

def dnssl : Definitions DnsslDef AdvDNSSL where
  param := .dnssldef
  parse := dnssldef
  view := Interface.advDNSSLList
  put := fun iface list => { iface with advDNSSLList := list }
  added := fun _ _ => rfl
  view_put := fun _ _ => rfl
  put_put := fun _ _ _ => rfl
  put_view := fun _ => rfl

variable {δ α : Type}

/-- The entries are added at the end of the list. -/
def add (kind : Definitions δ α) (entries : List α) (iface : Interface) : Interface :=
  kind.put iface (kind.view iface ++ entries)

theorem add_add (kind : Definitions δ α) (first second : List α) (iface : Interface) :
    kind.add second (kind.add first iface) = kind.add (first ++ second) iface := by
  rw [add, add, add, kind.view_put, kind.put_put, List.append_assoc]

theorem add_nil (kind : Definitions δ α) (iface : Interface) : kind.add [] iface = iface := by
  rw [add, List.append_nil, kind.put_view]

theorem ifaceparam_add (kind : Definitions δ α) {definition : δ} {entry : α} {iface : Interface}
    (parsed : kind.parse iface definition = .ok entry) :
    ifaceparam iface (kind.param definition) = .ok (kind.add [entry] iface) := by
  rw [kind.added, parsed, ok_bind]
  rfl

/-- The entries of a list, if each option is shown as a definition. -/
theorem definitionsOf (kind : Definitions δ α) {order : ByteOrder} {texts : Texts}
    {block : α → Bytes} {same : α → α → Prop} {entries : List α}
    (each : ∀ entry ∈ entries, ∃ definition reread,
      ReadBack order texts (block entry) ([], [kind.param definition]) ∧
        (∀ iface, kind.parse iface definition = .ok reread) ∧ same entry reread) :
    ∃ rereads, DefinitionsOf order texts (entries.map block) (kind.add rereads) ∧
      List.Forall₂ same entries rereads := by
  induction entries with
  | nil =>
      refine ⟨[], ⟨[], .nil, ?_⟩, .nil⟩
      intro iface
      rw [kind.add_nil]
      rfl
  | cons entry entries ih =>
      rw [List.forall_mem_cons] at each
      rcases each.1 with ⟨definition, reread, shown, parsed, alike⟩
      rcases ih each.2 with ⟨rereads, ⟨params, all, read⟩, alikes⟩
      refine ⟨reread :: rereads, ⟨kind.param definition :: params, .cons shown all, ?_⟩,
        .cons alike alikes⟩
      intro iface
      rw [ifaceparams, List.foldlM_cons, kind.ifaceparam_add (parsed iface), ok_bind]
      change ifaceparams _ params = _
      rw [read, add_add]
      rfl

end Definitions

/-! ## Interfaces -/

/-- What an interface must be like for its message to be read again. The message
does not say that the source link-layer address is left out, nor what the interval
between advertisements is, and `radvdump` knows no option of 6LoWPAN. -/
structure Restorable (kernel : Kernel) (texts : Texts) (iface : Interface) : Prop where
  running : iface.stateInfo.ceaseAdv = false
  header : HeaderValid iface.raHeaderInfo
  prefixes : ∀ entry ∈ iface.advPrefixList.flatMap (advertisedPrefixes kernel iface),
    (entry.prefixLen ≤ 128 ∧ entry.prefixAddr ≠ In6Addr.unspecified ∧
      entry.currPreferredlft ≤ entry.currValidlft) ∧ texts.Shows entry.prefixAddr
  nat64prefixes : ∀ entry ∈ iface.nat64PrefixList,
    Nat64Restorable entry ∧ texts.Shows (front entry.prefixAddr 12)
  routes : ∀ route ∈ iface.advRouteList,
    (route.prefixLen ≤ 128 ∧ IsPreference route.advRoutePreference) ∧ texts.Shows (sentAddr route)
  rdnss : ∀ rdnss ∈ iface.advRDNSSList,
    rdnss.advRDNSSAddr ≠ [] ∧ ∀ addr ∈ rdnss.advRDNSSAddr, texts.Shows addr
  dnssl : ∀ dnssl ∈ iface.advDNSSLList, ∃ list : List Suffix, list ≠ [] ∧
    dnssl.advDNSSLSuffixes = list.map Suffix.text ∧
      ∀ suffix ∈ list, Unnamed suffix.name.text
  dnsslFits : iface.DnsslFits
  source : iface.advSourceLLAddress = true
  hwaddr_le : iface.sllao.ifHwaddrLen ≤ 128
  interval : iface.mipv6.advIntervalOpt = true →
    iface.maxRtrAdvInterval = ifaceInitDefaults.maxRtrAdvInterval
  homeAgent : sendsHomeAgentInfo iface = true →
    0 ≤ iface.mipv6.homeAgentLifetime ∧ iface.mipv6.homeAgentLifetime ≤ 65535
  lowpanco : iface.advLowpanCoList = []
  abro : iface.advAbroList = []
  portal : ∀ url ∈ iface.advCaptivePortalAPI, PlainUrl url

section

variable {order : ByteOrder} {kernel : Kernel} {texts : Texts} {iface : Interface}

theorem Restorable.parsed (restorable : Restorable kernel texts iface) : iface.Parsed := by
  constructor
  · intro route member
    exact (restorable.routes route member).1.1
  · intro dnssl member
    rcases restorable.dnssl dnssl member with ⟨list, -, suffixes, -⟩
    exact parsed_of_suffixes suffixes
  · exact restorable.hwaddr_le
  · intro url member
    have plain := restorable.portal url member
    exact ⟨plain.filled, plain.short.trans (by decide)⟩

/-! ### Settings -/

def setMtu (iface read : Interface) : Interface :=
  { read with advLinkMTU := iface.advLinkMTU }

def setSource (read : Interface) : Interface :=
  { read with advSourceLLAddress := true }

def setInterval (read : Interface) : Interface :=
  { read with mipv6 := { read.mipv6 with advIntervalOpt := true } }

def setHomeAgent (iface read : Interface) : Interface :=
  { read with
    mipv6 := { read.mipv6 with
      advHomeAgentInfo := true
      advMobRtrSupportFlag := iface.mipv6.advMobRtrSupportFlag
      homeAgentPreference := iface.mipv6.homeAgentPreference
      homeAgentLifetime := iface.mipv6.homeAgentLifetime } }

def setPortal (url : Option Bytes) (read : Interface) : Interface :=
  { read with advCaptivePortalAPI := url <|> read.advCaptivePortalAPI }

/-- What the settings for the tail of a message do. -/
def setTail (iface read : Interface) : Interface :=
  setPortal iface.advCaptivePortalAPI
    ((if sendsHomeAgentInfo iface = true then setHomeAgent iface else id)
      ((if iface.mipv6.advIntervalOpt = true then setInterval else id)
        ((if (iface.advSourceLLAddress && iface.sllao.ifHwaddrLen > 0) = true then setSource
            else id)
          ((if iface.advLinkMTU ≠ 0 then setMtu iface else id) read))))

theorem settingsOf_portal (plain : ∀ url ∈ iface.advCaptivePortalAPI, PlainUrl url) :
    SettingsOf order texts (iface.advCaptivePortalAPI.map capportBlock).toList
      (setPortal iface.advCaptivePortalAPI) := by
  rcases set : iface.advCaptivePortalAPI with _ | url
  · exact .nil
  · rw [set] at plain
    have shown := @readBack_capportBlock order texts url (plain url rfl)
    refine .single shown ?_
    intro read
    rw [ifaceparams, List.foldlM_cons, ifaceparam, ifaceval_url (plain url rfl)]
    rfl

theorem settingsOf_tailBlocks (restorable : Restorable kernel texts iface) :
    SettingsOf order texts (tailBlocks order iface) (setTail iface) := by
  have mtu : SettingsOf order texts
      (if iface.advLinkMTU ≠ 0 then [mtuBlock iface.advLinkMTU] else [])
      (if iface.advLinkMTU ≠ 0 then setMtu iface else id) := by
    apply SettingsOf.ite
    intro _
    refine .single (readBack_mtuBlock _) ?_
    intro read
    simp [ifaceparams, ifaceparam, ifaceval, num_toNat, setMtu, -bind_pure_comp]
  have source : SettingsOf order texts
      (if (iface.advSourceLLAddress && iface.sllao.ifHwaddrLen > 0) = true then
        [sllaoBlock iface.sllao] else [])
      (if (iface.advSourceLLAddress && iface.sllao.ifHwaddrLen > 0) = true then setSource
        else id) :=
    .ite fun _ => .single (readBack_sllaoBlock _) fun _ => rfl
  have interval : SettingsOf order texts
      (if iface.mipv6.advIntervalOpt = true then
        [rtrAdvIntervalBlock iface.maxRtrAdvInterval] else [])
      (if iface.mipv6.advIntervalOpt = true then setInterval else id) :=
    .ite fun _ => .single (readBack_rtrAdvIntervalBlock _) fun _ => rfl
  have homeAgent : SettingsOf order texts
      (if sendsHomeAgentInfo iface = true then [homeAgentInfoBlock order iface.mipv6] else [])
      (if sendsHomeAgentInfo iface = true then setHomeAgent iface else id) := by
    apply SettingsOf.ite
    intro sends
    have bounds := restorable.homeAgent sends
    refine .single (readBack_homeAgentInfoBlock bounds.1 bounds.2) ?_
    intro read
    rcases num_nonneg bounds.1 bounds.2 with ⟨value, scanned, seconds⟩
    have preference : (numberText iface.mipv6.homeAgentPreference.toNat).num =
        some iface.mipv6.homeAgentPreference.toUInt32 := by
      rw [NumberText.num_eq_some_iff, written_numberText, UInt16.toNat_toUInt32]
    simp [ifaceparams, homeAgentTree, ifaceparam, ifaceval, scanned, seconds, preference,
      setHomeAgent, -bind_pure_comp]
  have portal := @settingsOf_portal order texts iface restorable.portal
  have whole := mtu.append (source.append (interval.append (homeAgent.append portal)))
  have blocks : tailBlocks order iface =
      (if iface.advLinkMTU ≠ 0 then [mtuBlock iface.advLinkMTU] else []) ++
        ((if (iface.advSourceLLAddress && iface.sllao.ifHwaddrLen > 0) = true then
            [sllaoBlock iface.sllao] else []) ++
          ((if iface.mipv6.advIntervalOpt = true then
              [rtrAdvIntervalBlock iface.maxRtrAdvInterval] else []) ++
            ((if sendsHomeAgentInfo iface = true then
                [homeAgentInfoBlock order iface.mipv6] else []) ++
              (iface.advCaptivePortalAPI.map capportBlock).toList))) := by
    simp [tailBlocks, restorable.lowpanco, restorable.abro]
  rw [blocks]
  exact whole

/-! ### Lists -/

/-- Lists whose entries are written as those of the interface are. -/
structure RereadLists (kernel : Kernel) (iface : Interface) where
  prefixes : List AdvPrefix
  nat64prefixes : List NAT64Prefix
  routes : List AdvRoute
  rdnss : List AdvRDNSS
  dnssl : List AdvDNSSL
  prefixes_eq : prefixes =
    (iface.advPrefixList.flatMap (advertisedPrefixes kernel iface)).map rereadPrefix
  nat64prefixes_alike : List.Forall₂ (fun entry reread =>
    nat64prefixBlock reread = nat64prefixBlock entry) iface.nat64PrefixList nat64prefixes
  routes_alike : List.Forall₂ (fun route reread =>
    routeBlock reread false = routeBlock route false ∧ reread.prefixLen ≤ 128)
    iface.advRouteList routes
  rdnss_alike : List.Forall₂ (fun rdnss reread =>
    rdnssBlock reread false = rdnssBlock rdnss false ∧ rdnssBytes reread / 8 ≤ 255)
    (iface.advRDNSSList.filter fun rdnss => rdnssBytes rdnss / 8 ≤ 255) rdnss
  dnssl_alike : List.Forall₂ (fun dnssl reread =>
    dnsslBlock reread false = dnsslBlock dnssl false ∧ dnsslLen (dnsslBytes reread) ≤ 255 ∧
      reread.Parsed)
    (iface.advDNSSLList.filter fun dnssl => dnsslLen (dnsslBytes dnssl) ≤ 255) dnssl

def RereadLists.add {kernel : Kernel} {iface : Interface} (lists : RereadLists kernel iface)
    (read : Interface) : Interface :=
  Definitions.dnssl.add lists.dnssl (Definitions.rdnss.add lists.rdnss
    (Definitions.routes.add lists.routes (Definitions.nat64prefixes.add lists.nat64prefixes
      (Definitions.prefixes.add lists.prefixes read))))

theorem definitionsOf_listBlocks (restorable : Restorable kernel texts iface) :
    ∃ lists : RereadLists kernel iface,
      DefinitionsOf order texts (listBlocks kernel iface) lists.add := by
  have eachPrefix : ∀ entry ∈ iface.advPrefixList.flatMap (advertisedPrefixes kernel iface),
      ∃ definition reread, ReadBack order texts (prefixBlock entry false)
        ([], [.prefixdef definition]) ∧ (∀ _ : Interface, prefixdef definition = .ok reread) ∧
          rereadPrefix entry = reread := by
    intro entry member
    rcases restorable.prefixes entry member with ⟨⟨short, -, ordered⟩, shown⟩
    exact ⟨_, _, readBack_prefixBlock shown, fun _ => prefixdef_prefixTree short ordered, rfl⟩
  have eachNat64 : ∀ entry ∈ iface.nat64PrefixList,
      ∃ definition reread, ReadBack order texts (nat64prefixBlock entry)
        ([], [.nat64prefixdef definition]) ∧
          (∀ iface, nat64prefixdef iface definition = .ok reread) ∧
          nat64prefixBlock reread = nat64prefixBlock entry := by
    intro entry member
    rcases restorable.nat64prefixes entry member with ⟨valid, shown⟩
    exact ⟨_, _, readBack_nat64prefixBlock valid shown, nat64prefixdef_nat64prefixTree valid,
      nat64prefixBlock_rereadNat64 valid⟩
  have eachRoute : ∀ route ∈ iface.advRouteList,
      ∃ definition reread, ReadBack order texts (routeBlock route false)
        ([], [.routedef definition]) ∧ (∀ iface, routedef iface definition = .ok reread) ∧
          (routeBlock reread false = routeBlock route false ∧ reread.prefixLen ≤ 128) := by
    intro route member
    rcases restorable.routes route member with ⟨⟨short, valid⟩, shown⟩
    exact ⟨_, _, readBack_routeBlock short valid shown, routedef_routeTree short valid,
      routeBlock_rereadRoute short, short⟩
  have eachRdnss : ∀ rdnss ∈ iface.advRDNSSList.filter fun rdnss => rdnssBytes rdnss / 8 ≤ 255,
      ∃ definition reread, ReadBack order texts (rdnssBlock rdnss false)
        ([], [.rdnssdef definition]) ∧ (∀ iface, rdnssdef iface definition = .ok reread) ∧
          (rdnssBlock reread false = rdnssBlock rdnss false ∧ rdnssBytes reread / 8 ≤ 255) := by
    intro rdnss member
    rw [List.mem_filter, decide_eq_true_eq] at member
    rcases restorable.rdnss rdnss member.1 with ⟨filled, shown⟩
    have bound : rdnss.advRDNSSAddr.length ≤ 127 := by
      have few := member.2
      unfold rdnssBytes at few
      omega
    rcases addrs : rdnss.advRDNSSAddr with _ | ⟨first, rest⟩
    · exact absurd addrs filled
    · exact ⟨_, _, readBack_rdnssBlock addrs bound shown, rdnssdef_rdnssTree addrs bound, rfl,
        member.2⟩
  have eachDnssl : ∀ dnssl ∈ iface.advDNSSLList.filter
      fun dnssl => dnsslLen (dnsslBytes dnssl) ≤ 255,
      ∃ definition reread, ReadBack order texts (dnsslBlock dnssl false)
        ([], [.dnssldef definition]) ∧ (∀ iface, dnssldef iface definition = .ok reread) ∧
          (dnsslBlock reread false = dnsslBlock dnssl false ∧
            dnsslLen (dnsslBytes reread) ≤ 255 ∧ reread.Parsed) := by
    intro dnssl member
    rw [List.mem_filter, decide_eq_true_eq] at member
    rcases restorable.dnssl dnssl member.1 with ⟨list, filled, suffixes, unnamed⟩
    rcases list with _ | ⟨first, rest⟩
    · exact absurd rfl filled
    · have same := dnsslBlock_rereadDnssl suffixes
      refine ⟨_, _, readBack_dnsslBlock suffixes member.2 unnamed,
        dnssldef_dnsslTree dnssl first rest, same.1, ?_, ?_⟩
      · rw [same.2]
        exact member.2
      · exact parsed_of_dnssldef (dnssldef_dnsslTree dnssl first rest ifaceInitDefaults)
  rcases Definitions.prefixes.definitionsOf eachPrefix with ⟨prefixes, prefixesOf, alikes⟩
  rcases Definitions.nat64prefixes.definitionsOf eachNat64 with ⟨nat64s, nat64sOf, nat64Alike⟩
  rcases Definitions.routes.definitionsOf eachRoute with ⟨routes, routesOf, routesAlike⟩
  rcases Definitions.rdnss.definitionsOf eachRdnss with ⟨rdnss, rdnssOf, rdnssAlike⟩
  rcases Definitions.dnssl.definitionsOf eachDnssl with ⟨dnssl, dnsslOf, dnsslAlike⟩
  have same : prefixes =
      (iface.advPrefixList.flatMap (advertisedPrefixes kernel iface)).map rereadPrefix := by
    rw [← List.forall₂_eq_eq_eq, List.forall₂_map_right_iff]
    exact (List.Forall₂.flip alikes).imp fun _ _ same => same.symm
  refine ⟨⟨prefixes, nat64s, routes, rdnss, dnssl, same, nat64Alike, routesAlike, rdnssAlike,
    dnsslAlike⟩, ?_⟩
  have whole := prefixesOf.append (nat64sOf.append (routesOf.append (rdnssOf.append dnsslOf)))
  have blocks : listBlocks kernel iface =
      (iface.advPrefixList.flatMap (advertisedPrefixes kernel iface)).map (prefixBlock · false) ++
        (iface.nat64PrefixList.map nat64prefixBlock ++
          (iface.advRouteList.map (routeBlock · false) ++
            ((iface.advRDNSSList.filter fun rdnss => rdnssBytes rdnss / 8 ≤ 255).map
                (rdnssBlock · false) ++
              (iface.advDNSSLList.filter fun dnssl => dnsslLen (dnsslBytes dnssl) ≤ 255).map
                (dnsslBlock · false)))) := by
    rw [listBlocks, restorable.running]
    rfl
  rw [blocks]
  exact whole

/-! ### The message again -/

theorem netlinkGetAddressLifetimes_congr {entry other : AdvPrefix}
    (addr : other.prefixAddr = entry.prefixAddr) (len : other.prefixLen = entry.prefixLen) :
    netlinkGetAddressLifetimes kernel other = netlinkGetAddressLifetimes kernel entry := by
  have matched : prefixMatch other = prefixMatch entry := by
    funext address
    rw [prefixMatch, prefixMatch, addr, len]
  have scanned : ∀ (attrs : List RtAttr) (found : Bool) (acc : AddressLifetimes),
      scanAttrs other found acc attrs = scanAttrs entry found acc attrs := by
    intro attrs
    induction attrs with
    | nil => exact fun _ _ => rfl
    | cons attr attrs ih =>
        intro found acc
        cases attr with
        | address address => rw [scanAttrs, scanAttrs, matched, ih]
        | cacheinfo valid preferred => simp only [scanAttrs, ih]
        | other => rw [scanAttrs, scanAttrs, ih]
  unfold netlinkGetAddressLifetimes
  rcases kernel.rtmGetaddr with _ | messages
  · rfl
  · have same : scanAttrs other false = scanAttrs entry false := by
      funext acc attrs
      exact scanned attrs false acc
    simp only [same]

theorem min_min_left (first second : UInt32) : min first (min first second) = min first second := by
  have shape : ∀ first second : UInt32, min first second = if first ≤ second then first else second :=
    fun _ _ => rfl
  rw [shape first second]
  split_ifs with within
  · rw [shape, if_pos (UInt32.le_refl _)]
  · rw [shape, if_neg within]

/-- The kernel limits the lifetimes that were read to what they are. -/
theorem prefixBlock_limited {entry prefix' : AdvPrefix}
    (member : entry ∈ advertisedPrefixes kernel iface prefix') :
    prefixBlock (limitPrefixLifetimes kernel (rereadPrefix entry)) false =
      prefixBlock entry false := by
  rw [advertisedPrefixes_eq] at member
  split at member
  · rcases List.mem_map.mp member with ⟨candidate, -, rfl⟩
    have lifetimes : netlinkGetAddressLifetimes kernel
        (rereadPrefix (limitPrefixLifetimes kernel candidate)) =
          netlinkGetAddressLifetimes kernel candidate := by
      apply netlinkGetAddressLifetimes_congr
      all_goals
        simp only [rereadPrefix, limitPrefixLifetimes]
        split_ifs <;> rfl
    rw [limitPrefixLifetimes, lifetimes]
    split_ifs with found
    · simp only [limitPrefixLifetimes, found, if_true, rereadPrefix, min_min_left]
      rfl
    · rfl
  · cases member

theorem isLiteral_rereadPrefix {entry : AdvPrefix}
    (given : entry.prefixAddr ≠ In6Addr.unspecified) : (rereadPrefix entry).isLiteral = true := by
  simp [AdvPrefix.isLiteral, rereadPrefix, prefixInitDefaults, given]

theorem map_eq_of_forall₂ {α β : Type} {entries rereads : List α} {block : α → β}
    {rest : α → α → Prop}
    (alike : List.Forall₂ (fun entry reread => block reread = block entry ∧ rest entry reread)
      entries rereads) : rereads.map block = entries.map block := by
  induction alike with
  | nil => rfl
  | cons here _ ih => rw [List.map_cons, List.map_cons, here.1, ih]

theorem listBlocks_add (restorable : Restorable kernel texts iface)
    (lists : RereadLists kernel iface) {read : Interface}
    (running : read.stateInfo.ceaseAdv = false)
    (empty : read.advPrefixList = [] ∧ read.nat64PrefixList = [] ∧ read.advRouteList = [] ∧
      read.advRDNSSList = [] ∧ read.advDNSSLList = []) :
    listBlocks kernel (lists.add read) = listBlocks kernel iface := by
  rcases empty with ⟨noPrefix, noNat64, noRoute, noRdnss, noDnssl⟩
  have prefixes : prefixBlocks kernel (lists.add read) false lists.prefixes =
      prefixBlocks kernel iface false iface.advPrefixList := by
    rw [lists.prefixes_eq, prefixBlocks_of_literal]
    · rw [List.map_map, prefixBlocks]
      apply List.map_congr_left
      intro entry member
      rcases List.mem_flatMap.mp member with ⟨prefix', -, advertised⟩
      exact prefixBlock_limited advertised
    · intro entry member
      rcases List.mem_map.mp member with ⟨advertised, inList, rfl⟩
      exact isLiteral_rereadPrefix (restorable.prefixes advertised inList).1.2.1
    · intro entry member decrements
      rcases List.mem_map.mp member with ⟨advertised, -, rfl⟩
      cases decrements
  have nat64 : lists.nat64prefixes.map nat64prefixBlock =
      iface.nat64PrefixList.map nat64prefixBlock :=
    @map_eq_of_forall₂ _ _ _ _ _ (fun _ _ => True)
      (lists.nat64prefixes_alike.imp fun _ _ same => ⟨same, trivial⟩)
  have routes := map_eq_of_forall₂ lists.routes_alike
  have rdnss : rdnssBlocks false lists.rdnss = rdnssBlocks false iface.advRDNSSList := by
    have kept : ∀ rdnss ∈ lists.rdnss, decide (rdnssBytes rdnss / 8 ≤ 255) = true := by
      intro rdnss member
      rcases forall₂_mem_right lists.rdnss_alike member with ⟨entry, -, -, few⟩
      exact decide_eq_true few
    rw [rdnssBlocks, List.filter_eq_self.mpr kept, map_eq_of_forall₂ lists.rdnss_alike]
    rfl
  have dnssl : dnsslBlocks false lists.dnssl = dnsslBlocks false iface.advDNSSLList := by
    have kept : ∀ dnssl ∈ lists.dnssl, decide (dnsslLen (dnsslBytes dnssl) ≤ 255) = true := by
      intro dnssl member
      rcases forall₂_mem_right lists.dnssl_alike member with ⟨entry, -, -, few, -⟩
      exact decide_eq_true few
    rw [dnsslBlocks, List.filter_eq_self.mpr kept, map_eq_of_forall₂ lists.dnssl_alike]
    rfl
  have whole : listBlocks kernel (lists.add read) =
      prefixBlocks kernel (lists.add read) read.stateInfo.ceaseAdv
          (read.advPrefixList ++ lists.prefixes) ++
        ((read.nat64PrefixList ++ lists.nat64prefixes).map nat64prefixBlock ++
          ((read.advRouteList ++ lists.routes).map (routeBlock · read.stateInfo.ceaseAdv) ++
            (rdnssBlocks read.stateInfo.ceaseAdv (read.advRDNSSList ++ lists.rdnss) ++
              dnsslBlocks read.stateInfo.ceaseAdv (read.advDNSSLList ++ lists.dnssl)))) := rfl
  rw [whole, noPrefix, noNat64, noRoute, noRdnss, noDnssl, running]
  simp only [List.nil_append]
  rw [prefixes, nat64, routes, rdnss, dnssl, listBlocks, restorable.running]

/-- The interface as `setup_iface` leaves it on the device. -/
def onDevice (sllao : Sllao) (iface : Interface) : Interface :=
  { fillDefaults iface with sllao := sllao }

/-- The default lifetime as `check_iface` fills it in. -/
def filledHeader (maxRtrAdvInterval : ℚ) (info : RaHeaderInfo) : RaHeaderInfo :=
  if info.advDefaultLifetime < 0 then
    { info with advDefaultLifetime := max 1 ⌊3 * maxRtrAdvInterval⌋ }
  else info

theorem fillDefaults_eq (read : Interface) :
    fillDefaults read = { read with
      minRtrAdvInterval :=
        if read.minRtrAdvInterval < 0 then 33 / 100 * read.maxRtrAdvInterval
        else read.minRtrAdvInterval
      raHeaderInfo := filledHeader read.maxRtrAdvInterval read.raHeaderInfo
      mipv6 :=
        if read.mipv6.homeAgentLifetime < 0 then
          { read.mipv6 with
            homeAgentLifetime :=
              (filledHeader read.maxRtrAdvInterval read.raHeaderInfo).advDefaultLifetime }
        else read.mipv6 } := by
  unfold fillDefaults filledHeader
  by_cases interval : read.minRtrAdvInterval < 0
  all_goals
    by_cases lifetime : read.raHeaderInfo.advDefaultLifetime < 0
    all_goals
      by_cases homeAgent : read.mipv6.homeAgentLifetime < 0
      all_goals simp only [interval, lifetime, homeAgent, if_true, if_false]

theorem RereadLists.add_eq (lists : RereadLists kernel iface) (read : Interface) :
    lists.add read = { read with
      advPrefixList := read.advPrefixList ++ lists.prefixes
      nat64PrefixList := read.nat64PrefixList ++ lists.nat64prefixes
      advRouteList := read.advRouteList ++ lists.routes
      advRDNSSList := read.advRDNSSList ++ lists.rdnss
      advDNSSLList := read.advDNSSLList ++ lists.dnssl } := rfl

theorem onDevice_add (lists : RereadLists kernel iface) (sllao : Sllao) (read : Interface) :
    onDevice sllao (lists.add read) = lists.add (onDevice sllao read) := by
  rw [onDevice, fillDefaults_eq, onDevice, fillDefaults_eq, lists.add_eq, lists.add_eq]

/-- The interface that is read, before its lists. -/
def readSettings (iface : Interface) (name : StringText) : Interface :=
  setTail iface { freshIface name with
    advSendAdvert := true
    raHeaderInfo := iface.raHeaderInfo }

/-- The home agent options that are read. -/
def readMipv6 (iface : Interface) : Mipv6 :=
  if sendsHomeAgentInfo iface = true then
    { advIntervalOpt := iface.mipv6.advIntervalOpt
      advHomeAgentInfo := true
      homeAgentPreference := iface.mipv6.homeAgentPreference
      homeAgentLifetime := iface.mipv6.homeAgentLifetime
      advMobRtrSupportFlag := iface.mipv6.advMobRtrSupportFlag }
  else { ifaceInitDefaults.mipv6 with advIntervalOpt := iface.mipv6.advIntervalOpt }

theorem readSettings_eq (name : StringText) :
    readSettings iface name = { freshIface name with
      advSendAdvert := true
      raHeaderInfo := iface.raHeaderInfo
      advLinkMTU := iface.advLinkMTU
      mipv6 := readMipv6 iface
      advCaptivePortalAPI := iface.advCaptivePortalAPI } := by
  let fresh : Interface := { freshIface name with
    advSendAdvert := true
    raHeaderInfo := iface.raHeaderInfo }
  have mtu : (if iface.advLinkMTU ≠ 0 then setMtu iface else id) fresh = setMtu iface fresh := by
    split
    · rfl
    · rename_i unset
      rw [setMtu, of_not_not unset]
      rfl
  have source : ∀ read : Interface, read.advSourceLLAddress = true →
      (if (iface.advSourceLLAddress && iface.sllao.ifHwaddrLen > 0) = true then setSource else id)
        read = read := by
    intro read given
    split
    · rw [setSource, ← given]
    · rfl
  have portal : ∀ read : Interface, read.advCaptivePortalAPI = none →
      setPortal iface.advCaptivePortalAPI read =
        { read with advCaptivePortalAPI := iface.advCaptivePortalAPI } := by
    intro read unset
    rw [setPortal, unset]
    cases iface.advCaptivePortalAPI <;> rfl
  change setTail iface fresh = _
  rw [setTail, mtu, source _ rfl, readMipv6]
  rcases interval : iface.mipv6.advIntervalOpt with _ | _
  all_goals
    split_ifs
    all_goals first
      | contradiction
      | rw [portal _ rfl]
        rfl

theorem filledHeader_of_nonneg {maxRtrAdvInterval : ℚ} {info : RaHeaderInfo}
    (nonneg : 0 ≤ info.advDefaultLifetime) : filledHeader maxRtrAdvInterval info = info :=
  if_neg (not_lt.mpr nonneg)

theorem raHeaderInfo_onDevice (restorable : Restorable kernel texts iface) (name : StringText) :
    (onDevice iface.sllao (readSettings iface name)).raHeaderInfo = iface.raHeaderInfo := by
  rw [onDevice, fillDefaults_eq, readSettings_eq]
  exact filledHeader_of_nonneg restorable.header.lifetime_nonneg

theorem mipv6_onDevice (restorable : Restorable kernel texts iface) (name : StringText) :
    sendsHomeAgentInfo (onDevice iface.sllao (readSettings iface name)) =
        sendsHomeAgentInfo iface ∧
      (sendsHomeAgentInfo iface = true →
        homeAgentInfoBlock order (onDevice iface.sllao (readSettings iface name)).mipv6 =
          homeAgentInfoBlock order iface.mipv6) := by
  have header := raHeaderInfo_onDevice restorable name
  rcases sends : sendsHomeAgentInfo iface with _ | _
  · refine ⟨?_, nofun⟩
    have unset : (onDevice iface.sllao (readSettings iface name)).mipv6.advHomeAgentInfo =
        false := by
      rw [onDevice, fillDefaults_eq, readSettings_eq, readMipv6, sends]
      rfl
    rw [sendsHomeAgentInfo, unset]
    rfl
  · have nonneg := (restorable.homeAgent sends).1
    have mipv6 : (onDevice iface.sllao (readSettings iface name)).mipv6 =
        { iface.mipv6 with advHomeAgentInfo := true } := by
      rw [onDevice, fillDefaults_eq, readSettings_eq, readMipv6, sends]
      exact if_neg (not_lt.mpr nonneg)
    have sent := sends
    rw [sendsHomeAgentInfo, Bool.and_eq_true] at sent
    refine ⟨?_, fun _ => by rw [mipv6]; rfl⟩
    rw [sendsHomeAgentInfo, header, mipv6]
    exact sent.2

theorem tailBlocks_onDevice (restorable : Restorable kernel texts iface) (name : StringText) :
    tailBlocks order (onDevice iface.sllao (readSettings iface name)) = tailBlocks order iface := by
  rcases @mipv6_onDevice order _ _ _ restorable name with ⟨sends, homeAgent⟩
  have fields : ∃ read, read = onDevice iface.sllao (readSettings iface name) ∧
      read.advLinkMTU = iface.advLinkMTU ∧ read.advSourceLLAddress = true ∧
      read.sllao = iface.sllao ∧ read.maxRtrAdvInterval = ifaceInitDefaults.maxRtrAdvInterval ∧
      read.advLowpanCoList = [] ∧ read.advAbroList = [] ∧
      read.advCaptivePortalAPI = iface.advCaptivePortalAPI ∧
      read.mipv6.advIntervalOpt = iface.mipv6.advIntervalOpt := by
    refine ⟨_, rfl, ?_⟩
    rw [onDevice, fillDefaults_eq, readSettings_eq, readMipv6]
    refine ⟨rfl, rfl, rfl, rfl, rfl, rfl, rfl, ?_⟩
    split_ifs <;> rfl
  rcases fields with ⟨read, same, mtu, source, sllao, max, lowpanco, abro, portal, interval⟩
  rw [← same] at sends homeAgent ⊢
  have intervalBlocks : (if read.mipv6.advIntervalOpt = true then
      [rtrAdvIntervalBlock read.maxRtrAdvInterval] else []) =
      if iface.mipv6.advIntervalOpt = true then
        [rtrAdvIntervalBlock iface.maxRtrAdvInterval] else [] := by
    rw [interval]
    split
    · rename_i given
      rw [max, restorable.interval given]
    · rfl
  have homeAgentBlocks : (if sendsHomeAgentInfo read = true then
      [homeAgentInfoBlock order read.mipv6] else []) =
      if sendsHomeAgentInfo iface = true then [homeAgentInfoBlock order iface.mipv6] else [] := by
    rw [sends]
    split
    · rename_i given
      rw [homeAgent given]
    · rfl
  rw [tailBlocks, intervalBlocks, homeAgentBlocks, mtu, source, sllao, lowpanco, abro, portal,
    tailBlocks, restorable.source, restorable.lowpanco, restorable.abro]

/-- The interface that is read. -/
def RereadLists.readIface {kernel : Kernel} {iface : Interface} (lists : RereadLists kernel iface)
    (name : StringText) : Interface :=
  lists.add (readSettings iface name)

theorem RereadLists.readIface_eq (lists : RereadLists kernel iface) (name : StringText) :
    lists.readIface name = { freshIface name with
      advSendAdvert := true
      raHeaderInfo := iface.raHeaderInfo
      advLinkMTU := iface.advLinkMTU
      mipv6 := readMipv6 iface
      advCaptivePortalAPI := iface.advCaptivePortalAPI
      advPrefixList := lists.prefixes
      nat64PrefixList := lists.nat64prefixes
      advRouteList := lists.routes
      advRDNSSList := lists.rdnss
      advDNSSLList := lists.dnssl } := by
  rw [RereadLists.readIface, readSettings_eq]
  rfl

theorem readinFile_buildRaOptions {mem : Memory} {sbl : SafeBufferList} {dest : In6Addr}
    (restorable : Restorable kernel texts iface) (named : PlainWord texts.ifName)
    (filled : listBlocks kernel iface ++ tailBlocks order iface ≠ [])
    (built : buildRaOptions order kernel iface dest = .ok sbl)
    (stored : mem.Holds 0 (raHeaderBlock iface.raHeaderInfo false ++ sbl.blocks.flatten)) :
    ∃ lists : RereadLists kernel iface,
      readinFile (texts.printFf order mem
          (raHeaderBlock iface.raHeaderInfo false ++ sbl.blocks.flatten).length false) =
        some [lists.readIface (.word texts.ifName named.filled named.octets)] := by
  have parsed := restorable.parsed
  have flat : sbl.blocks.flatten = (listBlocks kernel iface ++ tailBlocks order iface).flatten := by
    rw [blocks_of_buildRaOptions parsed built]
    split
    · rename_i empty
      rw [empty]
      rfl
    · rfl
  rw [flat] at stored ⊢
  have wellFormed : ∀ block ∈ listBlocks kernel iface ++ tailBlocks order iface,
      WellFormed block := by
    intro block member
    rcases List.mem_append.mp member with inLists | inTail
    · exact wellFormed_of_mem_listBlocks parsed inLists
    · exact (wellFormed_of_mem_tailBlocks parsed inTail).1
  rcases @definitionsOf_listBlocks order _ _ _ restorable with ⟨lists, definitions⟩
  have settings := @settingsOf_tailBlocks order _ _ _ restorable
  exact ⟨lists, readinFile_parts restorable.header named wellFormed filled definitions settings
    stored⟩

/-- The lists of an interface that is read are empty before its definitions are. -/
theorem empty_onDevice (sllao : Sllao) (name : StringText) :
    ∃ read, read = onDevice sllao (readSettings iface name) ∧
      read.stateInfo.ceaseAdv = false ∧ read.sllao = sllao ∧
      read.advCaptivePortalAPI = iface.advCaptivePortalAPI ∧
      read.advPrefixList = [] ∧ read.nat64PrefixList = [] ∧ read.advRouteList = [] ∧
      read.advRDNSSList = [] ∧ read.advDNSSLList = [] := by
  refine ⟨_, rfl, ?_⟩
  rw [onDevice, fillDefaults_eq, readSettings_eq]
  exact ⟨rfl, rfl, rfl, rfl, rfl, rfl, rfl, rfl⟩

theorem parsed_add (restorable : Restorable kernel texts iface) (lists : RereadLists kernel iface)
    (name : StringText) :
    (lists.add (onDevice iface.sllao (readSettings iface name))).Parsed ∧
      (lists.add (onDevice iface.sllao (readSettings iface name))).DnsslFits := by
  rcases @empty_onDevice iface iface.sllao name with
    ⟨read, same, -, sllao, portal, -, -, noRoute, -, noDnssl⟩
  rw [← same, lists.add_eq, noRoute, noDnssl, sllao, portal]
  constructor
  · constructor
    · intro route member
      rcases forall₂_mem_right lists.routes_alike member with ⟨_, -, -, short⟩
      exact short
    · intro dnssl member
      rcases forall₂_mem_right lists.dnssl_alike member with ⟨_, -, -, -, parsed⟩
      exact parsed
    · exact restorable.hwaddr_le
    · exact restorable.parsed.capport_length
  · intro dnssl member
    rcases forall₂_mem_right lists.dnssl_alike member with ⟨_, -, -, few, -⟩
    unfold dnsslLen at few
    unfold AdvDNSSL.Fits
    omega

/-- The options of the interface that is read are those that were received. -/
theorem buildRaOptions_onDevice {sbl : SafeBufferList} {dest : In6Addr}
    (restorable : Restorable kernel texts iface)
    (built : buildRaOptions order kernel iface dest = .ok sbl)
    (lists : RereadLists kernel iface) (name : StringText) :
    (buildRaOptions order kernel (onDevice iface.sllao (lists.readIface name)) dest).map
      SafeBufferList.blocks = .ok sbl.blocks := by
  have device : onDevice iface.sllao (lists.readIface name) =
      lists.add (onDevice iface.sllao (readSettings iface name)) := onDevice_add lists _ _
  rcases parsed_add restorable lists name with ⟨parsed, fits⟩
  rcases buildRaOptions_ok order kernel dest parsed fits with ⟨reread, rereadEq, -⟩
  have tail : tailBlocks order (lists.add (onDevice iface.sllao (readSettings iface name))) =
      tailBlocks order iface := by
    rw [← tailBlocks_onDevice restorable name, lists.add_eq]
    rfl
  have listed : listBlocks kernel (lists.add (onDevice iface.sllao (readSettings iface name))) =
      listBlocks kernel iface := by
    rcases @empty_onDevice iface iface.sllao name with ⟨read, same, running, -, -, empty⟩
    rw [← same]
    exact listBlocks_add restorable lists running empty
  rw [device, rereadEq, blocks_of_buildRaOptions restorable.parsed built]
  change Except.ok reread.blocks = _
  rw [blocks_of_buildRaOptions parsed rereadEq, tail, listed]

end

end Radvd.Dump
