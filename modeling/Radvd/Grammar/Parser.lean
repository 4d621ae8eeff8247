import Radvd.Grammar.Productions

/-!
# The parser

Each symbol of the grammar is told from its first token, or from the token after an
address. So the parser is exact for the productions (`yyparse_eq_some_iff`), and no
file is derived in two ways (`yields_unambiguous`).
-/

namespace Radvd.Grammar

open Predictive

/-! ## Ends of blocks -/

/-- `'}' ';'` -/
def blockEnd : List Token → Option (List Token)
  | .closing :: .semicolon :: rest => some rest
  | _ => none

/-- `'{'` -/
def blockStart : List Token → Option (List Token)
  | .opening :: rest => some rest
  | _ => none

def fileEnd : List Token → Option (List Token)
  | [] => some []
  | _ => none

theorem blockEnd_eq_some_iff {input rest : List Token} :
    blockEnd input = some rest ↔ input = [.closing, .semicolon] ++ rest := by
  unfold blockEnd
  split
  · simp
  · rename_i other
    constructor
    · intro found
      cases found
    · rintro rfl
      exact absurd rfl (other rest)

theorem blockStart_eq_some_iff {input rest : List Token} :
    blockStart input = some rest ↔ input = [.opening] ++ rest := by
  unfold blockStart
  split
  · simp
  · rename_i other
    constructor
    · intro found
      cases found
    · rintro rfl
      exact absurd rfl (other rest)

theorem fileEnd_eq_some_iff {input rest : List Token} :
    fileEnd input = some rest ↔ input = [] ∧ rest = [] := by
  cases input <;> simp [fileEnd, eq_comm]

/-! ## Tokens -/

def one {α : Type} (read : Token → Option α) : Reader Token α
  | token :: rest => (read token).map fun value => (value, rest)
  | [] => none

theorem exact_one {α : Type} {read : Token → Option α} {token : α → Token}
    (reads : ∀ {other : Token} {value : α}, read other = some value ↔ token value = other) :
    Exact (one read) fun value part => part = [token value] := by
  intro input value rest
  constructor
  · intro found
    rcases input with _ | ⟨first, last⟩
    · cases found
    · simp only [one, Option.map_eq_some_iff, Prod.mk.injEq] at found
      rcases found with ⟨_, here, rfl, rfl⟩
      exact ⟨_, rfl, by rw [reads.mp here, List.singleton_append]⟩
  · rintro ⟨_, rfl, rfl⟩
    change (read (token value)).map _ = _
    rw [reads.mpr rfl]
    rfl

def literal (token : Token) : Reader Token Unit :=
  one fun other => if other = token then some () else none

theorem exact_literal (token : Token) : Exact (literal token) fun _ part => part = [token] := by
  refine @exact_one _ _ (fun _ => token) ?_
  intro other value
  rw [Option.ite_none_right_eq_some, eq_comm]
  simp

/-- The token, and then what is read. -/
def after {α : Type} (token : Token) (reader : Reader Token α) : Reader Token α :=
  ((literal token).followedBy reader).as Prod.snd

def before {α : Type} (reader : Reader Token α) (token : Token) : Reader Token α :=
  (reader.followedBy (literal token)).as Prod.fst

theorem exact_after {α : Type} {reader : Reader Token α} {texts : α → List Token}
    (exact : Exact reader fun value part => part = texts value) (token : Token) :
    Exact (after token reader) fun value part => part = token :: texts value :=
  ((exact_literal token).append exact).via (fun value => ((), value)) (fun _ => rfl) fun _ => rfl

theorem exact_before {α : Type} {reader : Reader Token α} {texts : α → List Token}
    (exact : Exact reader fun value part => part = texts value) (token : Token) :
    Exact (before reader token) fun value part => part = texts value ++ [token] :=
  (exact.append (exact_literal token)).via (fun value => (value, ())) (fun _ => rfl) fun _ => rfl

def addrToken : Token → Option In6Addr
  | .addr addr => some addr
  | _ => none

theorem addrToken_eq_some_iff {token : Token} {addr : In6Addr} :
    addrToken token = some addr ↔ .addr addr = token := by
  cases token <;> simp [addrToken, eq_comm]

def clientToken : Token → Option ClientText
  | .addr addr => some ⟨addr, false⟩
  | .notAddr addr => some ⟨addr, true⟩
  | _ => none

theorem clientToken_eq_some_iff {token : Token} {client : ClientText} :
    clientToken token = some client ↔ client.token = token := by
  rcases client with ⟨address, _ | _⟩ <;>
    cases token <;> simp [clientToken, ClientText.token, eq_comm]

/-! ## Symbols -/

/-- A statement of a block. -/
def parm {α : Type} (parms : Parms α) : Reader Token α
  | .word keyword :: value :: .semicolon :: rest =>
      (parms.read keyword value).map fun statement => (statement, rest)
  | _ => none

theorem exact_parm {α : Type} (parms : Parms α) :
    Exact (parm parms) fun statement part => part = parms.tokens statement := by
  intro input statement rest
  constructor
  · intro read
    unfold parm at read
    split at read
    · simp only [Option.map_eq_some_iff, Prod.mk.injEq] at read
      rcases read with ⟨_, found, rfl, rfl⟩
      rcases parms.read_eq_some_iff.mp found with ⟨rfl, rfl⟩
      exact ⟨_, rfl, rfl⟩
    · cases read
  · rintro ⟨_, rfl, rfl⟩
    change (parms.read _ _).map _ = _
    rw [parms.read_eq_some_iff.mpr ⟨rfl, rfl⟩, Option.map_some]
    rfl

/-- The statements, up to the end of the block. -/
def closed {α : Type} (parms : Parms α) : Reader Token (List α) :=
  many blockEnd (parm parms)

theorem exact_closed {α : Type} (parms : Parms α) :
    Exact (closed parms) fun statements part => part = parms.closed statements :=
  (exact_parm parms).many blockEnd_eq_some_iff fun _ => ⟨List.cons_ne_nil _ _, fun _ => rfl⟩

def block {α : Type} (parms : Parms α) : Reader Token (List α) :=
  after .opening (closed parms)

theorem exact_block {α : Type} (parms : Parms α) :
    Exact (block parms) fun statements part => part = .opening :: parms.closed statements :=
  exact_after (exact_closed parms) .opening

def optional {α : Type} (parms : Parms α) : Reader Token (List α)
  | .semicolon :: rest => some ([], rest)
  | input => block parms input

theorem exact_optional {α : Type} (parms : Parms α) :
    Exact (optional parms) parms.Optional := by
  intro input statements rest
  unfold optional
  split
  · rename_i last
    constructor
    · intro read
      cases read
      exact ⟨_, .inr ⟨rfl, rfl⟩, rfl⟩
    · rintro ⟨_, rfl | ⟨rfl, rfl⟩, same⟩
      · cases same
      · cases same
        rfl
  · rename_i other
    rw [exact_block]
    constructor
    · rintro ⟨part, yielded, same⟩
      exact ⟨part, .inl yielded, same⟩
    · rintro ⟨part, yielded | ⟨rfl, rfl⟩, same⟩
      · exact ⟨part, yielded, same⟩
      · exact absurd same (other _)

/-- An address and a length. -/
def prefixLen : Reader Token (In6Addr × NumberText) :=
  (one addrToken).followedBy (after .slash (one numberToken))

theorem exact_prefixLen :
    Exact prefixLen fun value part => part = network value.1 value.2 :=
  (exact_one addrToken_eq_some_iff).append (exact_after (exact_one numberToken_eq_some_iff) .slash)

/-- Entries between braces, at least one. -/
def list {α : Type} (entry : Reader Token α) : Reader Token (α × List α) :=
  after .opening (entry.followedBy (many blockEnd entry))

theorem exact_list {α : Type} {entry : Reader Token α} {tokens : α → List Token}
    (exact : Exact entry fun value part => part = tokens value)
    (apart : ∀ value, tokens value ≠ [] ∧ ∀ rest, blockEnd (tokens value ++ rest) = none) :
    Exact (list entry) fun value part => part = entries tokens (value.1 :: value.2) := by
  apply (exact_after (exact.append (exact.many blockEnd_eq_some_iff apart)) .opening).congr
  intro value part
  rw [entries, List.flatMap_cons, List.cons_append, List.append_assoc]

def client : Reader Token ClientText :=
  before (one clientToken) .semicolon

def addrEntry : Reader Token In6Addr :=
  before (one addrToken) .semicolon

def ignoreprefixEntry : Reader Token IgnoreprefixText :=
  (before prefixLen .semicolon).as fun value => ⟨value.1, value.2⟩

theorem exact_ignoreprefixEntry :
    Exact ignoreprefixEntry fun value part => part = value.tokens :=
  (exact_before exact_prefixLen .semicolon).via
    (fun text : IgnoreprefixText => (text.addr, text.len)) (fun _ => rfl) fun _ => rfl

/-- Values up to the brace that opens the block, at least one. -/
def several {α : Type} (value : Token → Option α) : Reader Token (α × List α) :=
  (one value).followedBy (many blockStart (one value))

theorem exact_several {α : Type} {value : Token → Option α} {token : α → Token}
    (reads : ∀ {other : Token} {read : α}, value other = some read ↔ token read = other)
    (apart : ∀ read, token read ≠ .opening) :
    Exact (several value) fun values part =>
      part = (values.1 :: values.2).map token ++ [.opening] := by
  have exact := exact_one reads
  have others := exact.many blockStart_eq_some_iff fun read => ⟨List.cons_ne_nil _ _, by
    intro rest
    rcases found : blockStart ([token read] ++ rest) with _ | last
    · rfl
    · have same := blockStart_eq_some_iff.mp found
      exact absurd (List.cons.inj same).1 (apart read)⟩
  apply (exact.append others).congr
  intro values part
  rw [List.map_cons, List.map_eq_flatMap]
  rfl

/-- The rest of the definition of a border router, after the address. -/
def abroRest : Reader Token (Option NumberText × List AbroParm)
  | .slash :: input =>
      (((one numberToken).followedBy (block AbroParm.parms)).as fun value =>
        (some value.1, value.2)) input
  | input => ((block AbroParm.parms).as fun value => (none, value)) input

theorem exact_abroRest : Exact abroRest fun value part =>
    part = deprecatedLen value.1 ++ .opening :: AbroParm.parms.closed value.2 := by
  have long := ((exact_one numberToken_eq_some_iff).append (exact_block AbroParm.parms)).as
    fun value : NumberText × List AbroParm => (some value.1, value.2)
  have short := (exact_block AbroParm.parms).as
    fun value : List AbroParm => ((none : Option NumberText), value)
  rintro input ⟨len, parms⟩ rest
  unfold abroRest
  split
  · rename_i last
    rw [long]
    constructor
    · rintro ⟨_, ⟨source, same, rfl⟩, rfl⟩
      cases same
      exact ⟨_, rfl, rfl⟩
    · rintro ⟨_, rfl, same⟩
      cases len with
      | none => cases same
      | some len =>
          cases same
          exact ⟨_, ⟨(len, parms), rfl, rfl⟩, rfl⟩
  · rename_i other
    rw [short]
    constructor
    · rintro ⟨_, ⟨source, same, rfl⟩, rfl⟩
      cases same
      exact ⟨_, rfl, rfl⟩
    · rintro ⟨_, rfl, rfl⟩
      cases len with
      | none => exact ⟨_, ⟨parms, rfl, rfl⟩, rfl⟩
      | some len => exact absurd rfl (other _)

/-! ## Definitions -/

/-- A setting of the interface, after its keyword. -/
def settingRest (word : Word) : Reader Token Ifaceparam
  | value :: .semicolon :: rest =>
      (Ifaceval.read word value).map fun setting => (.ifaceval setting, rest)
  | _ => none

/-- What comes after a keyword in the block of an interface. -/
def paramRest : Word → Reader Token Ifaceparam
  | .tPrefix => (prefixLen.followedBy (optional PrefixParm.parms)).as fun value =>
      .prefixdef ⟨value.1.1, value.1.2, value.2⟩
  | .tClients => (list client).as fun value => .clientslist value.1 value.2
  | .tRoute => (prefixLen.followedBy (block RouteParm.parms)).as fun value =>
      .routedef ⟨value.1.1, value.1.2, value.2⟩
  | .tRdnss => ((several addrToken).followedBy (closed RdnssParm.parms)).as fun value =>
      .rdnssdef ⟨value.1.1, value.1.2, value.2⟩
  | .tDnssl => ((several strToken).followedBy (closed DnsslParm.parms)).as fun value =>
      .dnssldef ⟨value.1.1, value.1.2, value.2⟩
  | .tLowpanco => (block LowpancoParm.parms).as fun value => .lowpancodef ⟨value⟩
  | .tAbro => ((one addrToken).followedBy abroRest).as fun value =>
      .abrodef ⟨value.1, value.2.1, value.2.2⟩
  | .tRasrcaddress => (list addrEntry).as fun value => .rasrcaddresslist value.1 value.2
  | .tNat64Prefix => (prefixLen.followedBy (optional nat64prefixParms)).as fun value =>
      .nat64prefixdef ⟨value.1.1, value.1.2, value.2⟩
  | .tAutoignorePrefix => (list ignoreprefixEntry).as fun value => .ignoreprefixlist value.1 value.2
  | word => settingRest word

def definitionWords : List Word :=
  [.tPrefix, .tClients, .tRoute, .tRdnss, .tDnssl, .tLowpanco, .tAbro, .tRasrcaddress,
    .tNat64Prefix, .tAutoignorePrefix]

theorem keyword_notMem_definitionWords (value : Ifaceval) :
    value.keyword ∉ definitionWords := by
  cases value <;> simp [Ifaceval.keyword, definitionWords]

theorem exact_settingRest {word : Word} (setting : word ∉ definitionWords) :
    Exact (settingRest word) fun param part => param.keyword = word ∧ param.Tail part := by
  intro input param rest
  constructor
  · intro read
    unfold settingRest at read
    split at read
    · simp only [Option.map_eq_some_iff, Prod.mk.injEq] at read
      rcases read with ⟨value, found, rfl, rfl⟩
      rcases Ifaceval.parms.read_eq_some_iff.mp found with ⟨same, rfl⟩
      exact ⟨_, ⟨same, rfl⟩, rfl⟩
    · cases read
  · rintro ⟨part, ⟨rfl, tail⟩, rfl⟩
    cases param with
    | ifaceval value =>
        cases tail
        have found : Ifaceval.read value.keyword value.value = some value :=
          Ifaceval.parms.read_eq_some_iff.mpr ⟨rfl, rfl⟩
        change (Ifaceval.read value.keyword value.value).map _ = _
        rw [found]
        rfl
    | _ => exact absurd (by simp [Ifaceparam.keyword, definitionWords]) setting

/-- The reader of one definition. -/
theorem exact_of_definition {α : Type} {word : Word} {reader : Reader Token α}
    {yields : α → List Token → Prop} {convert : α → Ifaceparam} (exact : Exact reader yields)
    (member : word ∈ definitionWords)
    (own : ∀ source, (convert source).keyword = word ∧
      ∀ part, (convert source).Tail part ↔ yields source part)
    (onto : ∀ param : Ifaceparam, param.keyword = word →
      (∃ value, param = .ifaceval value) ∨ ∃ source, convert source = param) :
    Exact (reader.as convert) fun param part => param.keyword = word ∧ param.Tail part := by
  apply (exact.as convert).congr
  intro param part
  constructor
  · rintro ⟨source, rfl, yielded⟩
    exact ⟨(own source).1, ((own source).2 part).mpr yielded⟩
  · rintro ⟨same, ending⟩
    rcases onto param same with ⟨value, rfl⟩ | ⟨source, rfl⟩
    · rw [← same] at member
      exact absurd member (keyword_notMem_definitionWords value)
    · exact ⟨source, rfl, ((own source).2 part).mp ending⟩

theorem exact_networkOptional {α : Type} (parms : Parms α) :
    Exact (prefixLen.followedBy (optional parms)) fun value part =>
      ∃ block, parms.Optional value.2 block ∧ part = network value.1.1 value.1.2 ++ block := by
  apply (exact_prefixLen.followedBy (exact_optional parms)).congr
  intro value part
  constructor
  · rintro ⟨_, rfl, block, yielded, rfl⟩
    exact ⟨block, yielded, rfl⟩
  · rintro ⟨block, yielded, rfl⟩
    exact ⟨_, rfl, block, yielded, rfl⟩

theorem exact_severalClosed {α β : Type} {value : Token → Option α} {token : α → Token}
    (reads : ∀ {other : Token} {read : α}, value other = some read ↔ token read = other)
    (apart : ∀ read, token read ≠ .opening) (parms : Parms β) :
    Exact ((several value).followedBy (closed parms)) fun values part =>
      part = (values.1.1 :: values.1.2).map token ++ .opening :: parms.closed values.2 := by
  apply ((exact_several reads apart).append (exact_closed parms)).congr
  intro values part
  rw [List.append_assoc, List.singleton_append]

theorem exact_paramRest (word : Word) :
    Exact (paramRest word) fun param part => param.keyword = word ∧ param.Tail part := by
  unfold paramRest
  split
  · refine exact_of_definition (exact_networkOptional _) (by decide)
      (fun _ => ⟨rfl, fun _ => .rfl⟩) ?_
    intro param same
    cases param with
    | prefixdef definition =>
        exact .inr ⟨((definition.addr, definition.len), definition.parms), rfl⟩
    | ifaceval value => exact .inl ⟨value, rfl⟩
    | _ => cases same
  · have entry : ∀ value : ClientText, value.tokens ≠ [] ∧
        ∀ rest, blockEnd (value.tokens ++ rest) = none := by
      rintro ⟨address, _ | _⟩ <;> exact ⟨List.cons_ne_nil _ _, fun _ => rfl⟩
    have exact : Exact client fun value part => part = value.tokens :=
      exact_before (exact_one clientToken_eq_some_iff) .semicolon
    refine exact_of_definition (exact_list exact entry) (by decide)
      (fun _ => ⟨rfl, fun _ => .rfl⟩) ?_
    intro param same
    cases param with
    | clientslist first rest => exact .inr ⟨(first, rest), rfl⟩
    | ifaceval value => exact .inl ⟨value, rfl⟩
    | _ => cases same
  · refine exact_of_definition (exact_prefixLen.append (exact_block _)) (by decide)
      (fun _ => ⟨rfl, fun _ => .rfl⟩) ?_
    intro param same
    cases param with
    | routedef definition => exact .inr ⟨((definition.addr, definition.len), definition.parms), rfl⟩
    | ifaceval value => exact .inl ⟨value, rfl⟩
    | _ => cases same
  · have notOpening : ∀ addr, Token.addr addr ≠ .opening := by
      rintro addr ⟨⟩
    refine exact_of_definition (exact_severalClosed addrToken_eq_some_iff notOpening _) (by decide)
      (fun _ => ⟨rfl, fun _ => .rfl⟩) ?_
    intro param same
    cases param with
    | rdnssdef definition =>
        exact .inr ⟨((definition.first, definition.rest), definition.parms), rfl⟩
    | ifaceval value => exact .inl ⟨value, rfl⟩
    | _ => cases same
  · have notOpening : ∀ text, Token.str text ≠ .opening := by
      rintro text ⟨⟩
    refine exact_of_definition (exact_severalClosed strToken_eq_some_iff notOpening _) (by decide)
      (fun _ => ⟨rfl, fun _ => .rfl⟩) ?_
    intro param same
    cases param with
    | dnssldef definition =>
        exact .inr ⟨((definition.first, definition.rest), definition.parms), rfl⟩
    | ifaceval value => exact .inl ⟨value, rfl⟩
    | _ => cases same
  · refine exact_of_definition (exact_block _) (by decide)
      (fun _ => ⟨rfl, fun _ => .rfl⟩) ?_
    intro param same
    cases param with
    | lowpancodef definition => exact .inr ⟨definition.parms, rfl⟩
    | ifaceval value => exact .inl ⟨value, rfl⟩
    | _ => cases same
  · refine exact_of_definition ((exact_one addrToken_eq_some_iff).append exact_abroRest) (by decide)
      (fun _ => ⟨rfl, fun _ => .rfl⟩) ?_
    intro param same
    cases param with
    | abrodef definition => exact .inr ⟨(definition.addr, definition.len, definition.parms), rfl⟩
    | ifaceval value => exact .inl ⟨value, rfl⟩
    | _ => cases same
  · have exact : Exact addrEntry fun value part => part = [.addr value, .semicolon] :=
      exact_before (exact_one addrToken_eq_some_iff) .semicolon
    have entry : ∀ value : In6Addr, [Token.addr value, .semicolon] ≠ [] ∧
        ∀ rest, blockEnd ([.addr value, .semicolon] ++ rest) = none :=
      fun _ => ⟨List.cons_ne_nil _ _, fun _ => rfl⟩
    refine exact_of_definition (exact_list exact entry) (by decide)
      (fun _ => ⟨rfl, fun _ => .rfl⟩) ?_
    intro param same
    cases param with
    | rasrcaddresslist first rest => exact .inr ⟨(first, rest), rfl⟩
    | ifaceval value => exact .inl ⟨value, rfl⟩
    | _ => cases same
  · refine exact_of_definition (exact_networkOptional _) (by decide)
      (fun _ => ⟨rfl, fun _ => .rfl⟩) ?_
    intro param same
    cases param with
    | nat64prefixdef definition =>
        exact .inr ⟨((definition.addr, definition.len), definition.parms), rfl⟩
    | ifaceval value => exact .inl ⟨value, rfl⟩
    | _ => cases same
  · have entry : ∀ value : IgnoreprefixText, value.tokens ≠ [] ∧
        ∀ rest, blockEnd (value.tokens ++ rest) = none :=
      fun _ => ⟨List.cons_ne_nil _ _, fun _ => rfl⟩
    refine exact_of_definition (exact_list exact_ignoreprefixEntry entry) (by decide)
      (fun _ => ⟨rfl, fun _ => .rfl⟩) ?_
    intro param same
    cases param with
    | ignoreprefixlist first rest => exact .inr ⟨(first, rest), rfl⟩
    | ifaceval value => exact .inl ⟨value, rfl⟩
    | _ => cases same
  · apply exact_settingRest
    simp_all [definitionWords]

/-! ## Files -/

/-- `ifaceparam` -/
def param : Reader Token Ifaceparam
  | .word word :: rest => paramRest word rest
  | _ => none

theorem exact_param : Exact param Ifaceparam.Yields := by
  intro input value rest
  constructor
  · intro read
    unfold param at read
    split at read
    · rcases (exact_paramRest _ _ _ _).mp read with ⟨part, ⟨rfl, tail⟩, rfl⟩
      exact ⟨_, ⟨part, tail, rfl⟩, rfl⟩
    · cases read
  · rintro ⟨_, ⟨part, tail, rfl⟩, rfl⟩
    exact (exact_paramRest value.keyword).read ⟨rfl, tail⟩ rest

/-- `ifacedef` -/
def iface : Reader Token Ifacedef
  | .word .tInterface :: .str name :: .opening :: rest =>
      (many blockEnd param rest).map fun taken => (⟨name, taken.1⟩, taken.2)
  | _ => none

theorem exact_iface : Exact iface Ifacedef.Yields := by
  have apart : Apart blockEnd Ifaceparam.Yields := by
    rintro value _ ⟨part, -, rfl⟩
    exact ⟨List.cons_ne_nil _ _, fun _ => rfl⟩
  rintro input ⟨name, params⟩ rest
  constructor
  · intro read
    unfold iface at read
    split at read
    · simp only [Option.map_eq_some_iff, many_eq_some_iff exact_param apart,
        blockEnd_eq_some_iff] at read
      rcases read with ⟨⟨taken, last⟩, ⟨parts, behind, all, rfl, rfl⟩, same⟩
      cases same
      exact ⟨_, ⟨parts, all, rfl⟩, by simp⟩
    · cases read
  · rintro ⟨_, ⟨parts, all, rfl⟩, rfl⟩
    have read := (many_eq_some_iff exact_param apart).mpr
      ⟨parts, [.closing, .semicolon] ++ rest, all, rfl, blockEnd_eq_some_iff.mpr rfl⟩
    simp only [List.append_assoc, List.cons_append, List.nil_append, iface] at read ⊢
    rw [read]
    rfl

/-- `yyparse`: the definitions of a file, at least one. -/
def yyparse (tokens : List Token) : Option (Ifacedef × List Ifacedef) :=
  match many fileEnd iface tokens with
  | some (first :: rest, _) => some (first, rest)
  | _ => none

/-- The parser finds the derivations of the grammar. -/
theorem yyparse_eq_some_iff {tokens : List Token} {first : Ifacedef} {rest : List Ifacedef} :
    yyparse tokens = some (first, rest) ↔ Yields first rest tokens := by
  have apart : Apart fileEnd Ifacedef.Yields := by
    rintro value _ ⟨parts, -, rfl⟩
    exact ⟨List.cons_ne_nil _ _, fun _ => rfl⟩
  have found : yyparse tokens = some (first, rest) ↔
      ∃ last, many fileEnd iface tokens = some (first :: rest, last) := by
    unfold yyparse
    rcases many fileEnd iface tokens with _ | ⟨_ | ⟨head, others⟩, last⟩ <;> simp
  rw [found]
  simp only [many_eq_some_iff exact_iface apart, fileEnd_eq_some_iff, Yields]
  constructor
  · rintro ⟨_, parts, _, all, rfl, rfl, -⟩
    exact ⟨parts, all, List.append_nil _⟩
  · rintro ⟨parts, all, rfl⟩
    exact ⟨[], parts, [], all, (List.append_nil _).symm, rfl, rfl⟩

theorem yields_unambiguous {tokens : List Token} {first first' : Ifacedef}
    {rest rest' : List Ifacedef} (one : Yields first rest tokens)
    (two : Yields first' rest' tokens) : first = first' ∧ rest = rest' := by
  have same := (yyparse_eq_some_iff.mpr one).symm.trans (yyparse_eq_some_iff.mpr two)
  simpa using same

/-- `br-lan` -/
def exampleName : StringText :=
  .word [98, 114, 45, 108, 97, 110] (by decide) (List.all_eq_true.mp (by decide))

/-- An interface that sends a prefix whose block is left out. -/
def exampleTree : Ifacedef where
  name := exampleName
  params := [.ifaceval (.advSendAdvert true), .prefixdef ⟨Vector.replicate 16 32, ⟨6, [4]⟩, []⟩]

def exampleTokens : List Token :=
  [.word .tInterface, .str exampleName, .opening, .word .tAdvSendAdvert, .switch true, .semicolon,
    .word .tPrefix, .addr (Vector.replicate 16 32), .slash, .num ⟨6, [4]⟩, .semicolon, .closing,
    .semicolon]

theorem exampleTokens_yields : Yields exampleTree [] exampleTokens := by
  refine ⟨[exampleTokens], .cons ?_ .nil, rfl⟩
  refine ⟨[[.word .tAdvSendAdvert, .switch true, .semicolon],
    [.word .tPrefix, .addr (Vector.replicate 16 32), .slash, .num ⟨6, [4]⟩, .semicolon]], ?_, rfl⟩
  exact .cons ⟨_, rfl, rfl⟩ (.cons ⟨_, ⟨[.semicolon], .inr ⟨rfl, rfl⟩, rfl⟩, rfl⟩ .nil)

theorem yields_unambiguous_exampleTokens :
    Yields exampleTree [] exampleTokens ∧
      ¬∃ first rest, Yields first rest exampleTokens ∧ (first, rest) ≠ (exampleTree, []) := by
  refine ⟨exampleTokens_yields, ?_⟩
  rintro ⟨first, rest, yields, differ⟩
  rcases yields_unambiguous yields exampleTokens_yields with ⟨rfl, rfl⟩
  exact differ rfl

end Radvd.Grammar
