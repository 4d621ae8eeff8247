import Radvd.Dump.Reading
import Radvd.Grammar.Files

/-!
# The output of `radvdump` as tokens

A statement of `print_ff` is printed so that the scanner of `radvd` finds the tokens
of the statement in the text, whatever comes after it (`Lays`). The comments at the
ends of the lines are passed over.
-/

namespace Radvd.Dump

open Wire Grammar

/-! ## Numbers -/

def digitOfChar (character : Char) : Fin 10 :=
  Fin.ofNat 10 (character.toNat - 48)

def numberText (value : Nat) : NumberText :=
  match Nat.toDigits 10 value with
  | [] => ⟨0, []⟩
  | first :: rest => ⟨digitOfChar first, rest.map digitOfChar⟩

theorem digits_numberText (value : Nat) :
    (numberText value).digits = (Nat.toDigits 10 value).map digitOfChar := by
  rcases printed : Nat.toDigits 10 value with _ | ⟨first, rest⟩
  · exact absurd printed Nat.toDigits_ne_nil
  · rw [numberText, printed]
    rfl

theorem digitOfChar_of_mem {value : Nat} {character : Char}
    (member : character ∈ Nat.toDigits 10 value) :
    digitOctet (digitOfChar character) = UInt8.ofNat character.toNat ∧
      (digitOfChar character).val = character.toNat - 48 := by
  have bounds := digit_bounds member
  have same : (digitOfChar character).val = character.toNat - 48 := by
    change (character.toNat - 48) % 10 = _
    omega
  refine ⟨?_, same⟩
  rw [digitOctet, same]
  congr 1
  omega

theorem octets_numberText (value : Nat) : (numberText value).octets = decimal value := by
  rw [NumberText.octets, digits_numberText, List.map_map, decimal]
  apply List.map_congr_left
  intro character member
  exact (digitOfChar_of_mem member).1

theorem written_numberText (value : Nat) : (numberText value).written = value := by
  have fold : ∀ (characters : List Char) (start : Nat),
      (∀ character ∈ characters, (digitOfChar character).val = character.toNat - 48) →
      (characters.map digitOfChar).foldl (fun value digit => 10 * value + digit.val) start =
        Nat.ofDigitChars 10 characters start := by
    intro characters
    induction characters with
    | nil => simp
    | cons character characters ih =>
        intro start digits
        rw [List.forall_mem_cons] at digits
        rw [List.map_cons, List.foldl_cons, ih _ digits.2, Nat.ofDigitChars_cons, digits.1]
        rfl
  rw [NumberText.written, digits_numberText,
    fold _ 0 fun character member => (digitOfChar_of_mem member).2]
  exact Nat.ofDigitChars_ten_toDigits

theorem num_numberText {value : Nat} (small : value < 2 ^ 32) :
    (numberText value).num = some (UInt32.ofNat value) := by
  rw [NumberText.num_eq_some_iff, written_numberText, UInt32.toNat_ofNat_of_lt' small]

theorem num_toNat (value : UInt32) : (numberText value.toNat).num = some value := by
  rw [num_numberText value.toNat_lt, UInt32.ofNat_toNat]

/-- The text of a lifetime. -/
def lifetimeText (value : UInt32) : NumberOrInfinity :=
  if value = 0xffffffff then .infinity else .number (numberText value.toNat)

theorem num_lifetimeText (value : UInt32) : (lifetimeText value).num = some value := by
  unfold lifetimeText
  split
  · rename_i infinite
    rw [infinite]
    rfl
  · exact num_toNat value

/-! ## Texts with tokens -/

/-- The text has the tokens, whatever comes after it. -/
def Lays (text : Bytes) (tokens : List Token) : Prop :=
  ∀ later rest, Laid later rest → Laid (tokens ++ later) (text ++ rest)

section

variable {text other lexeme : Bytes} {tokens more : List Token} {token : Token}

theorem Lays.nil : Lays [] [] :=
  fun _ _ laid => laid

theorem Lays.append (first : Lays text tokens) (second : Lays other more) :
    Lays (text ++ other) (tokens ++ more) := by
  intro later rest laid
  rw [List.append_assoc, List.append_assoc]
  exact first _ _ (second _ _ laid)

theorem Lays.blank {octet : UInt8} (blank : isBlank octet = true) (lays : Lays text tokens) :
    Lays (octet :: text) tokens :=
  fun _ _ laid => .blank blank (lays _ _ laid)

theorem Lays.mark {octet : UInt8} (member : (octet, token) ∈ punctuation)
    (lays : Lays text tokens) : Lays (octet :: text) (token :: tokens) :=
  fun _ _ laid => laid_mark member (lays _ _ laid)

/-- A comment, with the end of its line. -/
theorem Lays.comment {remark : Bytes} (sameLine : newline ∉ remark) (lays : Lays text tokens) :
    Lays (hash :: (remark ++ newline :: text)) tokens := by
  intro later rest laid
  have ended := Laid.comment sameLine (.blank (by decide) (lays _ _ laid))
  simpa using ended

/-- No word goes on with the character. -/
def EndsWord (octet : UInt8) : Prop :=
  isWordOctet octet = false ∧ octet ≠ doubleQuote

theorem endsWord_blank : EndsWord 32 :=
  ⟨by decide, by decide⟩

theorem endsWord_newline : EndsWord newline :=
  ⟨by decide, by decide⟩

theorem endsWord_semicolon : EndsWord semicolon :=
  ⟨by decide, by decide⟩

theorem endsWord_slash : EndsWord slash :=
  ⟨by decide, by decide⟩

theorem Lays.word {octet : UInt8} (word : WordText token lexeme)
    (ends : EndsWord octet) (lays : Lays (octet :: text) tokens) :
    Lays (lexeme ++ octet :: text) (token :: tokens) := by
  intro later rest laid
  have separated : Separated (octet :: text ++ rest) := by
    rintro first ⟨⟩
    exact ends
  rw [List.append_assoc]
  exact word.laid separated (lays _ _ laid)

theorem Lays.quoted {inside : Bytes} (quoted : isQuotedText inside = true)
    (lays : Lays text tokens) :
    Lays (doubleQuote :: (inside ++ doubleQuote :: text))
      (.str (.quoted .plain inside quoted) :: tokens) := by
  intro later rest laid
  have marked := @laid_quoted _ _ .plain inside quoted (lays _ _ laid)
  simpa [StringText.yytext, QuoteMark.octets] using marked

end

/-! ## Settings -/

/-- The token of a value. -/
inductive ValueToken : Value → Token → Prop
  | flag (on : Bool) : ValueToken (.flag on) (.switch on)
  | number {value : Nat} (small : value < 2 ^ 32) :
      ValueToken (.number value) (.num (numberText value))
  | lifetime (value : UInt32) : ValueToken (lifetime value) (lifetimeText value).token
  | low : ValueToken (.preference .low) (.snum .low)
  | medium : ValueToken (.preference .medium) (.snum .medium)
  | high : ValueToken (.preference .high) (.snum .high)
  | text {octets : Bytes} (quoted : isQuotedText octets = true) :
      ValueToken (.text octets) (.str (.quoted .plain octets quoted))

theorem wordText_decimal {value : Nat} (small : value < 2 ^ 32) :
    WordText (.num (numberText value)) (decimal value) := by
  have fits : (numberText value).num ≠ none := by
    rw [num_numberText small]
    simp
  rw [← octets_numberText]
  exact wordText_num fits

theorem ascii_quote : ascii "\"" = [doubleQuote] := by
  decide

theorem lays_value {value : Value} {token : Token} {octet : UInt8} {text : Bytes}
    {tokens : List Token} (scanned : ValueToken value token) (ends : EndsWord octet)
    (lays : Lays (octet :: text) tokens) :
    Lays (value.printed ++ octet :: text) (token :: tokens) := by
  have name : ∀ {name : String} {token : Token}, (name, token) ∈ named →
      Lays (ascii name ++ octet :: text) (token :: tokens) :=
    fun member => lays.word (wordText_named member rfl) ends
  cases scanned with
  | flag on => cases on <;> exact name (by simp [named])
  | number small => exact lays.word (wordText_decimal small) ends
  | lifetime value =>
      unfold lifetime lifetimeText
      split
      · exact name (by simp [named, NumberOrInfinity.token])
      · exact lays.word (wordText_decimal value.toNat_lt) ends
  | low => exact name (by simp [named, Preference.text])
  | medium => exact name (by simp [named, Preference.text])
  | high => exact name (by simp [named, Preference.text])
  | text quoted =>
      have marked := lays.quoted quoted
      simpa [Value.printed, ascii_quote] using marked

/-- The line of a setting has the tokens of a statement. -/
inductive SettingTokens : Statement → List Token → Prop
  | setting {keyword : Keyword} {word : Word} {value : Value} {token : Token}
      (same : keyword.text = word.text) (scanned : ValueToken value token) :
      SettingTokens (.setting keyword value) [.word word, token, .semicolon]

theorem lays_indent {text : Bytes} {tokens : List Token} (within : Option Definition)
    (lays : Lays text tokens) :
    Lays (ascii (if within.isSome then "\t\t" else "\t") ++ text) tokens := by
  have tab : isBlank 9 = true := by decide
  have one : ascii "\t" = [9] := by decide
  have two : ascii "\t\t" = [9, 9] := by decide
  cases within with
  | none =>
      rw [Option.isSome_none, if_neg Bool.false_ne_true, one]
      exact lays.blank tab
  | some definition =>
      rw [Option.isSome_some, if_pos rfl, two]
      exact (lays.blank tab).blank tab

theorem lays_lineEnd (value : Value) :
    Lays (ascii (if value = .infinity then "; # (0xffffffff)\n" else ";\n")) [.semicolon] := by
  have mark : (semicolon, Token.semicolon) ∈ punctuation := by simp [punctuation]
  split
  · have text : ascii "; # (0xffffffff)\n" =
        semicolon :: 32 :: hash :: (ascii " (0xffffffff)" ++ newline :: []) := by decide
    rw [text]
    exact .mark mark (.blank (by decide) (.comment (by decide) .nil))
  · have text : ascii ";\n" = [semicolon, newline] := by decide
    rw [text]
    exact .mark mark (.blank (by decide) .nil)

theorem lays_setting {texts : Texts} {within : Option Definition} {statement : Statement}
    {tokens : List Token} (setting : SettingTokens statement tokens) :
    Lays (texts.statement within statement) tokens := by
  cases setting with
  | @setting keyword word value token same scanned =>
      have blank : ascii " " = [32] := by decide
      have ending := lays_lineEnd value
      have line : ∃ text, ascii (if value = .infinity then "; # (0xffffffff)\n" else ";\n") =
          semicolon :: text := by
        split
        · exact ⟨_, rfl⟩
        · exact ⟨_, rfl⟩
      rcases line with ⟨text, shape⟩
      rw [shape] at ending
      have valued := lays_value scanned endsWord_semicolon ending
      have named := Lays.word (wordText_keyword (congrArg lowered same)) endsWord_blank
        (valued.blank (by decide))
      have indented := lays_indent within named
      simpa [Texts.statement, shape, blank] using indented

/-! ## Blocks -/

/-- The scanner reads the text of the address. -/
def Texts.Shows (texts : Texts) (addr : In6Addr) : Prop :=
  texts.addrtostr addr ∈ Grammar.addr.matches' ∧ inetPton (texts.addrtostr addr) = some addr

/-- The scanner reads every address that does not begin with a group of zero. -/
theorem shows_of_inetNtop {texts : Texts} (libc : texts.addrtostr = inetNtop) {addr : In6Addr}
    (begins : BeginsNonzero addr) : texts.Shows addr := by
  rw [Texts.Shows, libc]
  exact ⟨inetNtop_mem begins, inetPton_inetNtop begins⟩

/-- The string is a word that the scanner takes for no other token. -/
structure PlainWord (word : Bytes) : Prop where
  filled : word ≠ []
  octets : ∀ octet ∈ word, isWordOctet octet
  notComment : word.head? ≠ some hash
  unnamed : Unnamed word

theorem PlainWord.wordText {word : Bytes} (plain : PlainWord word) :
    WordText (.str (.word word plain.filled plain.octets)) word :=
  ⟨plain.filled, plain.octets, plain.notComment,
    wordToken_string plain.filled plain.octets plain.unnamed⟩

theorem Texts.Shows.wordText {texts : Texts} {addr : In6Addr} (shows' : texts.Shows addr) :
    WordText (.addr addr) (texts.addrtostr addr) :=
  wordText_addr shows'.1 shows'.2

section

variable {texts : Texts} {text : Bytes} {tokens : List Token}

theorem ascii_slash : ascii "/" = [slash] := by
  decide

theorem lays_network {addr : In6Addr} {len : Nat} (shown : texts.Shows addr)
    (small : len < 2 ^ 32) (lays : Lays (newline :: text) tokens) :
    Lays (32 :: (texts.addrtostr addr ++ (ascii "/" ++ decimal len)) ++ newline :: text)
      (network addr (numberText len) ++ tokens) := by
  have length := lays.word (wordText_decimal small) endsWord_newline
  have marked := length.mark (by simp [punctuation] : (slash, Token.slash) ∈ punctuation)
  have whole := (marked.word shown.wordText endsWord_slash).blank (by decide : isBlank 32 = true)
  simpa [network, ascii_slash] using whole

/-- Words with a blank before each. -/
theorem lays_spaced {α : Type} {word : α → Bytes} {token : α → Token} {values : List α}
    (scanned : ∀ value ∈ values, WordText (token value) (word value))
    (lays : Lays (newline :: text) tokens) :
    Lays (spaced (values.map word) ++ newline :: text) (values.map token ++ tokens) := by
  induction values with
  | nil => exact lays
  | cons value values ih =>
      rw [List.forall_mem_cons] at scanned
      have later := ih scanned.2
      have next : ∃ octet behind, EndsWord octet ∧
          spaced (values.map word) ++ newline :: text = octet :: behind := by
        cases values with
        | nil => exact ⟨newline, text, endsWord_newline, rfl⟩
        | cons => exact ⟨32, _, endsWord_blank, rfl⟩
      rcases next with ⟨octet, behind, ends, same⟩
      rw [same] at later
      have whole := (later.word scanned.1 ends).blank (by decide : isBlank 32 = true)
      simpa [spaced, ← same] using whole

/-- A line that opens a block. -/
structure Opening (texts : Texts) (definition : Definition) (word : Word) (arguments : List Token) :
    Prop where
  nested : definition ≠ .interface
  same : definition.keyword = word.text
  lays : ∀ text tokens, Lays (newline :: text) tokens →
    Lays (texts.arguments definition ++ newline :: text) (arguments ++ tokens)
  begins : (texts.arguments definition).head? = some 32

theorem lays_opens {definition : Definition} {word : Word} {arguments : List Token}
    (opening : Opening texts definition word arguments) (within : Option Definition)
    (lays : Lays text tokens) :
    Lays (texts.statement within (.opens definition) ++ text)
      (.word word :: (arguments ++ .opening :: tokens)) := by
  have line : ascii "\n\t" = [newline, 9] := by decide
  have brace : ascii "\n\t\x7b\n" = [newline, 9, openingBrace, newline] := by decide
  have open' : (openingBrace, Token.opening) ∈ punctuation := by simp [punctuation]
  have opened := ((((lays.blank (by decide : isBlank newline = true)).mark open').blank
    (by decide : isBlank 9 = true)).blank (by decide : isBlank newline = true))
  have argued := opening.lays _ _ opened
  have begins := opening.begins
  rcases begun : texts.arguments definition with _ | ⟨octet, behind⟩
  · rw [begun] at begins
    cases begins
  · rw [begun] at begins
    have first : octet = 32 := Option.some.inj begins
    rw [begun, first, List.cons_append] at argued
    have named := argued.word (wordText_keyword (congrArg lowered opening.same)) endsWord_blank
    have whole := (named.blank (by decide : isBlank 9 = true)).blank
      (by decide : isBlank newline = true)
    rw [statement_opens opening.nested]
    simpa [line, brace, begun, first] using whole

theorem lays_closes (within : Option Definition) (lays : Lays text tokens) :
    Lays (texts.statement within .closes ++ text) (.closing :: .semicolon :: tokens) := by
  have brace : (closingBrace, Token.closing) ∈ punctuation := by simp [punctuation]
  have mark : (semicolon, Token.semicolon) ∈ punctuation := by simp [punctuation]
  cases within with
  | none =>
      have shape : texts.statement none .closes = closingBrace :: semicolon :: 32 :: hash ::
          (ascii " End of interface definition" ++ [newline]) := by
        with_unfolding_all rfl
      have ended := (((lays.comment (by decide :
        newline ∉ ascii " End of interface definition")).blank
        (by decide : isBlank 32 = true)).mark mark).mark brace
      rw [shape]
      simpa using ended
  | some definition =>
      have sameLine : newline ∉ ascii " End of " ++ (ascii definition.keyword ++
          ascii " definition") := by
        cases definition <;> simp only [Definition.keyword] <;> decide
      have shape : texts.statement (some definition) .closes =
          9 :: closingBrace :: semicolon :: 32 :: hash ::
            (ascii " End of " ++ (ascii definition.keyword ++ ascii " definition")) ++
              [newline, newline] := by
        have before : ascii "\t\x7d; # End of " =
            [9, closingBrace, semicolon, 32, hash] ++ ascii " End of " := by decide
        have after : ascii " definition\n\n" = ascii " definition" ++ [newline, newline] := by
          decide
        simp [Texts.statement, before, after]
      have ended := ((((((lays.blank (by decide : isBlank newline = true))).comment
        sameLine).blank (by decide : isBlank 32 = true)).mark mark).mark brace).blank
          (by decide : isBlank 9 = true)
      rw [shape]
      simpa using ended

/-- The settings of a block. -/
theorem lays_settings {within : Option Definition} {settings : List Statement}
    {parts : List (List Token)} (printed : List.Forall₂ SettingTokens settings parts)
    {more : List Statement} (lays : Lays (texts.render within more) tokens) :
    Lays (texts.render within (settings ++ more)) (parts.flatten ++ tokens) := by
  induction printed with
  | nil => exact lays
  | @cons setting part settings parts here _ ih =>
      have same : setting.within within = within := by
        cases here
        rfl
      rw [List.cons_append, Texts.render, same, List.flatten_cons, List.append_assoc]
      exact (lays_setting here).append ih

/-- A block. -/
theorem lays_block {definition : Definition} {word : Word} {arguments : List Token}
    {settings more : List Statement} {parts : List (List Token)}
    (opening : Opening texts definition word arguments)
    (printed : List.Forall₂ SettingTokens settings parts)
    (lays : Lays (texts.render none more) tokens) :
    Lays (texts.render none (.opens definition :: (settings ++ .closes :: more)))
      (.word word :: (arguments ++ .opening ::
        (parts.flatten ++ .closing :: .semicolon :: tokens))) := by
  have within : (Statement.opens definition).within none = some definition := by
    cases definition with
    | interface => exact absurd rfl opening.nested
    | _ => rfl
  rw [Texts.render, within]
  apply lays_opens opening
  apply lays_settings printed
  rw [Texts.render]
  exact lays_closes _ lays

end

/-! ## Interfaces -/

/-- The statements, outside of blocks, are printed as the tokens of the parameters. -/
def PrintedAs (texts : Texts) (statements : List Statement) (params : List Ifaceparam) : Prop :=
  ∃ parts, List.Forall₂ Ifaceparam.Yields params parts ∧
    ∀ more tokens, Lays (texts.render none more) tokens →
      Lays (texts.render none (statements ++ more)) (parts.flatten ++ tokens)

section

variable {texts : Texts} {statements others : List Statement} {params more : List Ifaceparam}

theorem PrintedAs.nil : PrintedAs texts [] [] :=
  ⟨[], .nil, fun _ _ lays => lays⟩

theorem PrintedAs.append (first : PrintedAs texts statements params)
    (second : PrintedAs texts others more) :
    PrintedAs texts (statements ++ others) (params ++ more) := by
  rcases first with ⟨parts, yields, lays⟩
  rcases second with ⟨partsOther, yieldsOther, laysOther⟩
  refine ⟨parts ++ partsOther, List.rel_append yields yieldsOther, ?_⟩
  intro later tokens laysLater
  rw [List.append_assoc, List.flatten_append, List.append_assoc]
  exact lays _ _ (laysOther _ _ laysLater)

/-- The settings of an interface. -/
theorem printedAs_settings {settings : List Statement} {values : List Ifaceval}
    (printed : List.Forall₂ (fun setting value => SettingTokens setting
      (Ifaceval.parms.tokens value)) settings values) :
    PrintedAs texts settings (values.map .ifaceval) := by
  refine ⟨values.map Ifaceval.parms.tokens, ?_, ?_⟩
  · rw [List.forall₂_map_right_iff, List.forall₂_map_left_iff, List.forall₂_same]
    intro value _
    exact ⟨_, rfl, rfl⟩
  · intro later tokens lays
    exact lays_settings (List.forall₂_map_right_iff.mpr printed) lays

theorem printedAs_block {α : Type} {parms : Parms α} {definition : Definition} {word : Word}
    {arguments : List Token} {settings : List Statement} {values : List α} {param : Ifaceparam}
    (opening : Opening texts definition word arguments)
    (printed : List.Forall₂ (fun setting value => SettingTokens setting (parms.tokens value))
      settings values)
    (yields : param.Yields (.word word :: (arguments ++ .opening :: parms.closed values))) :
    PrintedAs texts (.opens definition :: (settings ++ [.closes])) [param] := by
  refine ⟨_, .cons yields .nil, ?_⟩
  intro later tokens lays
  have block := lays_block opening (List.forall₂_map_right_iff.mpr printed) lays
  simpa [Parms.closed, List.flatMap_def] using block

theorem newline_notMem_addrtostr (texts : Texts) (addr : In6Addr) :
    newline ∉ texts.addrtostr addr := by
  intro inside
  exact absurd (texts.isAddrOctet_addrtostr addr newline inside) (by decide)

theorem newline_notMem_ifName (texts : Texts) : newline ∉ texts.ifName := by
  intro inside
  exact absurd (texts.isWordOctet_ifName newline inside) (by decide)

theorem lays_preamble {text : Bytes} {tokens : List Token} (lays : Lays text tokens) :
    Lays (texts.preamble ++ text) tokens := by
  have line : isBlank newline = true := by decide
  have title : ascii "#\n# radvd configuration generated by radvdump " =
      hash :: newline :: hash :: ascii " radvd configuration generated by radvdump " := by
    with_unfolding_all rfl
  have source : ascii "\n# based on Router Advertisement from " =
      newline :: hash :: ascii " based on Router Advertisement from " := by
    with_unfolding_all rfl
  have receiver : ascii "\n# received by interface " =
      newline :: hash :: ascii " received by interface " := by
    with_unfolding_all rfl
  have ending : ascii "\n#\n\n" = [newline, hash, newline, newline] := by decide
  have version : newline ∉ ascii " radvd configuration generated by radvdump " ++
      texts.version := by
    rw [List.mem_append, not_or]
    exact ⟨by decide, texts.newline_notMem_version⟩
  have sender : newline ∉ ascii " based on Router Advertisement from " ++
      texts.addrtostr texts.source := by
    rw [List.mem_append, not_or]
    exact ⟨by decide, newline_notMem_addrtostr texts texts.source⟩
  have name : newline ∉ ascii " received by interface " ++ texts.ifName := by
    rw [List.mem_append, not_or]
    exact ⟨by decide, newline_notMem_ifName texts⟩
  have last := (lays.blank line).comment (List.not_mem_nil : newline ∉ [])
  have whole := (((last.comment name).comment sender).comment version).comment
    (List.not_mem_nil : newline ∉ [])
  simpa [Texts.preamble, title, source, receiver, ending] using whole

/-- The line that opens the interface, and the statement after it. -/
theorem lays_interface {text : Bytes} {tokens : List Token} (named : PlainWord texts.ifName)
    (lays : Lays text tokens) :
    Lays (texts.statement none (.opens .interface) ++ text)
      ([.word .tInterface, .str (.word texts.ifName named.filled named.octets), .opening,
        .word .tAdvSendAdvert, .switch true, .semicolon] ++ tokens) := by
  have brace : (openingBrace, Token.opening) ∈ punctuation := by simp [punctuation]
  have mark : (semicolon, Token.semicolon) ∈ punctuation := by simp [punctuation]
  have tab : isBlank 9 = true := by decide
  have blank : isBlank 32 = true := by decide
  have line : isBlank newline = true := by decide
  have first : ascii "\n\x7b\n\tAdvSendAdvert on;\n" = newline :: openingBrace :: newline :: 9 ::
      (ascii Word.tAdvSendAdvert.text ++ 32 :: (ascii "on" ++ semicolon :: [newline])) := by
    with_unfolding_all rfl
  have second : ascii "\t# Note: \x7bMin,Max\x7dRtrAdvInterval cannot be obtained with radvdump\n" =
      9 :: hash :: (ascii " Note: \x7bMin,Max\x7dRtrAdvInterval cannot be obtained with radvdump" ++
        [newline]) := by
    with_unfolding_all rfl
  have sameLine : newline ∉
      ascii " Note: \x7bMin,Max\x7dRtrAdvInterval cannot be obtained with radvdump" := by
    decide
  have note := (((lays.comment sameLine).blank tab).blank line).mark mark
  have turnedOn : WordText (.switch true) (ascii "on") :=
    wordText_named (by simp [Grammar.named] : ("on", Token.switch true) ∈ Grammar.named) rfl
  have setting := (note.word turnedOn endsWord_semicolon).blank blank
  have keyword : WordText (.word .tAdvSendAdvert) (ascii Word.tAdvSendAdvert.text) :=
    wordText_keyword rfl
  have body := ((setting.word keyword endsWord_blank).blank tab).blank line
  have opened := ((body.mark brace).blank line)
  have name := (opened.word named.wordText endsWord_newline).blank blank
  have interface : WordText (.word .tInterface) (ascii "interface") :=
    wordText_keyword rfl
  have whole := @lays_preamble texts _ _ (name.word interface endsWord_blank)
  simpa [Texts.statement, Texts.arguments, first, second] using whole

/-- The tree of the interface. -/
def printedTree (named : PlainWord texts.ifName) (params : List Ifaceparam) : Ifacedef :=
  ⟨.word texts.ifName named.filled named.octets, .ifaceval (.advSendAdvert true) :: params⟩

/-- What is printed is read as its tree. -/
theorem readinFile_printed (named : PlainWord texts.ifName)
    (printed : PrintedAs texts statements params) :
    readinFile (texts.render none (.opens .interface :: (statements ++ [.closes]))) =
      (readinConfig (printedTree named params) []).toOption := by
  rcases printed with ⟨parts, yields, lays⟩
  have closed : Lays (texts.render none [.closes]) [.closing, .semicolon] := by
    have ending := @lays_closes texts _ _ none Lays.nil
    simpa [Texts.render] using ending
  have whole := lays_interface named (lays _ _ closed) [] [] .nil
  have first : (Ifaceparam.ifaceval (.advSendAdvert true)).Yields
      [.word .tAdvSendAdvert, .switch true, .semicolon] :=
    ⟨_, rfl, rfl⟩
  have derived : Yields (printedTree named params) []
      ([.word .tInterface, .str (.word texts.ifName named.filled named.octets), .opening] ++
        ([.word .tAdvSendAdvert, .switch true, .semicolon] :: parts).flatten ++
          [.closing, .semicolon]) := by
    refine ⟨_, .cons ⟨_, .cons first yields, rfl⟩ .nil, ?_⟩
    simp [printedTree]
  have laid : Laid ([.word .tInterface, .str (.word texts.ifName named.filled named.octets),
      .opening] ++ ([.word .tAdvSendAdvert, .switch true, .semicolon] :: parts).flatten ++
        [.closing, .semicolon])
      (texts.render none (.opens .interface :: (statements ++ [.closes]))) := by
    simpa [Texts.render, Statement.within] using whole
  exact readinFile_of_laid laid derived

end

end Radvd.Dump
