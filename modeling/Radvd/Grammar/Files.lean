import Mathlib.Data.List.TakeWhile
import Radvd.Grammar.Addresses
import Radvd.Grammar.Layout
import Radvd.Grammar.Parser

/-!
# Configuration files

`readin_config` on the text of a file. It accepts a file that is laid out as the
tokens of a derivation whose actions succeed, and no other one
(`readinFile_eq_some_iff`), and what it makes of a file depends on the tokens alone.

Tokens are written one after the other with blanks between them, addresses in full.
A file with the tokens of a tree is read as this tree (`yyparse_written`).
-/

namespace Radvd.Grammar

open Wire Dump Computability
open RegularExpression hiding plus
open Flex

/-- `readin_config`, which returns nothing for a file that it refuses. -/
def readinFile (text : Bytes) : Option (List Interface) :=
  (yyparse (yylex text)).bind fun tree => (readinConfig tree.1 tree.2).toOption

theorem readinFile_of_laid {tokens : List Token} {text : Bytes} {first : Ifacedef}
    {rest : List Ifacedef} (laid : Laid tokens text) (yields : Yields first rest tokens) :
    readinFile text = (readinConfig first rest).toOption := by
  rw [readinFile, yylex_of_laid laid, yyparse_eq_some_iff.mpr yields]
  rfl

theorem exists_of_readinFile {text : Bytes} {ifaces : List Interface}
    (read : readinFile text = some ifaces) : ∃ tokens first rest, Laid tokens text ∧
      Yields first rest tokens ∧ readinConfig first rest = .ok ifaces := by
  rw [readinFile, Option.bind_eq_some_iff] at read
  rcases read with ⟨⟨first, rest⟩, parsed, accepted⟩
  have yields := yyparse_eq_some_iff.mp parsed
  refine ⟨yylex text, first, rest, (laid_iff yields.bad_notMem).mpr rfl, yields, ?_⟩
  rcases result : readinConfig first rest with refusal | list
  · rw [result] at accepted
    cases accepted
  · rw [result] at accepted
    cases accepted
    rfl

theorem readinFile_eq_some_iff {text : Bytes} {ifaces : List Interface} :
    readinFile text = some ifaces ↔ ∃ tokens first rest, Laid tokens text ∧
      Yields first rest tokens ∧ readinConfig first rest = .ok ifaces := by
  constructor
  · exact exists_of_readinFile
  · rintro ⟨tokens, first, rest, laid, yields, accepted⟩
    rw [readinFile_of_laid laid yields, accepted]
    rfl

/-! ## Writing -/

def digitOctet (digit : Fin 10) : UInt8 :=
  UInt8.ofNat (48 + digit.val)

def NumberText.octets (text : NumberText) : Bytes :=
  text.digits.map digitOctet

def Token.written : Token → Bytes
  | .word keyword => ascii keyword.text
  | .str text => text.yytext
  | .num text => text.octets
  | .snum (.minus digits) => minusSign :: digits.octets
  | .snum .low => ascii "low"
  | .snum .medium => ascii "medium"
  | .snum .high => ascii "high"
  | .dec whole fraction => whole.octets ++ dot :: fraction.octets
  | .switch value => ascii (if value then "on" else "off")
  | .addr address => fullText address
  | .notAddr address => exclamation :: fullText address
  | .infinity => ascii "infinity"
  | .opening => [openingBrace]
  | .closing => [closingBrace]
  | .semicolon => [Dump.semicolon]
  | .slash => [Dump.slash]
  | .bad => []

/-- What can be written: numbers of 32 bits, and words that no other rule takes and
that do not begin like a comment. -/
def Token.Writable : Token → Prop
  | .str (.word text _ _) => Unnamed text ∧ text.head? ≠ some hash
  | .str (.quoted _ _ _) => True
  | .num text => text.num ≠ none
  | .bad => False
  | _ => True

theorem digitOf_digitOctet (digit : Fin 10) : digitOf (digitOctet digit) = some digit := by
  revert digit
  decide

theorem isDigit_digitOctet (digit : Fin 10) : isDigit (digitOctet digit) = true := by
  revert digit
  decide

theorem numberOf_octets (text : NumberText) : numberOf text.octets = some text := by
  have all : ∀ digits : List (Fin 10), (digits.map digitOctet).mapM digitOf = some digits := by
    intro digits
    induction digits with
    | nil => rfl
    | cons digit digits ih => simp [digitOf_digitOctet, ih]
  rw [numberOf, NumberText.octets, all, NumberText.digits]

theorem octets_mem_number (text : NumberText) : text.octets ∈ number.matches' := by
  rw [mem_number]
  refine ⟨by simp [NumberText.octets, NumberText.digits], ?_⟩
  intro octet member
  rcases List.mem_map.mp member with ⟨digit, -, rfl⟩
  exact isDigit_digitOctet digit

/-! ### Tokens -/

/-- A word for the token, which does not begin like a comment. -/
structure WordText (token : Token) (lexeme : Bytes) : Prop where
  filled : lexeme ≠ []
  octets : ∀ octet ∈ lexeme, isWordOctet octet = true
  notComment : lexeme.head? ≠ some hash
  token : wordToken lexeme = token

/-- A character that ends a word comes next. -/
def Separated (rest : Bytes) : Prop :=
  ∀ octet ∈ rest.head?, isWordOctet octet = false ∧ octet ≠ doubleQuote

section

variable {tokens : List Token} {lexeme rest : Bytes} {token : Token}

theorem WordText.laid (text : WordText token lexeme) (separated : Separated rest)
    (laid : Laid tokens rest) : Laid (token :: tokens) (lexeme ++ rest) := by
  rw [← text.token]
  refine .word text.filled text.octets ⟨?_, ?_, ?_⟩ laid
  · intro octet atHead
    exact (separated octet atHead).1
  · intro quote
    exact absurd rfl (separated doubleQuote quote).2
  · intro comment
    exact absurd comment text.notComment

theorem wordText_name {text : String} (member : lowered text ∈ names)
    (same : lexeme.map toLower = lowered text) (scanned : wordToken lexeme = token) :
    WordText token lexeme := by
  have word := word_of_name member same
  refine ⟨word.1, word.2, ?_, scanned⟩
  intro comment
  rw [← same] at member
  exact notMem_names_of_head comment (by decide) member

theorem wordText_keyword {keyword : Word} (same : lexeme.map toLower = lowered keyword.text) :
    WordText (.word keyword) lexeme :=
  wordText_name (keyword_mem_names keyword) same (wordToken_keyword same)

theorem wordText_named {value : String × Token} (member : value ∈ named)
    (same : lexeme.map toLower = lowered value.1) : WordText value.2 lexeme :=
  wordText_name (named_mem_names member) same (wordToken_named member same)

theorem wordText_value {rule : Rule UInt8 Token} (member : rule ∈ valueRules)
    (matched : lexeme ∈ rule.pattern.matches') (filled : lexeme ≠ [])
    (notComment : lexeme.head? ≠ some hash) (scanned : wordToken lexeme = token) :
    WordText token lexeme :=
  ⟨filled, (over_valueRules member).of_mem matched, notComment, scanned⟩

theorem notComment_octets (text : NumberText) (rest : Bytes) :
    (text.octets ++ rest).head? ≠ some hash := by
  intro comment
  have digit := isDigit_digitOctet text.first
  rw [Option.some.inj comment] at digit
  exact absurd digit (by decide)

theorem wordText_num {text : NumberText} (fits : text.num ≠ none) :
    WordText (.num text) text.octets := by
  have member : rule number numberAction ∈ valueRules := by simp [valueRules]
  have matched := octets_mem_number text
  have notComment := notComment_octets text []
  rw [List.append_nil] at notComment
  apply wordText_value member matched (mem_number.mp matched).1 notComment
  rw [wordToken_number matched, numberAction, numberOf_octets, Option.bind_some]
  rcases value : text.num with _ | value
  · exact absurd value fits
  · rfl

theorem wordText_minus (digits : NumberText) :
    WordText (.snum (.minus digits)) (minusSign :: digits.octets) := by
  have member : rule snum snumAction ∈ valueRules := by simp [valueRules]
  have matched := octets_mem_number digits
  have inSnum := mem_snum.mpr (.inr ⟨_, matched, rfl⟩)
  apply wordText_value member inSnum (List.cons_ne_nil _ _) (by simp [minusSign, Dump.hash])
  rw [wordToken_snum matched, snumAction, List.tail_cons, numberOf_octets]
  rfl

theorem wordText_dec (whole fraction : NumberText) :
    WordText (.dec whole fraction) (whole.octets ++ dot :: fraction.octets) := by
  have member : rule decimalNumber decimalAction ∈ valueRules := by simp [valueRules]
  have matched := mem_decimal.mpr
    ⟨_, octets_mem_number whole, _, octets_mem_number fraction, rfl⟩
  apply wordText_value member matched (by simp) (notComment_octets whole _)
  have noDot : ∀ octet ∈ whole.octets, decide (octet ≠ dot) = true := by
    intro octet inWhole
    have digit := (mem_number.mp (octets_mem_number whole)).2 octet inWhole
    rw [decide_eq_true_eq]
    rintro rfl
    exact absurd digit (by decide)
  rw [wordToken_decimal matched, decimalAction, List.takeWhile_append_of_pos noDot,
    List.dropWhile_append_of_pos noDot, List.takeWhile_cons_of_neg (by simp),
    List.dropWhile_cons_of_neg (by simp), List.append_nil, List.tail_cons, numberOf_octets,
    numberOf_octets]
  rfl

theorem wordText_addr {address : In6Addr} (matched : lexeme ∈ Grammar.addr.matches')
    (read : inetPton lexeme = some address) : WordText (.addr address) lexeme := by
  have member : rule Grammar.addr addrAction ∈ valueRules := by simp [valueRules]
  have octets := (over_addr addr_octets_ne_hash).of_mem matched
  apply wordText_value member matched
  · rintro rfl
    cases colon_mem_of_addr matched
  · intro comment
    exact octets hash (List.mem_of_mem_head? comment) rfl
  · rw [wordToken_addr matched, addrAction, read]
    rfl

theorem wordText_naddr {address : In6Addr} (matched : lexeme ∈ Grammar.addr.matches')
    (read : inetPton lexeme = some address) :
    WordText (.notAddr address) (exclamation :: lexeme) := by
  have member : rule naddr naddrAction ∈ valueRules := by simp [valueRules]
  have inNaddr := mem_naddr.mpr ⟨_, matched, rfl⟩
  apply wordText_value member inNaddr (List.cons_ne_nil _ _) (by simp [exclamation, Dump.hash])
  rw [wordToken_naddr matched, naddrAction, List.tail_cons, read]
  rfl

theorem laid_mark {octet : UInt8} (member : (octet, token) ∈ punctuation)
    (laid : Laid tokens rest) : Laid (token :: tokens) (octet :: rest) :=
  .mark member laid

theorem laid_quoted {mark : QuoteMark} {inside : Bytes} (quoted : isQuotedText inside = true)
    (laid : Laid tokens rest) :
    Laid (.str (.quoted mark inside quoted) :: tokens)
      ((StringText.quoted mark inside quoted).yytext ++ rest) :=
  .quoted mark quoted laid

/-- The name of a value, as the scanner has it. -/
theorem laid_named {name : String} (member : (name, token) ∈ named)
    (separated : Separated rest) (laid : Laid tokens rest) :
    Laid (token :: tokens) (ascii name ++ rest) :=
  (wordText_named member rfl).laid separated laid

theorem laid_token (writable : token.Writable) (separated : Separated rest)
    (laid : Laid tokens rest) : Laid (token :: tokens) (token.written ++ rest) := by
  cases token with
  | word keyword => exact (wordText_keyword rfl).laid separated laid
  | str text =>
      cases text with
      | word text filled octets =>
          exact WordText.laid ⟨filled, octets, writable.2,
            wordToken_string filled octets writable.1⟩ separated laid
      | quoted mark inside quoted => exact laid_quoted quoted laid
  | num text => exact (wordText_num writable).laid separated laid
  | snum text =>
      cases text with
      | minus digits => exact (wordText_minus digits).laid separated laid
      | low => exact laid_named (by simp [named]) separated laid
      | medium => exact laid_named (by simp [named]) separated laid
      | high => exact laid_named (by simp [named]) separated laid
  | dec whole fraction => exact (wordText_dec whole fraction).laid separated laid
  | switch value => cases value <;> exact laid_named (by simp [named]) separated laid
  | addr address =>
      exact (wordText_addr (fullText_mem address) (inetPton_fullText address)).laid separated laid
  | notAddr address =>
      exact (wordText_naddr (fullText_mem address) (inetPton_fullText address)).laid separated laid
  | infinity => exact laid_named (by simp [named]) separated laid
  | opening => exact laid_mark (by simp [punctuation]) laid
  | closing => exact laid_mark (by simp [punctuation]) laid
  | semicolon => exact laid_mark (by simp [punctuation]) laid
  | slash => exact laid_mark (by simp [punctuation]) laid
  | bad => exact absurd writable id

end

/-- The tokens, with a blank after each. -/
def written (tokens : List Token) : Bytes :=
  tokens.flatMap fun token => token.written ++ [32]

theorem laid_written {tokens : List Token} (writable : ∀ token ∈ tokens, token.Writable) :
    Laid tokens (written tokens) := by
  induction tokens with
  | nil => exact .nil
  | cons token tokens ih =>
      rw [List.forall_mem_cons] at writable
      have later : Laid tokens (32 :: written tokens) := .blank (by decide) (ih writable.2)
      have separated : Separated (32 :: written tokens) := by
        rintro octet ⟨⟩
        decide
      have text : written (token :: tokens) = token.written ++ 32 :: written tokens := by
        simp [written]
      rw [text]
      exact laid_token writable.1 separated later

/-- A tree whose tokens can be written is read from its text. -/
theorem yyparse_written {tokens : List Token} {first : Ifacedef} {rest : List Ifacedef}
    (yields : Yields first rest tokens) (writable : ∀ token ∈ tokens, token.Writable) :
    yyparse (yylex (written tokens)) = some (first, rest) := by
  rw [yylex_of_laid (laid_written writable)]
  exact yyparse_eq_some_iff.mpr yields

theorem unnamed_brLan : Unnamed [98, 114, 45, 108, 97, 110] := by
  constructor
  · have hyphen : (45 : UInt8) ∈ ([98, 114, 45, 108, 97, 110] : Bytes) := by decide
    exact notMem_names hyphen (by decide)
  · exact valueRules_of_head (by decide) (by decide) (by decide) (by decide)

theorem exampleTokens_writable : ∀ token ∈ exampleTokens, token.Writable := by
  simp only [exampleTokens, exampleName, List.forall_mem_cons, Token.Writable]
  exact ⟨trivial, ⟨unnamed_brLan, by decide⟩, trivial, trivial, trivial, trivial, trivial, trivial,
    trivial, by decide, trivial, trivial, trivial, by simp⟩

theorem yyparse_written_exampleTokens :
    yyparse (yylex (written exampleTokens)) = some (exampleTree, []) :=
  yyparse_written exampleTokens_yields exampleTokens_writable

end Radvd.Grammar
