import Radvd.Dump.Text

/-!
# Reading a printed statement

What the reader of `Radvd.Dump.Text` makes of the text of one statement: the
marks of its format string, as long as no character of a search list that comes
before a comment means something to the reader (`reads_opens`, `reads_setting`,
`reads_closes`). Text that is escaped never ends a string (`reads_quoted`), so a
line of a search list with a mark or a quote either adds a mark or is lost in a
string (`written_or_quoted_of_harmful`).
-/

namespace Radvd.Dump

open Wire Tlv Transducer

/-! ## Reading a line -/

/-- The characters that mean something to the reader outside of comments. -/
def isSpecial (octet : UInt8) : Bool :=
  octet = openingBrace || octet = closingBrace || octet = semicolon || octet = doubleQuote

/-- The part of a line before its comment; `inWord` tells whether the line
begins inside a word. -/
def visible (inWord : Bool) : Bytes → Bytes
  | [] => []
  | octet :: rest =>
      if octet = hash && !inWord then [] else octet :: visible (isWordOctet octet) rest

/-- No character before the comment means something to the reader. -/
def Harmless (line : Bytes) : Prop :=
  ∀ octet ∈ visible false line, isSpecial octet = false

instance (line : Bytes) : Decidable (Harmless line) :=
  List.decidableBAll (fun octet => isSpecial octet = false) (visible false line)

/-- The mode after a character of a line. -/
def lineMode (inWord : Bool) : Mode :=
  if inWord then .word false else .between

theorem isSpecial_of_isWordOctet {octet : UInt8} (word : isWordOctet octet = true) :
    isSpecial octet = false ∧ isBlank octet = false := by
  constructor
  · simp only [isSpecial, Bool.or_eq_false_iff, decide_eq_false_iff_not]
    refine ⟨⟨⟨?_, ?_⟩, ?_⟩, ?_⟩ <;>
      · rintro rfl
        revert word
        decide
  · simp only [isBlank, Bool.or_eq_false_iff, decide_eq_false_iff_not]
    refine ⟨⟨?_, ?_⟩, ?_⟩ <;>
      · rintro rfl
        revert word
        decide

theorem ne_of_isSpecial_eq_false {octet : UInt8} (plain : isSpecial octet = false) :
    octet ≠ openingBrace ∧ octet ≠ closingBrace ∧ octet ≠ semicolon ∧ octet ≠ doubleQuote := by
  simpa only [isSpecial, Bool.or_eq_false_iff, decide_eq_false_iff_not, and_assoc] using plain

/-- A character without a meaning of its own keeps the first word and writes
nothing. -/
theorem nextScan_plain {inWord : Bool} {head : Bytes} {octet : UInt8}
    (plain : isSpecial octet = false) (noComment : octet = hash → inWord = true) :
    nextScan ⟨lineMode inWord, some head⟩ octet =
      ([], ⟨lineMode (isWordOctet octet), some head⟩) := by
  have distinct := ne_of_isSpecial_eq_false plain
  have begun : isWordOctet octet = false ∨ octet ≠ hash → beginToken (some head) octet =
      ([], ⟨lineMode (isWordOctet octet), some head⟩) := by
    intro allowed
    have notHash : octet ≠ hash := by
      rcases allowed with other | other
      · rintro rfl
        revert other
        decide
      · exact other
    unfold beginToken
    simp only [distinct.1, distinct.2.1, distinct.2.2.1, distinct.2.2.2, notHash, if_false,
      Option.getD_some, Option.isNone_some]
    by_cases word : isWordOctet octet = true
    · simp [word, (isSpecial_of_isWordOctet word).2, lineMode]
    · simp [word, lineMode]
  cases inWord with
  | false =>
      apply begun
      right
      intro isHash
      exact absurd (noComment isHash) (by decide)
  | true =>
      simp only [nextScan, lineMode, if_true]
      by_cases word : isWordOctet octet = true
      · simp [word]
      · simp only [word, if_false, Bool.false_eq_true]
        simp only [Bool.not_eq_true] at word
        rw [begun (.inl word), word]
        rfl

/-- The modes in which the end of a line ends what stands there. -/
def Mode.Quiet (mode : Mode) : Prop :=
  mode ≠ .quoted ∧ mode ≠ .escaped

theorem quiet_lineMode (inWord : Bool) : (lineMode inWord).Quiet := by
  cases inWord <;> simp [lineMode, Mode.Quiet]

theorem nextScan_newline {mode : Mode} (quiet : mode.Quiet) (head : Option Bytes) :
    nextScan ⟨mode, head⟩ newline = ([], ⟨.between, head⟩) := by
  cases mode with
  | between => rfl
  | word first => rfl
  | comment => rfl
  | quoted => exact absurd rfl quiet.1
  | escaped => exact absurd rfl quiet.2

theorem nextScan_comment {octet : UInt8} (sameLine : octet ≠ newline) (head : Option Bytes) :
    nextScan ⟨.comment, head⟩ octet = ([], ⟨.comment, head⟩) := by
  simp [nextScan, sameLine]

/-- Text in which no character means something to the reader. -/
def Plain (text : Bytes) : Prop :=
  ∀ octet ∈ text, isSpecial octet = false ∧ octet ≠ hash ∧ octet ≠ backslash ∧ octet ≠ newline

instance (text : Bytes) : Decidable (Plain text) :=
  List.decidableBAll _ text

theorem plain_append {first second : Bytes} :
    Plain (first ++ second) ↔ Plain first ∧ Plain second :=
  List.forall_mem_append

theorem plain_decimal (value : Nat) : Plain (decimal value) := by
  intro octet octetMem
  simp only [decimal, List.mem_map] at octetMem
  obtain ⟨character, characterMem, rfl⟩ := octetMem
  have digit := Nat.isDigit_of_mem_toDigits (by decide) (by decide) characterMem
  simp only [Char.isDigit, Bool.and_eq_true, decide_eq_true_eq] at digit
  have range : 48 ≤ character.toNat ∧ character.toNat ≤ 57 :=
    ⟨UInt32.le_iff_toNat_le.mp digit.1, UInt32.le_iff_toNat_le.mp digit.2⟩
  have digits : ∀ digit : Fin 10, isSpecial (UInt8.ofNat (48 + digit)) = false ∧
      UInt8.ofNat (48 + digit) ≠ hash ∧ UInt8.ofNat (48 + digit) ≠ backslash ∧
      UInt8.ofNat (48 + digit) ≠ newline := by decide
  have shown := digits ⟨character.toNat - 48, by omega⟩
  rwa [show 48 + (character.toNat - 48) = character.toNat by omega] at shown

theorem plain_signedDecimal (value : Int) : Plain (signedDecimal value) := by
  unfold signedDecimal
  apply plain_append.mpr
  refine ⟨?_, plain_decimal _⟩
  split <;> decide

theorem plain_addrtostr (texts : Texts) (addr : In6Addr) : Plain (texts.addrtostr addr) := by
  intro octet octetMem
  have printed := texts.isAddrOctet_addrtostr addr octet octetMem
  simp only [isAddrOctet, decide_eq_true_eq] at printed
  have plain : Plain (ascii "0123456789abcdef:.") := by decide
  exact plain octet printed

theorem reads_plain {text : Bytes} (plain : Plain text) (inWord : Bool) (head : Bytes) :
    ∃ ended, Reads nextScan ⟨lineMode inWord, some head⟩ text [] ⟨lineMode ended, some head⟩ := by
  induction text generalizing inWord with
  | nil => exact ⟨inWord, rfl⟩
  | cons octet rest ih =>
      have first := plain octet List.mem_cons_self
      obtain ⟨ended, read⟩ := ih (fun other otherMem =>
        plain other (List.mem_cons_of_mem octet otherMem)) (isWordOctet octet)
      refine ⟨ended, Reads.cons (nextScan_plain first.1 ?_) read⟩
      intro isHash
      exact absurd isHash first.2.1

theorem reads_harmless {line : Bytes} (inWord : Bool) (head : Bytes)
    (harmless : ∀ octet ∈ visible inWord line, isSpecial octet = false)
    (sameLine : newline ∉ line) :
    ∃ mode : Mode, mode.Quiet ∧
      Reads nextScan ⟨lineMode inWord, some head⟩ line [] ⟨mode, some head⟩ := by
  induction line generalizing inWord with
  | nil => exact ⟨lineMode inWord, quiet_lineMode inWord, rfl⟩
  | cons octet rest ih =>
      simp only [List.mem_cons, not_or] at sameLine
      unfold visible at harmless
      split at harmless
      · rename_i comment
        simp only [Bool.and_eq_true, decide_eq_true_eq, Bool.not_eq_true'] at comment
        rw [comment.1, comment.2]
        have begins : nextScan ⟨lineMode false, some head⟩ hash = ([], ⟨.comment, some head⟩) := rfl
        refine ⟨.comment, by simp [Mode.Quiet], Reads.cons begins ?_⟩
        apply Reads.of_stays
        intro other otherMem
        apply nextScan_comment
        rintro rfl
        exact sameLine.2 otherMem
      · rename_i noComment
        simp only [Bool.and_eq_true, decide_eq_true_eq, Bool.not_eq_true', not_and,
          Bool.not_eq_false] at noComment
        simp only [List.mem_cons, forall_eq_or_imp] at harmless
        obtain ⟨mode, quiet, read⟩ := ih (isWordOctet octet) harmless.2 sameLine.2
        exact ⟨mode, quiet, Reads.cons (nextScan_plain harmless.1 noComment) read⟩

/-! ## Escaped text -/

/-- Text in which every double quote is escaped. -/
inductive Escaped : Bytes → Prop
  | nil : Escaped []
  | plain {octet : UInt8} {rest : Bytes} (notQuote : octet ≠ doubleQuote)
      (notEscape : octet ≠ backslash) (escaped : Escaped rest) : Escaped (octet :: rest)
  | pair {octet : UInt8} {rest : Bytes} (escaped : Escaped rest) :
      Escaped (backslash :: octet :: rest)

theorem Escaped.append {first second : Bytes} (before : Escaped first) (after : Escaped second) :
    Escaped (first ++ second) := by
  induction before with
  | nil => exact after
  | plain notQuote notEscape escaped ih => exact Escaped.plain notQuote notEscape ih
  | pair escaped ih => exact Escaped.pair ih

theorem Escaped.of_forall {text : Bytes}
    (plain : ∀ octet ∈ text, octet ≠ doubleQuote ∧ octet ≠ backslash) : Escaped text := by
  induction text with
  | nil => exact .nil
  | cons octet rest ih =>
      have first := plain octet List.mem_cons_self
      apply Escaped.plain first.1 first.2
      exact ih fun other otherMem => plain other (List.mem_cons_of_mem octet otherMem)

theorem hexDigit_ne {value : Nat} (digit : value < 16) :
    hexDigit value ≠ doubleQuote ∧ hexDigit value ≠ backslash := by
  have digits : ∀ digit : Fin 16, hexDigit digit ≠ doubleQuote ∧ hexDigit digit ≠ backslash := by
    decide
  exact digits ⟨value, digit⟩

theorem escaped_sanitizedOctet (octet : UInt8) : Escaped (sanitizedOctet octet) := by
  have high := hexDigit_ne (show octet.toNat / 16 < 16 by have := octet.toNat_lt; omega)
  have low := hexDigit_ne (show octet.toNat % 16 < 16 by omega)
  unfold sanitizedOctet
  split
  · exact .pair .nil
  · rename_i ordinary
    simp only [Bool.or_eq_true, decide_eq_true_eq, not_or] at ordinary
    split
    · exact .plain ordinary.2 ordinary.1 .nil
    · exact .pair (.plain high.1 high.2 (.plain low.1 low.2 .nil))

theorem escaped_sanitized (octets : Bytes) : Escaped (sanitized octets) := by
  induction octets with
  | nil => exact .nil
  | cons octet rest ih => exact (escaped_sanitizedOctet octet).append ih

theorem isprint_hexDigit {value : Nat} (digit : value < 16) : isprint (hexDigit value) = true := by
  have digits : ∀ digit : Fin 16, isprint (hexDigit digit) = true := by decide
  exact digits ⟨value, digit⟩

theorem isprint_of_mem_sanitized {octets : Bytes} {octet : UInt8}
    (printed : octet ∈ sanitized octets) : isprint octet = true := by
  rcases List.mem_flatMap.mp printed with ⟨source, -, shown⟩
  unfold sanitizedOctet at shown
  split at shown
  · rename_i special
    simp only [Bool.or_eq_true, decide_eq_true_eq] at special
    simp only [List.mem_cons, List.not_mem_nil, or_false] at shown
    rcases shown with rfl | rfl
    · decide
    · rcases special with rfl | rfl <;> decide
  · split at shown
    · rename_i printable
      rw [List.mem_singleton.mp shown]
      exact printable
    · simp only [List.mem_cons, List.not_mem_nil, or_false] at shown
      rcases shown with rfl | rfl | rfl | rfl
      · decide
      · decide
      · exact isprint_hexDigit (by have := source.toNat_lt; omega)
      · exact isprint_hexDigit (by omega)

theorem newline_notMem_sanitized (octets : Bytes) : newline ∉ sanitized octets := by
  intro lineEnd
  have printable := isprint_of_mem_sanitized lineEnd
  revert printable
  decide

/-- Escaped text does not end a string. -/
theorem reads_quoted {text : Bytes} (escaped : Escaped text) (head : Option Bytes) :
    Reads nextScan ⟨.quoted, head⟩ text [] ⟨.quoted, head⟩ := by
  induction escaped with
  | nil => rfl
  | plain notQuote notEscape _ ih =>
      apply Reads.cons _ ih
      simp [nextScan, notQuote, notEscape]
  | pair _ ih =>
      have opens : nextScan ⟨.quoted, head⟩ backslash = ([], ⟨.escaped, head⟩) := rfl
      exact Reads.cons opens (Reads.cons rfl ih)

theorem nextScan_quiet {mode : Mode} {octet : UInt8} (quiet : mode.Quiet)
    (notQuote : octet ≠ doubleQuote) (head : Option Bytes) :
    (nextScan ⟨mode, head⟩ octet).2.mode.Quiet := by
  have begun : (beginToken head octet).2.mode.Quiet := by
    unfold beginToken
    simp only [notQuote, if_false]
    split_ifs <;> simp [Mode.Quiet]
  cases mode with
  | between => exact begun
  | word first =>
      simp only [nextScan]
      split
      · simp [Mode.Quiet]
      · exact begun
  | comment =>
      simp only [nextScan]
      split <;> simp [Mode.Quiet]
  | quoted => exact absurd rfl quiet.1
  | escaped => exact absurd rfl quiet.2

theorem nextScan_doubleQuote {mode : Mode} (quiet : mode.Quiet) (head : Option Bytes) :
    nextScan ⟨mode, head⟩ doubleQuote = ([], ⟨.comment, head⟩) ∨
      nextScan ⟨mode, head⟩ doubleQuote = ([], ⟨.quoted, some (head.getD [])⟩) := by
  cases mode with
  | between => exact .inr rfl
  | word first => exact .inr rfl
  | comment => exact .inl rfl
  | quoted => exact absurd rfl quiet.1
  | escaped => exact absurd rfl quiet.2

/-- After escaped text the reader is not between an escape and its character. -/
theorem quiet_or_quoted_of_escaped {text : Bytes} (escaped : Escaped text) {mode : Mode}
    (quiet : mode.Quiet) (head : Option Bytes) :
    (run nextScan ⟨mode, head⟩ text).2.mode.Quiet ∨
      (run nextScan ⟨mode, head⟩ text).2.mode = .quoted := by
  induction escaped generalizing mode head with
  | nil => exact .inl quiet
  | plain notQuote _ _ ih => exact ih (nextScan_quiet quiet notQuote head) _
  | @pair octet rest escaped ih =>
      have first := nextScan_quiet quiet (by decide : backslash ≠ doubleQuote) head
      simp only [run]
      generalize (nextScan ⟨mode, head⟩ backslash).2 = middle at first ⊢
      by_cases quote : octet = doubleQuote
      · rw [quote]
        rcases nextScan_doubleQuote first middle.head with comment | opens
        · rw [comment]
          exact ih (by simp [Mode.Quiet]) _
        · right
          rw [opens]
          have stays := reads_quoted escaped (some (middle.head.getD []))
          unfold Reads at stays
          simp only [stays]
      · exact ih (nextScan_quiet first quote _) _

theorem nextScan_special {octet : UInt8} (special : isSpecial octet = true) (inWord : Bool)
    (head : Bytes) :
    (nextScan ⟨lineMode inWord, some head⟩ octet).1 ≠ [] ∨
      octet = doubleQuote ∧
        nextScan ⟨lineMode inWord, some head⟩ octet = ([], ⟨.quoted, some head⟩) := by
  simp only [isSpecial, Bool.or_eq_true, decide_eq_true_eq] at special
  rcases special with ((rfl | rfl) | rfl) | rfl
  · left
    cases inWord <;> exact List.cons_ne_nil _ _
  · left
    cases inWord <;> exact List.cons_ne_nil _ _
  · left
    cases inWord <;> exact List.cons_ne_nil _ _
  · right
    cases inWord <;> exact ⟨rfl, rfl⟩

/-- A line with a mark or a quote before its comment writes something or opens a
string that it does not end. -/
theorem written_or_quoted_of_harmful {line : Bytes} (escaped : Escaped line) (inWord : Bool)
    (head : Bytes) (harmful : ¬∀ octet ∈ visible inWord line, isSpecial octet = false) :
    (run nextScan ⟨lineMode inWord, some head⟩ line).1 ≠ [] ∨
      (run nextScan ⟨lineMode inWord, some head⟩ line).2.mode = .quoted := by
  have later : ∀ {octet : UInt8} {rest : Bytes} {inWord : Bool},
      (¬∀ other ∈ visible inWord (octet :: rest), isSpecial other = false) →
      isSpecial octet = false →
      nextScan ⟨lineMode inWord, some head⟩ octet =
          ([], ⟨lineMode (isWordOctet octet), some head⟩) ∧
        ¬∀ other ∈ visible (isWordOctet octet) rest, isSpecial other = false := by
    intro octet rest inWord harmful plain
    unfold visible at harmful
    split at harmful
    · exact absurd (by simp) harmful
    · rename_i noComment
      simp only [Bool.and_eq_true, decide_eq_true_eq, Bool.not_eq_true', not_and,
        Bool.not_eq_false] at noComment
      refine ⟨nextScan_plain plain noComment, fun harmless => harmful ?_⟩
      simp only [List.mem_cons, forall_eq_or_imp]
      exact ⟨plain, harmless⟩
  induction escaped generalizing inWord with
  | nil => exact absurd (by simp [visible]) harmful
  | @plain octet rest notQuote _ _ ih =>
      simp only [run]
      by_cases special : isSpecial octet = true
      · left
        have writes := nextScan_special special inWord head
        simp only [notQuote, false_and, or_false] at writes
        simp [writes]
      · have next := later harmful (by simpa using special)
        simp only [next.1, List.nil_append]
        exact ih _ next.2
  | @pair octet rest escaped ih =>
      have next := later harmful (by decide)
      simp only [run, next.1, List.nil_append]
      by_cases special : isSpecial octet = true
      · rcases nextScan_special special (isWordOctet backslash) head with writes | ⟨-, opens⟩
        · left
          simp [writes]
        · right
          have stays := reads_quoted escaped (some head)
          unfold Reads at stays
          simp only [opens, stays]
      · have last := later next.2 (by simpa using special)
        simp only [last.1, List.nil_append]
        exact ih _ last.2

/-! ## Reading a statement -/

theorem reads_word_rest {text : Bytes} (word : ∀ octet ∈ text, isWordOctet octet = true)
    (head : Bytes) :
    Reads nextScan ⟨.word true, some head⟩ text [] ⟨.word true, some (head ++ text)⟩ := by
  induction text generalizing head with
  | nil => simp [Reads, run]
  | cons octet rest ih =>
      simp only [List.mem_cons, forall_eq_or_imp] at word
      have later := ih word.2 (head ++ [octet])
      simp only [List.append_assoc, List.singleton_append] at later
      apply Reads.cons _ later
      simp [nextScan, word.1]

/-- A word that can begin a statement. -/
def IsHead (text : Bytes) : Prop :=
  text ≠ [] ∧ text.head? ≠ some hash ∧ ∀ octet ∈ text, isWordOctet octet = true

instance (text : Bytes) : Decidable (IsHead text) :=
  @instDecidableAnd _ _ _ (@instDecidableAnd _ _ _ (List.decidableBAll _ text))

theorem reads_head {text : Bytes} (begins : IsHead text) :
    Reads nextScan ⟨.between, none⟩ text [] ⟨.word true, some text⟩ := by
  obtain ⟨nonempty, notHash, word⟩ := begins
  cases text with
  | nil => exact absurd rfl nonempty
  | cons octet rest =>
      simp only [List.head?_cons, ne_eq, Option.some.injEq] at notHash
      simp only [List.mem_cons, forall_eq_or_imp] at word
      have kind := isSpecial_of_isWordOctet word.1
      have distinct := ne_of_isSpecial_eq_false kind.1
      apply Reads.cons _ (reads_word_rest word.2 [octet])
      simp [nextScan, beginToken, distinct, notHash, kind.2, word.1]

/-- Letters and digits. -/
def isNameOctet (octet : UInt8) : Bool :=
  (97 ≤ octet && octet ≤ 122) || (65 ≤ octet && octet ≤ 90) || (48 ≤ octet && octet ≤ 57)

/-- A keyword of the configuration language. -/
def IsKeyword (text : Bytes) : Prop :=
  text ≠ [] ∧ text.all isNameOctet = true

instance (text : Bytes) : Decidable (IsKeyword text) :=
  @instDecidableAnd _ _ _ _

theorem isKeyword_keyword (keyword : Keyword) : IsKeyword (ascii keyword.text) := by
  cases keyword <;> decide +kernel

theorem isKeyword_definition (definition : Definition) : IsKeyword (ascii definition.keyword) := by
  cases definition with
  | interface => decide
  | prefixInfo addr len => exact (by decide : IsKeyword (ascii "prefix"))
  | route addr len => exact (by decide : IsKeyword (ascii "route"))
  | rdnss addrs => exact (by decide : IsKeyword (ascii "RDNSS"))
  | dnssl suffixes => exact (by decide : IsKeyword (ascii "DNSSL"))
  | nat64Prefix addr size => exact (by decide : IsKeyword (ascii "nat64prefix"))

theorem IsKeyword.isHead {text : Bytes} (named : IsKeyword text) : IsHead text := by
  rcases named with ⟨nonempty, letters⟩
  have letter := List.all_eq_true.mp letters
  refine ⟨nonempty, ?_, ?_⟩
  · intro first
    have member := letter hash (List.mem_of_head? first)
    cases member
  · intro octet member
    have here := letter octet member
    simp only [isNameOctet] at here
    simp only [isWordOctet, here, Bool.true_or]

theorem IsKeyword.escaped {text : Bytes} (named : IsKeyword text) : Escaped text := by
  apply Escaped.of_forall
  intro octet member
  have letter := List.all_eq_true.mp named.2 octet member
  constructor
  · rintro rfl
    cases letter
  · rintro rfl
    cases letter

theorem isHead_keyword (keyword : Keyword) : IsHead (ascii keyword.text) :=
  (isKeyword_keyword keyword).isHead

theorem isHead_definition (definition : Definition) : IsHead (ascii definition.keyword) :=
  (isKeyword_definition definition).isHead

/-- At a character that cannot stand in a word, the first word ends as any other
token does. -/
theorem run_after_word {octet : UInt8} (notWord : isWordOctet octet = false) (inWord : Bool)
    (head : Option Bytes) (rest : Bytes) :
    run nextScan ⟨.word inWord, head⟩ (octet :: rest) =
      run nextScan ⟨.between, head⟩ (octet :: rest) := by
  simp only [run, nextScan, notWord, Bool.false_eq_true, if_false]

/-- Where the reader stands between two statements; a comment without a newline
may still go on. -/
def boundary (commented : Bool) : Scan :=
  ⟨if commented then .comment else .between, none⟩

/-- Whether a comment goes on after a statement. -/
def Statement.commented (commented : Bool) : Statement → Bool
  | .invalidRouteLength _ | .invalidRdnssLength _ => true
  | .log _ => commented
  | .opens _ | .setting _ _ | .closes => false

theorem reads_comment {text : Bytes} (sameLine : newline ∉ text) :
    Reads nextScan ⟨.comment, none⟩ text [] ⟨.comment, none⟩ := by
  apply Reads.of_stays
  intro octet octetMem
  apply nextScan_comment
  rintro rfl
  exact sameLine octetMem

theorem newline_notMem_of_plain {text : Bytes} (plain : Plain text) : newline ∉ text :=
  fun lineEnd => (plain newline lineEnd).2.2.2 rfl

/-- The comment about an option of a wrong length. -/
theorem reads_invalid {text : Bytes} (sameLine : newline ∉ text) (commented : Bool) :
    Reads nextScan (boundary commented) (hash :: text) [] (boundary true) := by
  cases commented with
  | false => exact Reads.cons (rfl : nextScan _ _ = ([], boundary true)) (reads_comment sameLine)
  | true => exact Reads.cons (rfl : nextScan _ _ = ([], boundary true)) (reads_comment sameLine)

/-- The end of a line and the brace that opens a block. -/
theorem reads_opening {mode : Mode} (quiet : mode.Quiet) (head : Option Bytes) :
    Reads nextScan ⟨mode, head⟩ (ascii "\n\t\x7b\n") [⟨head, .opening⟩] ⟨.between, none⟩ :=
  Reads.cons (nextScan_newline quiet head) rfl

/-- The arguments of a block are blank or begin with a blank. -/
theorem arguments_cases (texts : Texts) (definition : Definition) :
    texts.arguments definition = [] ∨ ∃ rest, texts.arguments definition = 32 :: rest := by
  have spacedCases : ∀ words, spaced words = [] ∨ ∃ rest, spaced words = 32 :: rest := by
    intro words
    cases words with
    | nil => exact .inl rfl
    | cons word others => exact .inr ⟨_, rfl⟩
  cases definition with
  | interface => exact .inr ⟨_, rfl⟩
  | prefixInfo addr len => exact .inr ⟨_, rfl⟩
  | route addr len => exact .inr ⟨_, rfl⟩
  | rdnss addrs => exact spacedCases _
  | dnssl suffixes => exact spacedCases _
  | nat64Prefix addr size => exact .inr ⟨_, rfl⟩

/-- The keyword of a block ends before its arguments. -/
theorem run_arguments (texts : Texts) (definition : Definition) (head : Option Bytes)
    (rest : Bytes) :
    run nextScan ⟨.word true, head⟩ (texts.arguments definition ++ newline :: rest) =
      run nextScan ⟨.between, head⟩ (texts.arguments definition ++ newline :: rest) := by
  rcases arguments_cases texts definition with empty | ⟨others, spaces⟩
  · rw [empty]
    exact run_after_word (by decide) _ _ _
  · rw [spaces]
    exact run_after_word (by decide) _ _ _

theorem reads_arguments {texts : Texts} {definition : Definition} {rest : Bytes} {last : Scan}
    {written : List Piece} (head : Bytes) (harmless : Harmless (texts.arguments definition))
    (sameLine : newline ∉ texts.arguments definition)
    (ends : Reads nextScan ⟨.between, some head⟩ rest written last) :
    Reads nextScan ⟨.word true, some head⟩ (texts.arguments definition ++ newline :: rest)
      written last := by
  obtain ⟨mode, quiet, read⟩ := reads_harmless false head harmless sameLine
  unfold Reads
  rw [run_arguments]
  exact read.append (Reads.cons (nextScan_newline quiet (some head)) ends)

theorem statement_opens {definition : Definition} (nested : definition ≠ .interface)
    (texts : Texts) (within : Option Definition) :
    texts.statement within (.opens definition) = ascii "\n\t" ++
      (ascii definition.keyword ++ (texts.arguments definition ++ ascii "\n\t\x7b\n")) := by
  cases definition with
  | interface => exact absurd rfl nested
  | _ => rfl

theorem pieces_opens {definition : Definition} (nested : definition ≠ .interface) :
    (Statement.opens definition).pieces = [⟨some (ascii definition.keyword), .opening⟩] := by
  cases definition with
  | interface => exact absurd rfl nested
  | _ => rfl

theorem reads_opens {texts : Texts} {definition : Definition} (nested : definition ≠ .interface)
    (harmless : Harmless (texts.arguments definition))
    (sameLine : newline ∉ texts.arguments definition) (within : Option Definition)
    (commented : Bool) :
    Reads nextScan (boundary commented) (texts.statement within (.opens definition))
      (Statement.opens definition).pieces (boundary false) := by
  have starts : Reads nextScan (boundary commented) (ascii "\n\t") [] ⟨.between, none⟩ := by
    cases commented <;> rfl
  have brace : Reads nextScan ⟨.between, some (ascii definition.keyword)⟩ (ascii "\t\x7b\n")
      [⟨some (ascii definition.keyword), .opening⟩] (boundary false) := rfl
  rw [statement_opens nested, pieces_opens nested]
  exact starts.append ((reads_head (isHead_definition definition)).append
    (reads_arguments _ harmless sameLine brace))

theorem reads_preamble (texts : Texts) :
    Reads nextScan ⟨.between, none⟩ texts.preamble [] ⟨.between, none⟩ := by
  have name : newline ∉ texts.ifName := by
    intro lineEnd
    have word := texts.isWordOctet_ifName newline lineEnd
    revert word
    decide
  have title : Reads nextScan ⟨.between, none⟩
      (ascii "#\n# radvd configuration generated by radvdump ") [] ⟨.comment, none⟩ := rfl
  have source : Reads nextScan ⟨.comment, none⟩
      (ascii "\n# based on Router Advertisement from ") [] ⟨.comment, none⟩ := rfl
  have receiver : Reads nextScan ⟨.comment, none⟩
      (ascii "\n# received by interface ") [] ⟨.comment, none⟩ := rfl
  have ends : Reads nextScan ⟨.comment, none⟩ (ascii "\n#\n\n") [] ⟨.between, none⟩ := rfl
  exact title.append ((reads_comment texts.newline_notMem_version).append
    (source.append ((reads_comment (newline_notMem_of_plain (plain_addrtostr texts _))).append
      (receiver.append ((reads_comment name).append ends)))))

theorem visible_subset (inWord : Bool) (line : Bytes) : visible inWord line ⊆ line := by
  induction line generalizing inWord with
  | nil => exact List.nil_subset _
  | cons octet rest ih =>
      unfold visible
      split
      · exact List.nil_subset _
      · exact List.cons_subset_cons octet (ih _)

theorem harmless_of_forall {line : Bytes} (ordinary : ∀ octet ∈ line, isSpecial octet = false) :
    Harmless line :=
  fun octet octetMem => ordinary octet (visible_subset false line octetMem)

theorem harmless_interface (texts : Texts) :
    Harmless (texts.arguments .interface) ∧ newline ∉ texts.arguments .interface := by
  have ordinary : ∀ octet ∈ texts.arguments .interface,
      isSpecial octet = false ∧ octet ≠ newline := by
    simp only [Texts.arguments, List.mem_cons, forall_eq_or_imp]
    refine ⟨by decide, fun octet octetMem => ?_⟩
    have word := texts.isWordOctet_ifName octet octetMem
    refine ⟨(isSpecial_of_isWordOctet word).1, ?_⟩
    rintro rfl
    revert word
    decide
  exact ⟨harmless_of_forall fun octet octetMem => (ordinary octet octetMem).1,
    fun lineEnd => (ordinary newline lineEnd).2 rfl⟩

set_option maxRecDepth 2000 in
theorem reads_interface (texts : Texts) (within : Option Definition) :
    Reads nextScan (boundary false) (texts.statement within (.opens .interface))
      (Statement.opens .interface).pieces (boundary false) := by
  have opens : Reads nextScan ⟨.between, some (ascii "interface")⟩
      (ascii "\x7b\n\tAdvSendAdvert on;\n") (Statement.opens .interface).pieces
      (boundary false) := rfl
  have note : Reads nextScan (boundary false)
      (ascii "\t# Note: \x7bMin,Max\x7dRtrAdvInterval cannot be obtained with radvdump\n") []
      (boundary false) := rfl
  exact (reads_preamble texts).append ((reads_head (isHead_definition .interface)).append
    (reads_arguments _ (harmless_interface texts).1 (harmless_interface texts).2
      (opens.append note)))

/-- The texts that may stand in a setting between double quotes. -/
def Value.Sound : Value → Prop
  | .text octets => Escaped octets
  | .flag _ | .number _ | .infinity | .preference _ | .timestamp _ _ => True

/-- The values that are printed without double quotes. -/
def Value.Bare : Value → Prop
  | .text _ | .timestamp _ _ => False
  | .flag _ | .number _ | .infinity | .preference _ => True

theorem plain_of_bare {value : Value} (bare : value.Bare) : Plain value.printed := by
  cases value with
  | flag on => cases on <;> decide
  | number value => exact plain_decimal value
  | infinity => exact (by decide : Plain (ascii "infinity"))
  | preference shown => cases shown <;> decide
  | text octets => exact absurd bare id
  | timestamp secs fracs => exact absurd bare id

theorem escaped_of_plain {text : Bytes} (plain : Plain text) : Escaped text :=
  Escaped.of_forall fun octet octetMem =>
    ⟨(ne_of_isSpecial_eq_false (plain octet octetMem).1).2.2.2, (plain octet octetMem).2.2.1⟩

theorem reads_string {text : Bytes} (escaped : Escaped text) (head : Bytes) :
    Reads nextScan ⟨.between, some head⟩ (ascii "\"" ++ (text ++ ascii "\"")) []
      ⟨.between, some head⟩ := by
  have opens : Reads nextScan ⟨.between, some head⟩ (ascii "\"") [] ⟨.quoted, some head⟩ := rfl
  have ends : Reads nextScan ⟨.quoted, some head⟩ (ascii "\"") [] ⟨.between, some head⟩ := rfl
  exact opens.append ((reads_quoted escaped (some head)).append ends)

theorem reads_value {value : Value} (sound : value.Sound) (head : Bytes) :
    ∃ ended, Reads nextScan ⟨.between, some head⟩ value.printed []
      ⟨lineMode ended, some head⟩ := by
  cases value with
  | text octets => exact ⟨false, reads_string sound head⟩
  | timestamp secs fracs =>
      have fields : Escaped (decimal secs ++ (ascii " secs, " ++ (decimal fracs ++
          ascii " fracs"))) :=
        escaped_of_plain (plain_append.mpr ⟨plain_decimal secs, plain_append.mpr
          ⟨by decide, plain_append.mpr ⟨plain_decimal fracs, by decide⟩⟩⟩)
      have read := reads_string fields head
      simp only [List.append_assoc] at read
      exact ⟨false, read⟩
  | flag on =>
      have bare : (Value.flag on).Bare := trivial
      exact reads_plain (plain_of_bare bare) false head
  | number value =>
      have bare : (Value.number value).Bare := trivial
      exact reads_plain (plain_of_bare bare) false head
  | infinity =>
      have bare : (Value.infinity).Bare := trivial
      exact reads_plain (plain_of_bare bare) false head
  | preference shown =>
      have bare : (Value.preference shown).Bare := trivial
      exact reads_plain (plain_of_bare bare) false head

theorem reads_setting (texts : Texts) {value : Value} (sound : value.Sound) (keyword : Keyword)
    (within : Option Definition) :
    Reads nextScan (boundary false) (texts.statement within (.setting keyword value))
      (Statement.setting keyword value).pieces (boundary false) := by
  have indent : Reads nextScan (boundary false)
      (ascii (if within.isSome then "\t\t" else "\t")) [] ⟨.between, none⟩ := by
    split <;> rfl
  have blank : Reads nextScan ⟨.word true, some (ascii keyword.text)⟩ (ascii " ") []
      ⟨.between, some (ascii keyword.text)⟩ := rfl
  obtain ⟨ended, shown⟩ := reads_value sound (ascii keyword.text)
  have ends : Reads nextScan ⟨lineMode ended, some (ascii keyword.text)⟩
      (ascii (if value = .infinity then "; # (0xffffffff)\n" else ";\n"))
      [⟨some (ascii keyword.text), .semicolon⟩] (boundary false) := by
    cases ended <;> split <;> rfl
  exact indent.append ((reads_head (isHead_keyword keyword)).append
    (blank.append (shown.append ends)))

theorem reads_closes (texts : Texts) (within : Option Definition) :
    Reads nextScan (boundary false) (texts.statement within .closes) Statement.closes.pieces
      (boundary false) := by
  cases within with
  | none => rfl
  | some definition =>
      have opens : Reads nextScan (boundary false) (ascii "\t\x7d; # End of ")
          Statement.closes.pieces ⟨.comment, none⟩ := rfl
      have named : newline ∉ ascii definition.keyword := by
        intro lineEnd
        have word := (isHead_definition definition).2.2 newline lineEnd
        revert word
        decide
      have ends : Reads nextScan ⟨.comment, none⟩ (ascii " definition\n\n") []
          (boundary false) := rfl
      exact opens.append ((reads_comment named).append ends)

end Radvd.Dump
