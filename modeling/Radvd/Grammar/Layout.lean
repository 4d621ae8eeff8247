import Radvd.Grammar.Words

/-!
# Files and their tokens

What the scanner makes of a file does not depend on the blanks, lines and comments
between the tokens. A file is laid out as tokens (`Laid`) if and only if the scanner
returns them and none of them is bad (`laid_iff`).
-/

namespace Radvd.Grammar

open Wire Dump Computability
open RegularExpression hiding plus
open Flex

/-! ## One match -/

section

variable {lexeme rest : Bytes}

theorem yylex_nil : yylex [] = [] := by
  rw [yylex, scan]

theorem action_of_mem {rule : Rule UInt8 Token} (member : rule ∈ plainRules)
    (matched : lexeme ∈ rule.pattern.matches')
    (visible : ∀ octet ∈ lexeme.head?, octet ∉ ([32, 9, newline] : Bytes)) (filled : lexeme ≠ []) :
    ∃ token, rule.action lexeme = some token := by
  have shown := find?_blanks filled visible
  rw [List.find?_eq_none] at shown
  simp only [plainRules, keywordRules, valueRules, namedRules, punctuationRules, List.mem_append,
    List.mem_cons, List.mem_map, List.not_mem_nil, or_false] at member
  rcases member with ((((((rfl | rfl) | ⟨_, -, rfl⟩) | rfl | rfl | rfl | rfl | rfl) | ⟨_, -, rfl⟩) |
    rfl) | ⟨_, -, rfl⟩) | rfl
  · exact absurd ((rmatch_iff_matches' _ _).mpr matched) (shown _ (by simp))
  · exact absurd ((rmatch_iff_matches' _ _).mpr matched) (shown _ (by simp))
  all_goals exact ⟨_, rfl⟩

theorem yylex_word (filled : lexeme ≠ []) (octets : ∀ octet ∈ lexeme, isWordOctet octet = true)
    (ends : Ends lexeme rest) : yylex (lexeme ++ rest) = wordToken lexeme :: yylex rest := by
  rcases found : firstRule lexeme with _ | rule
  · rw [firstRule_word filled octets] at found
    simp at found
  · have matched := List.find?_some found
    rw [rmatch_iff_matches'] at matched
    rcases action_of_mem (List.mem_of_find?_eq_some found) matched (visible_of_word octets)
      filled with ⟨token, acts⟩
    rw [yylex, scan_of_chosen (chosen_word filled octets ends found), wordToken, found]
    rw [Option.bind_some, acts]
    rfl

/-- Only strings and single characters are left for a text with a character that
words have not. -/
theorem firstRule_other {octet : UInt8} (member : octet ∈ lexeme)
    (other : isWordOctet octet = false)
    (visible : ∀ octet ∈ lexeme.head?, octet ∉ ([32, 9, newline] : Bytes)) :
    firstRule lexeme = ([rule string stringAction] ++ punctuationRules ++
      [rule anyOctet fun _ => .bad]).find? fun rule => rule.pattern.rmatch lexeme := by
  have filled : lexeme ≠ [] := List.ne_nil_of_mem member
  have unmatched : ∀ pattern : RegularExpression UInt8,
      Over (fun octet => isWordOctet octet = true) pattern → ¬pattern.rmatch lexeme = true := by
    intro pattern within matched
    rw [rmatch_iff_matches'] at matched
    rw [within.of_mem matched octet member] at other
    cases other
  have keywords : keywordRules.find? (fun rule => rule.pattern.rmatch lexeme) = none := by
    rw [List.find?_eq_none]
    intro named inRules
    rcases List.mem_map.mp inRules with ⟨keyword, -, rfl⟩
    exact unmatched _ (over_name (keyword_mem_names keyword))
  have values : valueRules.find? (fun rule => rule.pattern.rmatch lexeme) = none := by
    rw [List.find?_eq_none]
    intro value inRules
    exact unmatched _ (over_valueRules inRules)
  have named : namedRules.find? (fun rule => rule.pattern.rmatch lexeme) = none := by
    rw [List.find?_eq_none]
    intro named inRules
    rcases List.mem_map.mp inRules with ⟨value, inNamed, rfl⟩
    exact unmatched _ (over_name (named_mem_names inNamed))
  rw [firstRule, plainRules]
  simp only [List.find?_append, find?_blanks filled visible, keywords, values, named,
    Option.none_or]

/-- A string between double quotes, with the mark of a wide one or without it. -/
def quotedText (mark : QuoteMark) (inside : Bytes) : Bytes :=
  mark.octets ++ doubleQuote :: inside ++ [doubleQuote]

theorem quotedText_mem (mark : QuoteMark) {inside : Bytes} (quoted : isQuotedText inside = true) :
    quotedText mark inside ∈ (1 + widePattern) * quotedPattern :=
  ⟨mark.octets, octets_mem_widePattern mark, doubleQuote :: inside ++ [doubleQuote],
    quoted_mem (isQuotedText_iff.mp quoted), by simp [quotedText]⟩

theorem markOf_quotedText (mark : QuoteMark) (inside : Bytes) :
    markOf (quotedText mark inside) = mark := by
  cases mark <;> rfl

theorem stringOf_quoted (mark : QuoteMark) {inside : Bytes} (quoted : isQuotedText inside = true) :
    stringOf (quotedText mark inside) = some (.quoted mark inside quoted) := by
  have notWord : ¬(quotedText mark inside ≠ [] ∧
      (quotedText mark inside).all isWordOctet = true) := by
    rintro ⟨-, octets⟩
    have word := List.all_eq_true.mp octets doubleQuote (by simp [quotedText])
    exact absurd word (by decide)
  have within : ((quotedText mark inside).drop mark.octets.length).tail.dropLast = inside := by
    simp [quotedText]
  rw [stringOf, dif_neg notWord]
  simp only [markOf_quotedText, within, dif_pos quoted]

theorem yylex_quoted (mark : QuoteMark) {inside : Bytes} (quoted : isQuotedText inside = true) :
    yylex (quotedText mark inside ++ rest) = .str (.quoted mark inside quoted) :: yylex rest := by
  have matched := quotedText_mem mark quoted
  have visible : ∀ octet ∈ (quotedText mark inside).head?, octet ∉ ([32, 9, newline] : Bytes) := by
    cases mark <;> · rintro octet ⟨⟩; decide
  have found : firstRule (quotedText mark inside) = some (rule string stringAction) := by
    have quote : doubleQuote ∈ quotedText mark inside := by simp [quotedText]
    rw [firstRule_other quote (by decide) visible]
    apply find?_cons_matched
    change quotedText mark inside ∈ string.matches'
    rw [matches_string]
    exact .inr matched
  rw [yylex, scan_of_chosen (chosen_quoted matched found)]
  change [stringAction (quotedText mark inside)] ++ _ = _
  rw [stringAction, stringOf_quoted mark quoted]
  rfl

theorem length_of_string (matched : lexeme ∈ string.matches')
    (notWord : ∃ octet ∈ lexeme, isWordOctet octet = false) : 2 ≤ lexeme.length := by
  rw [matches_string] at matched
  rcases matched with ⟨-, octets⟩ | ⟨mark, -, _, ⟨_, rfl, _, ⟨inside, -, _, rfl, rfl⟩, rfl⟩, rfl⟩
  · rcases notWord with ⟨octet, member, other⟩
    rw [octets octet member] at other
    cases other
  · simp only [List.length_append, List.length_singleton]
    omega

theorem yylex_mark {mark : UInt8 × Token} (member : mark ∈ punctuation) :
    yylex (mark.1 :: rest) = mark.2 :: yylex rest := by
  have apart : isWordOctet mark.1 = false ∧ mark.1 ≠ doubleQuote ∧
      mark.1 ∉ ([32, 9, newline] : Bytes) := by
    simp only [punctuation, List.mem_cons, List.not_mem_nil, or_false] at member
    rcases member with rfl | rfl | rfl | rfl <;> decide
  have notString : [mark.1] ∉ string.matches' := by
    intro matched
    have long := length_of_string matched ⟨mark.1, by simp, apart.1⟩
    simp at long
  have found : firstRule [mark.1] = some (rule (char mark.1) fun _ => mark.2) := by
    rw [firstRule_other List.mem_cons_self apart.1 (by rintro octet ⟨⟩; exact apart.2.2)]
    rw [List.append_assoc, List.singleton_append, find?_cons_unmatched notString,
      List.find?_append]
    have inMarks : punctuationRules.find? (fun rule => rule.pattern.rmatch [mark.1]) =
        some (rule (char mark.1) fun _ => mark.2) := by
      simp only [punctuation, List.mem_cons, List.not_mem_nil, or_false] at member
      rcases member with rfl | rfl | rfl | rfl <;> rfl
    rw [inMarks, Option.some_or]
  have notBlank : mark.1 ∉ ([32, 9] : Bytes) := by
    intro blank
    apply apart.2.2
    simp only [List.mem_cons, List.not_mem_nil, or_false] at blank ⊢
    tauto
  exact scan_of_chosen (chosen_mark apart.1 apart.2.1 notBlank found)

def isSpace (octet : UInt8) : Bool :=
  octet ∈ ([32, 9] : Bytes)

/-- The blanks at the beginning are one match. -/
theorem yylex_dropWhile : yylex (rest.dropWhile isSpace) = yylex rest := by
  have whole := List.takeWhile_append_dropWhile (p := isSpace) (l := rest)
  by_cases none : rest.takeWhile isSpace = []
  · rw [none, List.nil_append] at whole
    rw [whole]
  · have blanks : ∀ octet ∈ rest.takeWhile isSpace, octet ∈ ([32, 9] : Bytes) := by
      intro octet member
      exact of_decide_eq_true (List.all_eq_true.mp List.all_takeWhile octet member)
    have ends : ∀ octet ∈ (rest.dropWhile isSpace).head?, octet ∉ ([32, 9] : Bytes) := by
      intro octet atHead
      have other := List.head?_dropWhile_not isSpace rest
      rw [atHead] at other
      exact of_decide_eq_false other
    have notNewline : rest.takeWhile isSpace ∉ (char newline).matches' := by
      intro single
      have space := blanks newline (by rw [single]; exact List.mem_singleton_self newline)
      exact absurd space (by decide)
    have found : firstRule (rest.takeWhile isSpace) = some (silent whitespace []) := by
      apply (find?_cons_unmatched notNewline).trans
      exact find?_cons_matched (mem_plus_oneOf.mpr ⟨none, blanks⟩)
    have scanned := scan_of_chosen (chosen_blanks none blanks ends found)
    rw [whole] at scanned
    exact scanned.symm

theorem yylex_blank {octet : UInt8} (blank : isBlank octet = true) :
    yylex (octet :: rest) = yylex rest := by
  simp only [isBlank, Bool.or_eq_true, decide_eq_true_eq] at blank
  by_cases space : isSpace octet = true
  · rw [← yylex_dropWhile, List.dropWhile_cons_of_pos space, yylex_dropWhile]
  · have lineEnd : octet = newline := by
      rcases blank with (rfl | rfl) | rfl
      · exact absurd (by decide) space
      · exact absurd (by decide) space
      · rfl
    rw [lineEnd]
    have found : firstRule [newline] = some (silent (char newline) []) :=
      find?_cons_matched rfl
    exact scan_of_chosen (chosen_mark (by decide) (by decide) (by decide) found)

theorem yylex_comment {remark : Bytes} (sameLine : newline ∉ remark) :
    yylex (hash :: remark ++ newline :: rest) = yylex rest := by
  rw [yylex, scan_of_chosen (chosen_comment sameLine)]
  exact yylex_blank (by decide)

end

/-! ## Layouts -/

/-- The text is one for the tokens. -/
inductive Laid : List Token → Bytes → Prop
  | nil : Laid [] []
  | blank {tokens : List Token} {rest : Bytes} {octet : UInt8} (blank : isBlank octet = true)
      (laid : Laid tokens rest) : Laid tokens (octet :: rest)
  | comment {tokens : List Token} {rest remark : Bytes} (sameLine : newline ∉ remark)
      (laid : Laid tokens (newline :: rest)) : Laid tokens (hash :: remark ++ newline :: rest)
  | mark {tokens : List Token} {rest : Bytes} {mark : UInt8 × Token} (member : mark ∈ punctuation)
      (laid : Laid tokens rest) : Laid (mark.2 :: tokens) (mark.1 :: rest)
  | quoted {tokens : List Token} {rest inside : Bytes} (mark : QuoteMark)
      (quoted : isQuotedText inside = true) (laid : Laid tokens rest) :
      Laid (.str (.quoted mark inside quoted) :: tokens) (quotedText mark inside ++ rest)
  | word {tokens : List Token} {rest lexeme : Bytes} (filled : lexeme ≠ [])
      (octets : ∀ octet ∈ lexeme, isWordOctet octet = true) (ends : Ends lexeme rest)
      (laid : Laid tokens rest) : Laid (wordToken lexeme :: tokens) (lexeme ++ rest)

theorem yylex_of_laid {tokens : List Token} {text : Bytes} (laid : Laid tokens text) :
    yylex text = tokens := by
  induction laid with
  | nil => exact yylex_nil
  | blank blank _ ih => rw [yylex_blank blank, ih]
  | comment sameLine _ ih => rw [yylex_comment sameLine, ← ih, yylex_blank (by decide)]
  | mark member _ ih => rw [yylex_mark member, ih]
  | quoted mark quoted _ ih => rw [yylex_quoted mark quoted, ih]
  | word filled octets ends _ ih => rw [yylex_word filled octets ends, ih]

theorem Laid.blanks {tokens : List Token} {blanks rest : Bytes}
    (inBlanks : ∀ octet ∈ blanks, isBlank octet = true) (laid : Laid tokens rest) :
    Laid tokens (blanks ++ rest) := by
  induction blanks with
  | nil => exact laid
  | cons octet blanks ih =>
      rw [List.forall_mem_cons] at inBlanks
      exact .blank inBlanks.1 (ih inBlanks.2)

/-- A double quote begins a string. -/
theorem Laid.quoted_of_head {tokens : List Token} {text : Bytes} (laid : Laid tokens text)
    (head : text.head? = some doubleQuote) :
    ∃ inside rest, isQuotedText inside = true ∧ text = quotedText .plain inside ++ rest := by
  cases laid with
  | nil => cases head
  | blank blank _ =>
      cases head
      exact absurd blank (by decide)
  | comment => cases head
  | mark member _ =>
      simp only [punctuation, List.mem_cons, List.not_mem_nil, or_false] at member
      rcases member with rfl | rfl | rfl | rfl <;> exact absurd (Option.some.inj head) (by decide)
  | @quoted _ rest inside mark quoted _ =>
      cases mark with
      | plain => exact ⟨inside, rest, quoted, rfl⟩
      | upper => exact absurd (Option.some.inj head) (by decide)
      | lower => exact absurd (Option.some.inj head) (by decide)
  | @word _ _ lexeme filled octets _ _ =>
      rcases lexeme with _ | ⟨first, lexeme⟩
      · exact absurd rfl filled
      · have word := octets first List.mem_cons_self
        cases head
        exact absurd word (by decide)

section

variable {tokens : List Token} {lexeme rest : Bytes} {chosenRule : Rule UInt8 Token}

theorem not_longer (chosen : Chosen rules (lexeme ++ rest) chosenRule lexeme)
    (plain : chosenRule ∈ plainRules) {other : Rule UInt8 Token} (member : other ∈ rules)
    {longer : Bytes} (matched : other.Matches (lexeme ++ rest) longer) :
    other.reach longer ≤ lexeme.length := by
  have longest := chosen.longest other member longer matched
  rw [reach_of_mem plain] at longest
  exact longest

theorem firstRule_of_chosen (chosen : Chosen rules (lexeme ++ rest) chosenRule lexeme)
    (plain : chosenRule ∈ plainRules) : firstRule lexeme = some chosenRule := by
  rcases chosen.first with ⟨earlier, later, same, first⟩
  rcases earlier with _ | ⟨head, earlier⟩
  · rw [rules_eq] at same
    have trailing := trailing_of_mem plain
    rw [← (List.cons.inj same).1] at trailing
    cases trailing
  · rw [rules_eq] at same
    rw [firstRule, List.find?_eq_some_iff_append]
    refine ⟨(rmatch_iff_matches' _ _).mpr chosen.matched.matched, earlier, later,
      (List.cons.inj same).2, ?_⟩
    intro other inEarlier
    rw [Bool.not_eq_true', rmatch_eq_false_iff]
    intro matched
    have otherMem : other ∈ plainRules := by
      rw [(List.cons.inj same).2]
      exact List.mem_append_left _ inEarlier
    have shorter := first other (List.mem_cons_of_mem _ inEarlier) lexeme
      ((matches_iff otherMem).mpr ⟨chosen.ne_nil, matched, List.prefix_append _ _⟩)
    rw [reach_of_mem otherMem, reach_of_mem plain] at shorter
    exact absurd shorter (lt_irrefl _)

theorem stringRule_mem : rule string stringAction ∈ plainRules := by
  simp [plainRules]

theorem ends_of_chosen (chosen : Chosen rules (lexeme ++ rest) chosenRule lexeme)
    (plain : chosenRule ∈ plainRules) (octets : ∀ octet ∈ lexeme, isWordOctet octet = true)
    (laid : Laid tokens rest) : Ends lexeme rest := by
  have inRules : rule string stringAction ∈ rules := List.mem_cons_of_mem _ stringRule_mem
  have notString : ∀ more, more ≠ [] → lexeme ++ more ∈ stringPattern → ¬more <+: rest := by
    intro more filled matched begins
    rw [← matches_string] at matched
    have short := not_longer chosen plain inRules ((matches_iff stringRule_mem).mpr
      ⟨by simp [filled], matched, (List.prefix_append_right_inj lexeme).mpr begins⟩)
    rw [reach_of_mem stringRule_mem, List.length_append] at short
    have positive := List.length_pos_iff.mpr filled
    omega
  constructor
  · intro octet atHead
    rw [← Bool.not_eq_true]
    intro word
    rcases rest with _ | ⟨head, rest⟩
    · cases atHead
    · cases atHead
      apply notString [octet] (List.cons_ne_nil _ _) (.inl ⟨by simp, ?_⟩) ⟨rest, rfl⟩
      intro other member
      rcases List.mem_append.mp member with inWord | inLast
      · exact octets other inWord
      · rw [List.mem_singleton.mp inLast]
        exact word
  · intro head
    rcases laid.quoted_of_head head with ⟨inside, behind, quoted, rfl⟩
    have apart : ∀ mark : QuoteMark, lexeme ≠ mark.octets := by
      rintro mark rfl
      have matched := quotedText_mem mark quoted
      have same : quotedText mark inside = mark.octets ++ quotedText .plain inside := by
        simp [quotedText, QuoteMark.octets]
      rw [same] at matched
      exact notString (quotedText .plain inside) (by simp [quotedText]) (.inr matched)
        (List.prefix_append _ _)
    exact ⟨apart .upper, apart .lower⟩
  · intro head lineEnd
    rcases lexeme with _ | ⟨first, lexeme⟩
    · cases head
    · cases head
      rcases List.eq_append_cons_of_mem lineEnd with ⟨before, behind, rfl, sameLine⟩
      have noLine : newline ∉ lexeme ++ before := by
        intro inside
        rcases List.mem_append.mp inside with inWord | inBefore
        · exact absurd (octets newline (List.mem_cons_of_mem _ inWord)) (by decide)
        · exact sameLine inBefore
      have commented : comment.Matches (hash :: (lexeme ++ before) ++ newline :: behind)
          (hash :: (lexeme ++ before)) := comment_matches noLine
      have input : hash :: (lexeme ++ before) ++ newline :: behind =
          hash :: lexeme ++ (before ++ newline :: behind) := by simp
      rw [input] at commented
      have short := not_longer chosen plain List.mem_cons_self commented
      simp only [Rule.reach, comment, silent, List.length_cons, List.length_append,
        List.length_nil] at short
      omega

theorem Laid.of_word (chosen : Chosen rules (lexeme ++ rest) chosenRule lexeme)
    (plain : chosenRule ∈ plainRules) (octets : ∀ octet ∈ lexeme, isWordOctet octet = true)
    (laid : Laid tokens rest) :
    Laid ((chosenRule.action lexeme).toList ++ tokens) (lexeme ++ rest) := by
  have filled := chosen.ne_nil
  rcases action_of_mem plain chosen.matched.matched (visible_of_word octets) filled with
    ⟨token, acts⟩
  have same : wordToken lexeme = token := by
    rw [wordToken, firstRule_of_chosen chosen plain, Option.bind_some, acts]
    rfl
  rw [acts, ← same]
  exact .word filled octets (ends_of_chosen chosen plain octets laid) laid

theorem Laid.of_string (matched : lexeme ∈ (1 + widePattern) * quotedPattern)
    (laid : Laid tokens rest) : Laid (stringAction lexeme :: tokens) (lexeme ++ rest) := by
  rcases matched with ⟨mark, marked, _, ⟨_, rfl, _, ⟨inside, inPattern, _, rfl, rfl⟩, rfl⟩, rfl⟩
  have quoted := isQuotedText_iff.mpr inPattern
  rcases eq_octets_of_mem_widePattern marked with ⟨mark, rfl⟩
  have same : mark.octets ++ ([doubleQuote] ++ (inside ++ [doubleQuote])) =
      quotedText mark inside := by
    simp [quotedText]
  dsimp only at same ⊢
  rw [same, stringAction, stringOf_quoted mark quoted]
  exact .quoted mark quoted laid

/-- Every character begins a match. -/
theorem exists_matches (octet : UInt8) (rest : Bytes) :
    ∃ rule ∈ plainRules, rule.Matches (octet :: rest) [octet] := by
  by_cases lineEnd : octet = newline
  · have member : silent (char newline) [] ∈ plainRules := by simp [plainRules]
    refine ⟨_, member, (matches_iff member).mpr ⟨List.cons_ne_nil _ _, ?_, ⟨rest, rfl⟩⟩⟩
    rw [lineEnd]
    rfl
  · have member : rule anyOctet (fun _ => .bad) ∈ plainRules := by simp [plainRules]
    refine ⟨_, member, (matches_iff member).mpr ⟨List.cons_ne_nil _ _, ?_, ⟨rest, rfl⟩⟩⟩
    exact mem_octetsWith.mpr ⟨octet, by simpa using lineEnd, rfl⟩

theorem laid_of_chosen (chosen : Chosen rules (lexeme ++ rest) chosenRule lexeme)
    (laid : Laid tokens rest) (good : .bad ∉ (chosenRule.action lexeme).toList) :
    Laid ((chosenRule.action lexeme).toList ++ tokens) (lexeme ++ rest) := by
  have member := chosen.mem
  have matched := chosen.matched.matched
  rw [rules_eq] at member
  rcases List.mem_cons.mp member with rfl | plain
  · rcases matched with ⟨_, rfl, remark, inLine, rfl⟩
    have follows := chosen.matched.follows
    rw [List.prefix_append_right_inj] at follows
    rcases follows with ⟨behind, rfl⟩
    exact .comment (mem_star_anyOctet.mp inLine) laid
  · by_cases octets : ∀ octet ∈ lexeme, isWordOctet octet = true
    · exact Laid.of_word chosen plain octets laid
    · have notOver : ∀ pattern : RegularExpression UInt8,
          Over (fun octet => isWordOctet octet = true) pattern → lexeme ∉ pattern.matches' :=
        fun pattern within inPattern => octets (within.of_mem inPattern)
      simp only [plainRules, List.mem_append, List.mem_cons, List.not_mem_nil, or_false] at plain
      rcases plain with ((((((rfl | rfl) | inWords) | value) | inNamed) | rfl) | inMarks) | rfl
      · cases matched
        exact .blank (by decide) laid
      · apply Laid.blanks _ laid
        intro octet inLexeme
        have blank := (mem_plus_oneOf.mp matched).2 octet inLexeme
        simp only [List.mem_cons, List.not_mem_nil, or_false] at blank
        rcases blank with rfl | rfl <;> decide
      · rcases List.mem_map.mp inWords with ⟨keyword, -, rfl⟩
        exact absurd matched (notOver _ (over_name (keyword_mem_names keyword)))
      · exact absurd matched (notOver _ (over_valueRules value))
      · rcases List.mem_map.mp inNamed with ⟨value, listed, rfl⟩
        exact absurd matched (notOver _ (over_name (named_mem_names listed)))
      · replace matched : lexeme ∈ stringPattern := by
          rw [← matches_string]
          exact matched
        rcases matched with ⟨-, inWord⟩ | quoted
        · exact absurd inWord octets
        · exact Laid.of_string quoted laid
      · rcases List.mem_map.mp inMarks with ⟨mark, listed, rfl⟩
        cases matched
        exact .mark listed laid
      · exact absurd List.mem_cons_self good

theorem laid_of_lexes {text : Bytes} (lexes : Lexes rules text tokens [])
    (good : .bad ∉ tokens) : Laid tokens text := by
  generalize ending : ([] : Bytes) = last at lexes
  induction lexes with
  | done =>
      rw [← ending]
      exact .nil
  | @skip octet rest _ _ unmatched _ _ =>
      rcases exists_matches octet rest with ⟨rule, member, matched⟩
      exact absurd matched (unmatched rule (List.mem_cons_of_mem _ member) _)
  | rule chosen _ ih =>
      rw [List.mem_append, not_or] at good
      exact laid_of_chosen chosen (ih good.2 ending) good.1

end

/-- The scanner returns the tokens of the layouts, and no other ones. -/
theorem laid_iff {tokens : List Token} {text : Bytes} (good : .bad ∉ tokens) :
    Laid tokens text ↔ yylex text = tokens := by
  constructor
  · exact yylex_of_laid
  · intro scanned
    exact laid_of_lexes (scan_eq_iff.mp scanned) good

end Radvd.Grammar
