import Radvd.Dump.Sanitized
import Radvd.Grammar.Scanner

/-!
# Matches of the rules

A match of a rule is a run of word characters, or it begins with another character,
or it is a quoted text, a comment or blanks (`shape_of_mem`). So a
word that another character follows is scanned as a whole, by the first rule that
matches it (`chosen_word`).
-/

namespace Radvd.Grammar

open Wire Dump Computability
open RegularExpression hiding plus
open Flex

/-! ## Characters -/

theorem mem_octetsWith {property : UInt8 → Bool} {text : Bytes} :
    text ∈ (octetsWith property).matches' ↔ ∃ octet, property octet = true ∧ text = [octet] := by
  rw [octetsWith, mem_oneOf]
  constructor
  · rintro ⟨octet, member, rfl⟩
    exact ⟨octet, (List.mem_filter.mp member).2, rfl⟩
  · rintro ⟨octet, holds, rfl⟩
    refine ⟨octet, List.mem_filter.mpr ⟨?_, holds⟩, rfl⟩
    exact List.mem_map.mpr ⟨octet.toNat, List.mem_range.mpr octet.toNat_lt, UInt8.ofNat_toNat⟩

/-- The characters of the names, in lower case. -/
def isNameOctet (octet : UInt8) : Bool :=
  (97 ≤ octet && octet ≤ 122) || (48 ≤ octet && octet ≤ 57)

def isLetter (octet : UInt8) : Bool :=
  97 ≤ octet && octet ≤ 122

theorem toLower_eq_iff {octet other : UInt8} :
    octet = toLower other ∨ octet = toUpper other ↔ toLower octet = toLower other := by
  unfold toLower toUpper
  simp only [Bool.and_eq_true, decide_eq_true_eq, UInt8.le_iff_toNat_le, ← UInt8.toNat_inj]
  have := octet.toNat_lt
  have := other.toNat_lt
  split_ifs <;> simp only [UInt8.toNat_add, UInt8.toNat_sub, UInt8.reduceToNat] at * <;> omega

theorem isWordOctet_of_name {octet : UInt8} (name : isNameOctet (toLower octet) = true) :
    isWordOctet octet = true := by
  have letterOrDigit : (97 ≤ octet ∧ octet ≤ 122) ∨ (65 ≤ octet ∧ octet ≤ 90) ∨
      (48 ≤ octet ∧ octet ≤ 57) := by
    unfold isNameOctet toLower at name
    simp only [Bool.or_eq_true, Bool.and_eq_true, decide_eq_true_eq, UInt8.le_iff_toNat_le,
      UInt8.reduceToNat] at name ⊢
    have := octet.toNat_lt
    split_ifs at name with upper
    · omega
    · omega
  simp only [isWordOctet, Bool.or_eq_true, Bool.and_eq_true, decide_eq_true_eq]
  rcases letterOrDigit with lower | upper | digit
  · exact .inl (.inl (.inl lower))
  · exact .inl (.inl (.inr upper))
  · exact .inl (.inr digit)

def lowered (text : String) : Bytes :=
  (ascii text).map toLower

theorem mem_caseless {word text : Bytes} :
    text ∈ (caseless word).matches' ↔ text.map toLower = word.map toLower := by
  induction word generalizing text with
  | nil =>
      have unfolded : caseless [] = 1 := rfl
      rw [unfolded, matches'_epsilon, Language.mem_one, List.map_nil, List.map_eq_nil_iff]
  | cons octet rest ih =>
      have unfolded : caseless (octet :: rest) =
          oneOf [toLower octet, toUpper octet] * caseless rest := rfl
      rw [unfolded, matches'_mul, Language.mem_mul, List.map_cons]
      constructor
      · rintro ⟨first, firstMatched, last, lastMatched, rfl⟩
        rcases mem_oneOf.mp firstMatched with ⟨other, member, rfl⟩
        simp only [List.mem_cons, List.not_mem_nil, or_false] at member
        rw [List.singleton_append, List.map_cons, toLower_eq_iff.mp member, ih.mp lastMatched]
      · intro same
        rcases text with _ | ⟨other, last⟩
        · cases same
        · rw [List.map_cons, List.cons.injEq] at same
          refine ⟨[other], mem_oneOf.mpr ⟨other, ?_, rfl⟩, last, ih.mpr same.2, rfl⟩
          simp only [List.mem_cons, List.not_mem_nil, or_false]
          exact toLower_eq_iff.mpr same.1

theorem over_caseless {word : Bytes} (names : ∀ octet ∈ word, isNameOctet (toLower octet) = true) :
    Over (fun octet => isWordOctet octet = true) (caseless word) := by
  induction word with
  | nil => trivial
  | cons octet rest ih =>
      rw [List.forall_mem_cons] at names
      refine ⟨over_oneOf ?_, ih names.2⟩
      intro other member
      simp only [List.mem_cons, List.not_mem_nil, or_false] at member
      apply isWordOctet_of_name
      rw [toLower_eq_iff.mp member]
      exact names.1

/-! ## Names -/

/-- The keywords and the values with names, in lower case. -/
def names : List Bytes :=
  Word.all.map (fun keyword => lowered keyword.text) ++ named.map fun value => lowered value.1

theorem names_distinct : names.Nodup ∧
    ∀ name ∈ names, name.all isNameOctet = true ∧ name.head?.any isLetter = true := by
  decide +kernel

/-! ## Matches -/

theorem matches_string : string.matches' = stringPattern := by
  have word : stringWord.matches' = wordPattern := by
    ext text
    rw [stringWord, octetsWith, mem_plus_oneOf]
    constructor
    · rintro ⟨filled, octets⟩
      exact ⟨filled, fun octet member => (List.mem_filter.mp (octets octet member)).2⟩
    · rintro ⟨filled, octets⟩
      refine ⟨filled, fun octet member => List.mem_filter.mpr ⟨?_, octets octet member⟩⟩
      exact List.mem_map.mpr ⟨octet.toNat, List.mem_range.mpr octet.toNat_lt, UInt8.ofNat_toNat⟩
  have wide : (oneOf [76, 108]).matches' = widePattern := by
    ext text
    rw [mem_oneOf]
    simp only [List.mem_cons, List.not_mem_nil, or_false, exists_eq_or_imp, exists_eq_left]
    rfl
  have escape : (char backslash * anyOctet).matches' = escapePattern := by
    ext text
    rw [matches'_mul, Language.mem_mul]
    constructor
    · rintro ⟨_, rfl, _, matched, rfl⟩
      rcases mem_octetsWith.mp matched with ⟨octet, sameLine, rfl⟩
      exact ⟨⟨octet, by simpa using sameLine⟩, rfl⟩
    · rintro ⟨⟨octet, sameLine⟩, rfl⟩
      exact ⟨[backslash], rfl, [octet], mem_octetsWith.mpr ⟨octet, by simpa using sameLine, rfl⟩, rfl⟩
  have plain : (octetsWith fun octet => octet ≠ backslash && octet ≠ doubleQuote).matches' =
      plainPattern := by
    ext text
    rw [mem_octetsWith]
    constructor
    · rintro ⟨octet, allowed, rfl⟩
      exact ⟨⟨octet, by simpa using allowed⟩, rfl⟩
    · rintro ⟨⟨octet, allowed⟩, rfl⟩
      exact ⟨octet, by simpa using allowed, rfl⟩
  rw [string, matches'_add, word, stringQuoted, matches'_mul, matches'_add, wide, matches'_mul,
    matches'_mul, matches'_star, matches'_add, escape, plain]
  rfl

/-- What the rules match, except for comments. -/
inductive Shape : Bytes → Prop
  | word {text : Bytes} (octets : ∀ octet ∈ text, isWordOctet octet = true) : Shape text
  | blank {text : Bytes} (octets : ∀ octet ∈ text, octet ∈ ([32, 9] : Bytes)) : Shape text
  | single (octet : UInt8) : Shape [octet]
  | quoted {text : Bytes} (matched : text ∈ quotedPattern) : Shape text
  | wide {text : Bytes} {mark : UInt8} (marks : mark ∈ ([76, 108] : Bytes))
      (matched : text ∈ quotedPattern) : Shape (mark :: text)

theorem over_addr {word : UInt8 → Prop}
    (octets : ∀ octet ∈ colon :: ascii "abcdefABCDEF0123456789", word octet) :
    Over word Grammar.addr := by
  rw [List.forall_mem_cons] at octets
  have digits : Over word hexdigit := over_oneOf octets.2
  have groups : Over word hexdigits := ⟨⟨⟨digits.pow 1, digits.pow 2⟩, digits.pow 3⟩, digits.pow 4⟩
  have colons : Over word (char colon) := octets.1
  have ahead : Over word (hexdigits * char colon) := ⟨groups, colons⟩
  have behind : Over word (char colon * hexdigits) := ⟨colons, groups⟩
  exact ⟨⟨⟨⟨⟨ahead, ahead⟩, behind.plus⟩, ⟨groups, behind⟩, colons, colons⟩, ahead.pow 7, groups⟩,
    colons, colons⟩

theorem isWordOctet_of_addr :
    ∀ octet ∈ colon :: ascii "abcdefABCDEF0123456789", isWordOctet octet = true :=
  List.all_eq_true.mp (by decide)

theorem over_valueRules {rule : Rule UInt8 Token} (member : rule ∈ valueRules) :
    Over (fun octet => isWordOctet octet = true) rule.pattern := by
  have digits : Over (fun octet => isWordOctet octet = true) digit :=
    over_oneOf (List.all_eq_true.mp (by decide))
  simp only [valueRules, List.mem_cons, List.not_mem_nil, or_false] at member
  rcases member with rfl | rfl | rfl | rfl | rfl
  · exact over_addr isWordOctet_of_addr
  · refine ⟨?_, over_addr isWordOctet_of_addr⟩
    unfold Over
    decide
  · exact digits.plus
  · refine ⟨⟨trivial, ?_⟩, digits.plus⟩
    unfold Over
    decide
  · refine ⟨⟨digits.plus, ?_⟩, digits.plus⟩
    unfold Over
    decide

theorem over_name {text : String} (member : lowered text ∈ names) :
    Over (fun octet => isWordOctet octet = true) (caseless (ascii text)) := by
  apply over_caseless
  intro octet inText
  have octets := List.all_eq_true.mp (names_distinct.2 _ member).1
  exact octets (toLower octet) (List.mem_map.mpr ⟨octet, inText, rfl⟩)

theorem keyword_mem_names (keyword : Word) : lowered keyword.text ∈ names :=
  List.mem_append_left _ (List.mem_map.mpr ⟨keyword, Word.mem_all keyword, rfl⟩)

theorem named_mem_names {value : String × Token} (member : value ∈ named) :
    lowered value.1 ∈ names :=
  List.mem_append_right _ (List.mem_map.mpr ⟨value, member, rfl⟩)

/-- The rules without the one for comments. -/
def plainRules : List (Rule UInt8 Token) :=
  [silent (char newline) [], silent whitespace []] ++ keywordRules ++ valueRules ++ namedRules ++
    [rule string stringAction] ++ punctuationRules ++ [rule anyOctet fun _ => .bad]

theorem rules_eq : rules = comment :: plainRules := rfl

theorem shape_of_mem {rule : Rule UInt8 Token} {text : Bytes} (member : rule ∈ plainRules)
    (matched : text ∈ rule.pattern.matches') : Shape text := by
  simp only [plainRules, List.mem_append, List.mem_cons, List.not_mem_nil, or_false] at member
  rcases member with ((((((rfl | rfl) | inWords) | value) | inNamed) | rfl) | inMarks) | rfl
  · cases matched
    exact .single newline
  · exact .blank (mem_plus_oneOf.mp matched).2
  · rcases List.mem_map.mp inWords with ⟨keyword, -, rfl⟩
    exact .word ((over_name (keyword_mem_names keyword)).of_mem matched)
  · exact .word ((over_valueRules value).of_mem matched)
  · rcases List.mem_map.mp inNamed with ⟨value, member, rfl⟩
    exact .word ((over_name (named_mem_names member)).of_mem matched)
  · replace matched : text ∈ stringPattern := by
      rw [← matches_string]
      exact matched
    rcases matched with ⟨-, octets⟩ | ⟨mark, marked, quoted, inside, rfl⟩
    · exact .word octets
    · rcases marked with rfl | rfl | rfl
      · exact .quoted inside
      · exact .wide (by decide) inside
      · exact .wide (by decide) inside
  · rcases List.mem_map.mp inMarks with ⟨mark, -, rfl⟩
    cases matched
    exact .single mark.1
  · rcases mem_octetsWith.mp matched with ⟨octet, -, rfl⟩
    exact .single octet

theorem trailing_of_mem {rule : Rule UInt8 Token} (member : rule ∈ plainRules) :
    rule.trailing = [] := by
  simp only [plainRules, keywordRules, valueRules, namedRules, punctuationRules, List.mem_append,
    List.mem_cons, List.mem_map, List.not_mem_nil, or_false] at member
  rcases member with ((((((rfl | rfl) | ⟨_, -, rfl⟩) | rfl | rfl | rfl | rfl | rfl) | ⟨_, -, rfl⟩) |
    rfl) | ⟨_, -, rfl⟩) | rfl <;> rfl

theorem reach_of_mem {rule : Rule UInt8 Token} (member : rule ∈ plainRules) (text : Bytes) :
    rule.reach text = text.length := by
  rw [Rule.reach, trailing_of_mem member, List.length_nil, Nat.add_zero]

theorem matches_iff {rule : Rule UInt8 Token} (member : rule ∈ plainRules) {input text : Bytes} :
    rule.Matches input text ↔ text ≠ [] ∧ text ∈ rule.pattern.matches' ∧ text <+: input := by
  constructor
  · intro matched
    exact ⟨matched.nonempty, matched.matched, matched.isPrefix⟩
  · rintro ⟨filled, matched, begins⟩
    refine ⟨filled, matched, ?_⟩
    rw [trailing_of_mem member, List.append_nil]
    exact begins

theorem matches_comment {input text : Bytes} (matched : comment.Matches input text) :
    input.head? = some hash ∧ newline ∈ input := by
  rcases matched.matched with ⟨_, rfl, rest, -, rfl⟩
  rcases matched.follows with ⟨behind, rfl⟩
  exact ⟨rfl, by simp [comment, silent]⟩

/-- The first rule that matches the text as a whole. -/
def firstRule (lexeme : Bytes) : Option (Rule UInt8 Token) :=
  plainRules.find? fun rule => rule.pattern.rmatch lexeme

section

variable {lexeme rest text : Bytes} {rule : Rule UInt8 Token}

/-- The first rule is taken if no rule matches more. -/
theorem chosen_of_firstRule (filled : lexeme ≠ []) (found : firstRule lexeme = some rule)
    (longest : ∀ text, text ≠ [] → Shape text → text <+: lexeme ++ rest →
      text.length ≤ lexeme.length)
    (uncommented : lexeme.head? = some hash → newline ∉ lexeme ++ rest) :
    Chosen rules (lexeme ++ rest) rule lexeme := by
  rcases List.find?_eq_some_iff_append.mp found with ⟨matched, earlier, later, same, others⟩
  have member : rule ∈ plainRules := List.mem_of_find?_eq_some found
  have bound : ∀ other ∈ plainRules, ∀ longer, other.Matches (lexeme ++ rest) longer →
      other.reach longer ≤ rule.reach lexeme := by
    intro other otherMem longer otherMatched
    rw [reach_of_mem otherMem, reach_of_mem member]
    exact longest longer otherMatched.nonempty (shape_of_mem otherMem otherMatched.matched)
      otherMatched.isPrefix
  rw [rules_eq]
  apply Chosen.cons
  · refine ⟨?_, bound, earlier, later, same, ?_⟩
    · rw [matches_iff member]
      exact ⟨filled, (rmatch_iff_matches' _ _).mp matched, List.prefix_append lexeme rest⟩
    · intro other inEarlier shorter otherMatched
      have otherMem : other ∈ plainRules := by
        rw [same]
        exact List.mem_append_left _ inEarlier
      refine lt_of_le_of_ne (bound other otherMem shorter otherMatched) ?_
      intro reaches
      rw [reach_of_mem otherMem, reach_of_mem member] at reaches
      have equal : shorter = lexeme := by
        rw [← otherMatched.eq_take, reaches, List.take_left]
      have unmatched := others other inEarlier
      rw [equal] at otherMatched
      rw [(rmatch_iff_matches' _ _).mpr otherMatched.matched] at unmatched
      cases unmatched
  · intro longer commented
    rcases matches_comment commented with ⟨head, lineEnd⟩
    rcases lexeme with _ | ⟨first, lexeme⟩
    · exact absurd rfl filled
    · exact absurd lineEnd (uncommented head)

theorem length_le_of_run {property : UInt8 → Prop} (octets : ∀ octet ∈ text, property octet)
    (begins : text <+: lexeme ++ rest) (delimited : ∀ octet ∈ rest.head?, ¬property octet) :
    text.length ≤ lexeme.length := by
  rcases List.prefix_or_prefix_of_prefix begins (List.prefix_append lexeme rest) with
    shorter | ⟨more, rfl⟩
  · exact shorter.length_le
  · rw [List.prefix_append_right_inj] at begins
    rcases more with _ | ⟨octet, more⟩
    · rw [List.append_nil]
    · rcases begins with ⟨behind, rfl⟩
      exact absurd (octets octet (by simp)) (delimited octet rfl)

theorem head_of_quoted (matched : text ∈ quotedPattern) :
    ∃ inside, text = doubleQuote :: inside := by
  rcases matched with ⟨_, rfl, inside, -, rfl⟩
  exact ⟨inside, rfl⟩

/-! ## Words -/

/-- What comes after a word ends it. A word that begins like a comment is on the last
line of the file. -/
structure Ends (lexeme rest : Bytes) : Prop where
  word : ∀ octet ∈ rest.head?, isWordOctet octet = false
  narrow : rest.head? = some doubleQuote → lexeme ≠ [76] ∧ lexeme ≠ [108]
  uncommented : lexeme.head? = some hash → newline ∉ rest

theorem length_le_of_word {first : UInt8}
    (octets : ∀ octet ∈ first :: lexeme, isWordOctet octet = true)
    (ends : Ends (first :: lexeme) rest) (filled : text ≠ []) (shape : Shape text)
    (begins : text <+: first :: lexeme ++ rest) : text.length ≤ (first :: lexeme).length := by
  rw [List.cons_append] at begins
  have firstWord := octets first List.mem_cons_self
  cases shape with
  | word inText =>
      refine length_le_of_run inText begins ?_
      intro octet atHead word
      rw [ends.word octet atHead] at word
      cases word
  | blank blanks =>
      rcases text with _ | ⟨octet, text⟩
      · exact absurd rfl filled
      · have blank := blanks octet List.mem_cons_self
        rw [(List.cons_prefix_cons.mp begins).1] at blank
        simp only [List.mem_cons, List.not_mem_nil, or_false] at blank
        rcases blank with rfl | rfl <;> exact absurd firstWord (by decide)
  | single octet => simp
  | quoted matched =>
      rcases head_of_quoted matched with ⟨inside, rfl⟩
      rw [← (List.cons_prefix_cons.mp begins).1] at firstWord
      exact absurd firstWord (by decide)
  | wide marks matched =>
      rcases head_of_quoted matched with ⟨inside, rfl⟩
      rw [List.cons_prefix_cons] at begins
      rcases begins with ⟨rfl, behind⟩
      rcases lexeme with _ | ⟨second, lexeme⟩
      · have quoted : rest.head? = some doubleQuote := by
          rw [List.nil_append] at behind
          rcases behind with ⟨after, rfl⟩
          rfl
        have narrow := ends.narrow quoted
        simp only [List.mem_cons, List.not_mem_nil, or_false] at marks
        rcases marks with rfl | rfl
        · exact absurd rfl narrow.1
        · exact absurd rfl narrow.2
      · have secondWord := octets second (by simp)
        rw [List.cons_append] at behind
        rw [← (List.cons_prefix_cons.mp behind).1] at secondWord
        exact absurd secondWord (by decide)

theorem chosen_word (filled : lexeme ≠ []) (octets : ∀ octet ∈ lexeme, isWordOctet octet = true)
    (ends : Ends lexeme rest) (found : firstRule lexeme = some rule) :
    Chosen rules (lexeme ++ rest) rule lexeme := by
  rcases lexeme with _ | ⟨first, lexeme⟩
  · exact absurd rfl filled
  · apply chosen_of_firstRule filled found
    · intro text filled shape begins
      exact length_le_of_word octets ends filled shape begins
    · intro head lineEnd
      rcases List.mem_append.mp lineEnd with inWord | inRest
      · exact absurd (octets newline inWord) (by decide)
      · exact ends.uncommented head inRest

/-! ## Strings, marks and blanks -/

theorem eq_of_quoted (first : text ∈ quotedPattern) (second : lexeme ∈ quotedPattern)
    (begins : text <+: lexeme ++ rest) : text = lexeme :=
  prefixFree_quotedPattern.eq_of_isPrefix first second begins (List.prefix_append lexeme rest)

theorem length_le_of_quoted (matched : lexeme ∈ quotedPattern) (filled : text ≠ [])
    (shape : Shape text) (begins : text <+: lexeme ++ rest) : text.length ≤ lexeme.length := by
  rcases head_of_quoted matched with ⟨inside, same⟩
  have atHead : ∀ octet ∈ text.head?, octet = doubleQuote := by
    intro octet atHead
    rcases text with _ | ⟨first, text⟩
    · cases atHead
    · cases atHead
      rw [same, List.cons_append] at begins
      exact (List.cons_prefix_cons.mp begins).1
  have positive : 0 < lexeme.length := by simp [same]
  cases shape with
  | word octets =>
      rcases text with _ | ⟨first, text⟩
      · exact absurd rfl filled
      · have word := octets first List.mem_cons_self
        rw [atHead first rfl] at word
        exact absurd word (by decide)
  | blank octets =>
      rcases text with _ | ⟨first, text⟩
      · exact absurd rfl filled
      · have blank := octets first List.mem_cons_self
        rw [atHead first rfl] at blank
        exact absurd blank (by decide)
  | single octet => exact positive
  | quoted other => exact (congrArg List.length (eq_of_quoted other matched begins)).le
  | wide marks other =>
      rw [atHead _ rfl] at marks
      exact absurd marks (by decide)

theorem length_le_of_wide {mark : UInt8} (marks : mark ∈ ([76, 108] : Bytes))
    (matched : lexeme ∈ quotedPattern) (filled : text ≠ []) (shape : Shape text)
    (begins : text <+: mark :: lexeme ++ rest) : text.length ≤ (mark :: lexeme).length := by
  have octet : mark ∉ ([32, 9] : Bytes) ∧ mark ≠ doubleQuote := by
    simp only [List.mem_cons, List.not_mem_nil, or_false] at marks
    rcases marks with rfl | rfl <;> decide
  rcases text with _ | ⟨first, text⟩
  · exact absurd rfl filled
  · rw [List.cons_append, List.cons_prefix_cons] at begins
    rcases begins with ⟨rfl, begins⟩
    cases shape with
    | word octets =>
        rcases text with _ | ⟨second, text⟩
        · simp
        · rcases head_of_quoted matched with ⟨inside, rfl⟩
          have word := octets second (by simp)
          rw [List.cons_append] at begins
          rw [(List.cons_prefix_cons.mp begins).1] at word
          exact absurd word (by decide)
    | blank octets => exact absurd (octets first List.mem_cons_self) octet.1
    | single => simp
    | quoted other =>
        rcases head_of_quoted other with ⟨inside, same⟩
        exact absurd (List.cons.inj same).1 octet.2
    | wide _ other =>
        rw [eq_of_quoted other matched begins]

theorem length_le_of_blank {first : UInt8} (other : isWordOctet first = false)
    (unquoted : first ≠ doubleQuote) (filled : text ≠ []) (shape : Shape text)
    (begins : text <+: first :: rest) :
    text.length = 1 ∨ ∀ octet ∈ text, octet ∈ ([32, 9] : Bytes) := by
  rcases text with _ | ⟨octet, text⟩
  · exact absurd rfl filled
  · rw [List.cons_prefix_cons] at begins
    rcases begins with ⟨rfl, begins⟩
    cases shape with
    | word octets =>
        rw [octets octet List.mem_cons_self] at other
        cases other
    | blank octets => exact .inr octets
    | single => exact .inl rfl
    | quoted matched =>
        rcases head_of_quoted matched with ⟨inside, same⟩
        exact absurd (List.cons.inj same).1 unquoted
    | wide marks matched =>
        simp only [List.mem_cons, List.not_mem_nil, or_false] at marks
        rcases marks with rfl | rfl <;> exact absurd other (by decide)

theorem chosen_quoted (matched : lexeme ∈ (1 + widePattern) * quotedPattern)
    (found : firstRule lexeme = some rule) : Chosen rules (lexeme ++ rest) rule lexeme := by
  rcases matched with ⟨mark, marked, quoted, matched, rfl⟩
  rcases head_of_quoted matched with ⟨inside, same⟩
  have filled : mark ++ quoted ≠ [] := by simp [same]
  apply chosen_of_firstRule filled found
  · intro text textFilled shape begins
    rcases marked with rfl | rfl | rfl
    · exact length_le_of_quoted matched textFilled shape begins
    · exact length_le_of_wide (by decide) matched textFilled shape begins
    · exact length_le_of_wide (by decide) matched textFilled shape begins
  · intro head
    rw [same] at head
    rcases marked with rfl | rfl | rfl <;> exact absurd (Option.some.inj head) (by decide)

theorem chosen_mark {octet : UInt8} (other : isWordOctet octet = false)
    (unquoted : octet ≠ doubleQuote) (notBlank : octet ∉ ([32, 9] : Bytes))
    (found : firstRule [octet] = some rule) : Chosen rules ([octet] ++ rest) rule [octet] := by
  apply chosen_of_firstRule (List.cons_ne_nil _ _) found
  · intro text filled shape begins
    rcases length_le_of_blank other unquoted filled shape begins with single | blanks
    · exact single.le
    · rcases text with _ | ⟨first, text⟩
      · exact absurd rfl filled
      · have blank := blanks first List.mem_cons_self
        rw [(List.cons_prefix_cons.mp begins).1] at blank
        exact absurd blank notBlank
  · intro head
    cases head
    exact absurd other (by decide)

theorem chosen_blanks (filled : lexeme ≠ []) (blanks : ∀ octet ∈ lexeme, octet ∈ ([32, 9] : Bytes))
    (ends : ∀ octet ∈ rest.head?, octet ∉ ([32, 9] : Bytes))
    (found : firstRule lexeme = some rule) : Chosen rules (lexeme ++ rest) rule lexeme := by
  rcases lexeme with _ | ⟨first, lexeme⟩
  · exact absurd rfl filled
  have blank := blanks first List.mem_cons_self
  have apart : isWordOctet first = false ∧ first ≠ doubleQuote ∧ first ≠ hash := by
    simp only [List.mem_cons, List.not_mem_nil, or_false] at blank
    rcases blank with rfl | rfl <;> decide
  apply chosen_of_firstRule filled found
  · intro text textFilled shape begins
    rcases length_le_of_blank apart.1 apart.2.1 textFilled shape begins with single | inText
    · rw [single, List.length_cons]
      exact Nat.le_add_left _ _
    · exact length_le_of_run inText begins ends
  · intro head
    cases head
    exact absurd rfl apart.2.2

/-! ## Comments -/

theorem mem_star_anyOctet :
    text ∈ anyOctet.star.matches' ↔ newline ∉ text := by
  rw [matches'_star, Language.mem_kstar]
  constructor
  · rintro ⟨parts, rfl, matched⟩ inside
    rcases List.mem_flatten.mp inside with ⟨part, member, inPart⟩
    rcases mem_octetsWith.mp (matched part member) with ⟨octet, sameLine, rfl⟩
    rw [← List.mem_singleton.mp inPart] at sameLine
    exact absurd sameLine (by decide)
  · intro sameLine
    refine ⟨text.map fun octet => [octet], ?_, ?_⟩
    · rw [← List.flatMap_def, List.flatMap_singleton']
    · intro part member
      rcases List.mem_map.mp member with ⟨octet, inText, rfl⟩
      refine mem_octetsWith.mpr ⟨octet, ?_, rfl⟩
      rw [decide_eq_true_eq]
      intro same
      rw [same] at inText
      exact sameLine inText

theorem comment_matches {remark : Bytes} (sameLine : newline ∉ remark) :
    comment.Matches (hash :: remark ++ newline :: rest) (hash :: remark) where
  nonempty := List.cons_ne_nil _ _
  matched := ⟨[hash], rfl, remark, mem_star_anyOctet.mpr sameLine, rfl⟩
  follows := ⟨rest, by simp [comment, silent]⟩

theorem chosen_comment {remark : Bytes} (sameLine : newline ∉ remark) :
    Chosen rules (hash :: remark ++ newline :: rest) comment (hash :: remark) := by
  have lineEnd : ∀ octet ∈ (newline :: rest).head?, ¬octet ≠ newline := by
    rintro octet ⟨⟩
    exact not_not_intro rfl
  refine ⟨comment_matches sameLine, ?_, [], plainRules, rfl, by simp⟩
  intro other member longer matched
  rw [rules_eq] at member
  rcases List.mem_cons.mp member with rfl | plain
  · rcases matched.matched with ⟨_, rfl, line, inLine, rfl⟩
    apply Nat.add_le_add_right
    apply length_le_of_run _ matched.isPrefix lineEnd
    intro octet inText
    rcases List.mem_append.mp inText with same | inLine'
    · rw [List.mem_singleton.mp same]
      decide
    · rintro rfl
      exact mem_star_anyOctet.mp inLine inLine'
  · rw [reach_of_mem plain]
    apply Nat.le_succ_of_le
    have begins := matched.isPrefix
    have shape := shape_of_mem plain matched.matched
    rcases longer with _ | ⟨first, longer⟩
    · exact absurd rfl matched.nonempty
    have head : first = hash := (List.cons_prefix_cons.mp begins).1
    cases shape with
    | word octets =>
        apply length_le_of_run _ begins lineEnd
        rintro octet inText rfl
        exact absurd (octets newline inText) (by decide)
    | blank octets =>
        have blank := octets first List.mem_cons_self
        rw [head] at blank
        exact absurd blank (by decide)
    | single => simp
    | quoted inside =>
        rcases head_of_quoted inside with ⟨others, same⟩
        rw [head] at same
        exact absurd (List.cons.inj same).1 (by decide)
    | wide marks _ =>
        rw [head] at marks
        exact absurd marks (by decide)

end

end Radvd.Grammar
