import Radvd.Grammar.Lexemes

/-!
# Tokens of words

The rule for keywords and names with regard to their letters in lower case, and
those for numbers and addresses: none of them takes a word of another one. What no
such rule matches is a string (`wordToken_string`).
-/

namespace Radvd.Grammar

open Wire Dump Computability
open RegularExpression hiding plus
open Flex

/-! ## The first rule -/

section

variable {lexeme : Bytes}

theorem rmatch_eq_false_iff {pattern : RegularExpression UInt8} :
    pattern.rmatch lexeme = false ↔ lexeme ∉ pattern.matches' := by
  rw [← rmatch_iff_matches', Bool.not_eq_true]

theorem find?_blanks (filled : lexeme ≠ [])
    (blanks : ∀ octet ∈ lexeme.head?, octet ∉ ([32, 9, newline] : Bytes)) :
    [silent (char newline) [], silent whitespace []].find?
      (fun rule => rule.pattern.rmatch lexeme) = none := by
  rw [List.find?_eq_none]
  intro rule member matched
  rw [rmatch_iff_matches'] at matched
  simp only [List.mem_cons, List.not_mem_nil, or_false] at member
  rcases lexeme with _ | ⟨first, lexeme⟩
  · exact absurd rfl filled
  · have notBlank := blanks first rfl
    simp only [List.mem_cons, List.not_mem_nil, or_false, not_or] at notBlank
    rcases member with rfl | rfl
    · cases matched
      exact notBlank.2.2 rfl
    · have blank := (mem_plus_oneOf.mp matched).2 first List.mem_cons_self
      simp only [List.mem_cons, List.not_mem_nil, or_false] at blank
      rcases blank with rfl | rfl
      · exact notBlank.1 rfl
      · exact notBlank.2.1 rfl

theorem visible_of_word (octets : ∀ octet ∈ lexeme, isWordOctet octet = true) :
    ∀ octet ∈ lexeme.head?, octet ∉ ([32, 9, newline] : Bytes) := by
  intro octet atHead blank
  have word := octets octet (List.mem_of_mem_head? atHead)
  simp only [List.mem_cons, List.not_mem_nil, or_false] at blank
  rcases blank with rfl | rfl | rfl <;> exact absurd word (by decide)

theorem stringWord_mem (filled : lexeme ≠ []) (octets : ∀ octet ∈ lexeme, isWordOctet octet = true) :
    lexeme ∈ string.matches' := by
  rw [matches_string]
  exact .inl ⟨filled, octets⟩

/-- The first rule that matches a word. -/
theorem firstRule_word (filled : lexeme ≠ [])
    (octets : ∀ octet ∈ lexeme, isWordOctet octet = true) :
    firstRule lexeme = ((keywordRules.find? fun rule => rule.pattern.rmatch lexeme).or
      ((valueRules.find? fun rule => rule.pattern.rmatch lexeme).or
        ((namedRules.find? fun rule => rule.pattern.rmatch lexeme).or
          (some (rule string stringAction))))) := by
  have matched : string.rmatch lexeme = true :=
    (rmatch_iff_matches' _ _).mpr (stringWord_mem filled octets)
  have found : [rule string stringAction].find? (fun rule => rule.pattern.rmatch lexeme) =
      some (rule string stringAction) :=
    List.find?_cons_of_pos matched
  rw [firstRule, plainRules]
  simp only [List.find?_append, find?_blanks filled (visible_of_word octets), found, Option.none_or,
    Option.or_assoc, Option.some_or]

/-- The rules of names, of which at most one matches. -/
theorem find?_names {β : Type} {text : β → String} {token : β → Token} {entries : List β}
    (distinct : (entries.map fun entry => lowered (text entry)).Nodup) {entry : β}
    (member : entry ∈ entries) (same : lexeme.map toLower = lowered (text entry)) :
    (entries.map fun entry => rule (caseless (ascii (text entry))) fun _ => token entry).find?
      (fun rule => rule.pattern.rmatch lexeme) =
        some (rule (caseless (ascii (text entry))) fun _ => token entry) := by
  have matched : ∀ other, (caseless (ascii (text other))).rmatch lexeme = true ↔
      lowered (text entry) = lowered (text other) := by
    intro other
    rw [rmatch_iff_matches', mem_caseless, same]
    rfl
  rw [List.find?_map, Option.map_eq_some_iff]
  refine ⟨entry, ?_, rfl⟩
  rcases found : entries.find? ((fun rule => rule.pattern.rmatch lexeme) ∘ fun entry =>
    rule (caseless (ascii (text entry))) fun _ => token entry) with _ | other
  · have unmatched := List.find?_eq_none.mp found entry member
    exact absurd ((matched entry).mpr rfl) unmatched
  · have here := List.find?_some found
    have equal := (matched other).mp here
    rw [List.inj_on_of_nodup_map distinct member (List.mem_of_find?_eq_some found) equal]
    exact found

theorem find?_names_eq_none {β : Type} {text : β → String} {token : β → Token} {entries : List β}
    (others : ∀ entry ∈ entries, lexeme.map toLower ≠ lowered (text entry)) :
    (entries.map fun entry => rule (caseless (ascii (text entry))) fun _ => token entry).find?
      (fun rule => rule.pattern.rmatch lexeme) = none := by
  rw [List.find?_eq_none]
  intro named member matched
  rcases List.mem_map.mp member with ⟨entry, inEntries, rfl⟩
  rw [rmatch_iff_matches'] at matched
  exact others entry inEntries (mem_caseless.mp matched)

theorem find?_keywordRules_eq_none (others : lexeme.map toLower ∉ names) :
    keywordRules.find? (fun rule => rule.pattern.rmatch lexeme) = none := by
  apply find?_names_eq_none
  intro keyword _ same
  rw [same] at others
  exact others (keyword_mem_names keyword)

theorem find?_namedRules_eq_none (others : lexeme.map toLower ∉ names) :
    namedRules.find? (fun rule => rule.pattern.rmatch lexeme) = none := by
  apply find?_names_eq_none
  intro value member same
  rw [same] at others
  exact others (named_mem_names member)

/-! ## Tokens of words -/

/-- The token of a word. -/
def wordToken (lexeme : Bytes) : Token :=
  ((firstRule lexeme).bind (·.action lexeme)).getD .bad

/-- A word is not a name if it has a character that names have not. -/
theorem notMem_names {octet : UInt8} (member : octet ∈ lexeme)
    (foreign : isNameOctet (toLower octet) = false) : lexeme.map toLower ∉ names := by
  intro named
  have octets := List.all_eq_true.mp (names_distinct.2 _ named).1
  rw [octets (toLower octet) (List.mem_map.mpr ⟨octet, member, rfl⟩)] at foreign
  cases foreign

theorem notMem_names_of_head {octet : UInt8} (head : lexeme.head? = some octet)
    (foreign : isLetter (toLower octet) = false) : lexeme.map toLower ∉ names := by
  intro named
  have letter := (names_distinct.2 _ named).2
  rw [List.head?_map, head] at letter
  change isLetter (toLower octet) = true at letter
  rw [letter] at foreign
  cases foreign

theorem word_of_name {text : String} (member : lowered text ∈ names)
    (same : lexeme.map toLower = lowered text) :
    lexeme ≠ [] ∧ ∀ octet ∈ lexeme, isWordOctet octet = true := by
  constructor
  · rintro rfl
    have letter := (names_distinct.2 _ member).2
    rw [← same] at letter
    cases letter
  · exact (over_name member).of_mem (mem_caseless.mpr same)

theorem wordToken_keyword {keyword : Word} (same : lexeme.map toLower = lowered keyword.text) :
    wordToken lexeme = .word keyword := by
  have word := word_of_name (keyword_mem_names keyword) same
  have distinct := (List.nodup_append.mp names_distinct.1).1
  have found : keywordRules.find? (fun rule => rule.pattern.rmatch lexeme) =
      some (rule (caseless (ascii keyword.text)) fun _ => .word keyword) :=
    find?_names distinct (Word.mem_all keyword) same
  rw [wordToken, firstRule_word word.1 word.2, found]
  rfl

/-! ## Values -/

theorem mem_digits {octet : UInt8} : octet ∈ ascii "0123456789" ↔ isDigit octet = true := by
  simp only [ascii, isDigit, Bool.and_eq_true, decide_eq_true_eq, UInt8.le_iff_toNat_le]
  simp [← UInt8.toNat_inj]
  omega

theorem mem_number : lexeme ∈ number.matches' ↔
    lexeme ≠ [] ∧ ∀ octet ∈ lexeme, isDigit octet = true := by
  rw [number, digit, mem_plus_oneOf]
  simp only [mem_digits]

theorem mem_snum : lexeme ∈ snum.matches' ↔
    lexeme ∈ number.matches' ∨ ∃ digits ∈ number.matches', lexeme = minusSign :: digits := by
  have unfolded : snum = (1 + char minusSign) * number := rfl
  rw [unfolded, matches'_mul, matches'_add, matches'_epsilon, matches'_char]
  constructor
  · rintro ⟨_, rfl | rfl, digits, matched, rfl⟩
    · exact .inl matched
    · exact .inr ⟨digits, matched, rfl⟩
  · rintro (matched | ⟨digits, matched, rfl⟩)
    · exact ⟨[], .inl rfl, lexeme, matched, rfl⟩
    · exact ⟨[minusSign], .inr rfl, digits, matched, rfl⟩

theorem mem_decimal : lexeme ∈ decimalNumber.matches' ↔
    ∃ whole ∈ number.matches', ∃ fraction ∈ number.matches',
      lexeme = whole ++ dot :: fraction := by
  rw [decimalNumber, matches'_mul, matches'_mul, matches'_char]
  constructor
  · rintro ⟨_, ⟨whole, inWhole, _, rfl, rfl⟩, fraction, inFraction, rfl⟩
    exact ⟨whole, inWhole, fraction, inFraction, by simp⟩
  · rintro ⟨whole, inWhole, fraction, inFraction, rfl⟩
    exact ⟨whole ++ [dot], ⟨whole, inWhole, [dot], rfl, rfl⟩, fraction, inFraction, by simp⟩

theorem colon_mem_of_addr (matched : lexeme ∈ Grammar.addr.matches') : colon ∈ lexeme := by
  have unfolded : Grammar.addr = addr1 + addr2 + addr3 + char colon * char colon := rfl
  rw [unfolded, matches'_add, matches'_add, matches'_add] at matched
  rcases matched with ((first | second) | third) | ⟨_, rfl, _, rfl, rfl⟩
  · rcases first with ⟨_, ⟨_, ⟨_, -, _, rfl, rfl⟩, _, -, rfl⟩, _, -, rfl⟩
    simp
  · rcases second with ⟨_, -, _, ⟨_, rfl, _, rfl, rfl⟩, rfl⟩
    simp
  · rw [addr3, matches'_mul, matches'_pow, pow_succ] at third
    rcases third with ⟨_, ⟨_, -, _, ⟨_, -, _, rfl, rfl⟩, rfl⟩, _, -, rfl⟩
    simp
  · simp

theorem addr_octets_ne_exclamation :
    ∀ octet ∈ colon :: ascii "abcdefABCDEF0123456789", octet ≠ exclamation := by
  intro octet member
  have differ := List.all_eq_true.mp
    (by decide : (colon :: ascii "abcdefABCDEF0123456789").all (· ≠ exclamation) = true) octet member
  rwa [decide_eq_true_eq] at differ

theorem mem_naddr : lexeme ∈ naddr.matches' ↔
    ∃ rest ∈ Grammar.addr.matches', lexeme = exclamation :: rest := by
  rw [naddr, matches'_mul, matches'_char]
  constructor
  · rintro ⟨_, rfl, rest, matched, rfl⟩
    exact ⟨rest, matched, rfl⟩
  · rintro ⟨rest, matched, rfl⟩
    exact ⟨[exclamation], rfl, rest, matched, rfl⟩

theorem find?_cons_unmatched {first : Rule UInt8 Token} {others : List (Rule UInt8 Token)}
    (unmatched : lexeme ∉ first.pattern.matches') :
    (first :: others).find? (fun rule => rule.pattern.rmatch lexeme) =
      others.find? fun rule => rule.pattern.rmatch lexeme := by
  apply List.find?_cons_of_neg
  rw [rmatch_iff_matches']
  exact unmatched

theorem find?_cons_matched {first : Rule UInt8 Token} {others : List (Rule UInt8 Token)}
    (matched : lexeme ∈ first.pattern.matches') :
    (first :: others).find? (fun rule => rule.pattern.rmatch lexeme) = some first :=
  List.find?_cons_of_pos ((rmatch_iff_matches' _ _).mpr matched)

/-- What the rules for values match is a word, and not a name. -/
structure ValueText (lexeme : Bytes) : Prop where
  filled : lexeme ≠ []
  octets : ∀ octet ∈ lexeme, isWordOctet octet = true
  unnamed : lexeme.map toLower ∉ names

theorem notLetter_of_digit {octet : UInt8} (digit : isDigit octet = true) :
    isLetter (toLower octet) = false := by
  unfold isDigit at digit
  unfold isLetter toLower
  simp only [Bool.and_eq_true, decide_eq_true_eq, UInt8.le_iff_toNat_le, Bool.and_eq_false_iff,
    decide_eq_false_iff_not, UInt8.reduceToNat] at digit ⊢
  split_ifs <;> omega

theorem valueText_of_head {first : UInt8} {rest : Bytes}
    (listed : ∃ rule ∈ valueRules, first :: rest ∈ rule.pattern.matches')
    (notLetter : isLetter (toLower first) = false) : ValueText (first :: rest) := by
  rcases listed with ⟨rule, member, matched⟩
  exact ⟨List.cons_ne_nil _ _, (over_valueRules member).of_mem matched,
    notMem_names_of_head rfl notLetter⟩

theorem wordToken_value {found : Rule UInt8 Token} (value : ValueText lexeme)
    (first : valueRules.find? (fun rule => rule.pattern.rmatch lexeme) = some found) :
    wordToken lexeme = (found.action lexeme).getD .bad := by
  rw [wordToken, firstRule_word value.filled value.octets,
    find?_keywordRules_eq_none value.unnamed, first]
  rfl

theorem digit_head (matched : lexeme ∈ number.matches') :
    ∃ first rest, lexeme = first :: rest ∧ isDigit first = true := by
  rcases mem_number.mp matched with ⟨filled, digits⟩
  rcases lexeme with _ | ⟨first, rest⟩
  · exact absurd rfl filled
  · exact ⟨first, rest, rfl, digits first List.mem_cons_self⟩

theorem notMem_naddr_of_head {first : UInt8} {rest : Bytes} (other : first ≠ exclamation) :
    first :: rest ∉ naddr.matches' := by
  intro matched
  rcases mem_naddr.mp matched with ⟨address, -, same⟩
  exact other (List.cons.inj same).1

theorem wordToken_number (matched : lexeme ∈ number.matches') :
    wordToken lexeme = numberAction lexeme := by
  rcases digit_head matched with ⟨first, rest, rfl, digit⟩
  have value : ValueText (first :: rest) :=
    valueText_of_head ⟨rule number numberAction, by simp [valueRules], matched⟩
      (notLetter_of_digit digit)
  have notAddr : first :: rest ∉ Grammar.addr.matches' := by
    intro inAddr
    exact absurd ((mem_number.mp matched).2 colon (colon_mem_of_addr inAddr)) (by decide)
  have notNaddr : first :: rest ∉ naddr.matches' := by
    apply notMem_naddr_of_head
    rintro rfl
    exact absurd digit (by decide)
  rw [wordToken_value value (by rw [valueRules, find?_cons_unmatched notAddr,
    find?_cons_unmatched notNaddr, find?_cons_matched matched])]
  rfl

theorem notMem_number_of_mem {octet : UInt8} (member : octet ∈ lexeme)
    (other : isDigit octet = false) : lexeme ∉ number.matches' := by
  intro matched
  rw [(mem_number.mp matched).2 octet member] at other
  cases other

theorem wordToken_snum {digits : Bytes} (matched : digits ∈ number.matches') :
    wordToken (minusSign :: digits) = snumAction (minusSign :: digits) := by
  have inSnum : minusSign :: digits ∈ snum.matches' := mem_snum.mpr (.inr ⟨digits, matched, rfl⟩)
  have value : ValueText (minusSign :: digits) :=
    valueText_of_head ⟨rule snum snumAction, by simp [valueRules], inSnum⟩ (by decide)
  have notAddr : minusSign :: digits ∉ Grammar.addr.matches' := by
    intro inAddr
    rcases List.mem_cons.mp (colon_mem_of_addr inAddr) with same | inDigits
    · exact absurd same (by decide)
    · exact absurd ((mem_number.mp matched).2 colon inDigits) (by decide)
  have notNaddr : minusSign :: digits ∉ naddr.matches' := notMem_naddr_of_head (by decide)
  have notNumber : minusSign :: digits ∉ number.matches' :=
    notMem_number_of_mem List.mem_cons_self (by decide)
  rw [wordToken_value value (by rw [valueRules, find?_cons_unmatched notAddr,
    find?_cons_unmatched notNaddr, find?_cons_unmatched notNumber, find?_cons_matched inSnum])]
  rfl

theorem wordToken_decimal (matched : lexeme ∈ decimalNumber.matches') :
    wordToken lexeme = decimalAction lexeme := by
  rcases mem_decimal.mp matched with ⟨whole, inWhole, fraction, inFraction, same⟩
  rcases digit_head inWhole with ⟨first, rest, rfl, digit⟩
  rw [List.cons_append] at same
  have value : ValueText lexeme := by
    rw [same] at matched ⊢
    exact valueText_of_head ⟨rule decimalNumber decimalAction, by simp [valueRules], matched⟩
      (notLetter_of_digit digit)
  have notAddr : lexeme ∉ Grammar.addr.matches' := by
    intro inAddr
    have inside := colon_mem_of_addr inAddr
    rw [same, ← List.cons_append] at inside
    rcases List.mem_append.mp inside with inFirst | inSecond
    · exact absurd ((mem_number.mp inWhole).2 colon inFirst) (by decide)
    · rcases List.mem_cons.mp inSecond with equal | inLast
      · exact absurd equal (by decide)
      · exact absurd ((mem_number.mp inFraction).2 colon inLast) (by decide)
  have notNaddr : lexeme ∉ naddr.matches' := by
    rw [same]
    apply notMem_naddr_of_head
    rintro rfl
    exact absurd digit (by decide)
  have dotInside : dot ∈ lexeme := by simp [same]
  have notNumber : lexeme ∉ number.matches' := notMem_number_of_mem dotInside (by decide)
  have notSnum : lexeme ∉ snum.matches' := by
    intro inSnum
    rcases mem_snum.mp inSnum with inNumber | ⟨digits, -, equal⟩
    · exact notNumber inNumber
    · rw [same] at equal
      rw [(List.cons.inj equal).1] at digit
      exact absurd digit (by decide)
  rw [wordToken_value value (by rw [valueRules, find?_cons_unmatched notAddr,
    find?_cons_unmatched notNaddr, find?_cons_unmatched notNumber, find?_cons_unmatched notSnum,
    find?_cons_matched matched])]
  rfl

theorem wordToken_addr (matched : lexeme ∈ Grammar.addr.matches') :
    wordToken lexeme = addrAction lexeme := by
  have inside := colon_mem_of_addr matched
  have value : ValueText lexeme := by
    refine ⟨?_, (over_addr isWordOctet_of_addr).of_mem matched, notMem_names inside (by decide)⟩
    rintro rfl
    cases inside
  rw [wordToken_value value (by rw [valueRules, find?_cons_matched matched])]
  rfl

theorem wordToken_naddr (matched : lexeme ∈ Grammar.addr.matches') :
    wordToken (exclamation :: lexeme) = naddrAction (exclamation :: lexeme) := by
  have inNaddr : exclamation :: lexeme ∈ naddr.matches' := mem_naddr.mpr ⟨lexeme, matched, rfl⟩
  have value : ValueText (exclamation :: lexeme) :=
    valueText_of_head ⟨rule naddr naddrAction, by simp [valueRules], inNaddr⟩ (by decide)
  have notAddr : exclamation :: lexeme ∉ Grammar.addr.matches' := by
    intro inAddr
    have octets := (over_addr addr_octets_ne_exclamation).of_mem inAddr
    exact octets exclamation List.mem_cons_self rfl
  rw [wordToken_value value (by rw [valueRules, find?_cons_unmatched notAddr,
    find?_cons_matched inNaddr])]
  rfl

theorem find?_valueRules_eq_none (others : ∀ rule ∈ valueRules, lexeme ∉ rule.pattern.matches') :
    valueRules.find? (fun rule => rule.pattern.rmatch lexeme) = none := by
  rw [List.find?_eq_none]
  intro rule member matched
  exact others rule member ((rmatch_iff_matches' _ _).mp matched)

/-- The rules for values match no word that begins with another character and has no
colon. -/
theorem valueRules_of_head {first : UInt8} {rest : Bytes} (notDigit : isDigit first = false)
    (notSign : first ≠ minusSign) (notMark : first ≠ exclamation)
    (noColon : colon ∉ first :: rest) :
    ∀ rule ∈ valueRules, first :: rest ∉ rule.pattern.matches' := by
  intro rule member matched
  have noNumber : ∀ digits behind, digits ∈ number.matches' →
      first :: rest ≠ digits ++ behind := by
    intro digits behind inNumber same
    rcases digit_head inNumber with ⟨digit, others, rfl, inDigits⟩
    rw [(List.cons.inj same).1, inDigits] at notDigit
    cases notDigit
  simp only [valueRules, List.mem_cons, List.not_mem_nil, or_false] at member
  rcases member with rfl | rfl | rfl | rfl | rfl
  · exact noColon (colon_mem_of_addr matched)
  · exact notMem_naddr_of_head notMark matched
  · exact noNumber _ [] matched (List.append_nil _).symm
  · rcases mem_snum.mp matched with inNumber | ⟨digits, -, same⟩
    · exact noNumber _ [] inNumber (List.append_nil _).symm
    · exact notSign (List.cons.inj same).1
  · rcases mem_decimal.mp matched with ⟨whole, inWhole, fraction, -, same⟩
    exact noNumber whole (dot :: fraction) inWhole same

theorem valueRules_of_name (named : lexeme.map toLower ∈ names) :
    ∀ rule ∈ valueRules, lexeme ∉ rule.pattern.matches' := by
  rcases lexeme with _ | ⟨first, rest⟩
  · exact absurd (names_distinct.2 _ named).2 (by decide)
  · have letter : isLetter (toLower first) = true := (names_distinct.2 _ named).2
    apply valueRules_of_head
    · rw [← Bool.not_eq_true]
      intro digit
      rw [notLetter_of_digit digit] at letter
      cases letter
    · rintro rfl
      exact absurd letter (by decide)
    · rintro rfl
      exact absurd letter (by decide)
    · intro inside
      exact notMem_names inside (by decide) named

theorem wordToken_named {value : String × Token} (member : value ∈ named)
    (same : lexeme.map toLower = lowered value.1) : wordToken lexeme = value.2 := by
  have isName : lexeme.map toLower ∈ names := by
    rw [same]
    exact named_mem_names member
  have word := word_of_name (named_mem_names member) same
  have distinct := List.nodup_append.mp names_distinct.1
  have noKeyword : keywordRules.find? (fun rule => rule.pattern.rmatch lexeme) = none := by
    apply find?_names_eq_none
    intro keyword inAll equal
    rw [equal] at same
    exact distinct.2.2 _ (List.mem_map.mpr ⟨keyword, inAll, rfl⟩) _
      (List.mem_map.mpr ⟨value, member, rfl⟩) same
  have found : namedRules.find? (fun rule => rule.pattern.rmatch lexeme) =
      some (rule (caseless (ascii value.1)) fun _ => value.2) :=
    find?_names distinct.2.1 member same
  rw [wordToken, firstRule_word word.1 word.2, noKeyword,
    find?_valueRules_eq_none (valueRules_of_name isName), found]
  rfl

/-- A word that no rule before the one for strings matches. -/
structure Unnamed (lexeme : Bytes) : Prop where
  names : lexeme.map toLower ∉ names
  values : ∀ rule ∈ valueRules, lexeme ∉ rule.pattern.matches'

theorem stringOf_word (filled : lexeme ≠ []) (octets : ∀ octet ∈ lexeme, isWordOctet octet = true) :
    stringOf lexeme = some (.word lexeme filled octets) :=
  dif_pos ⟨filled, List.all_eq_true.mpr octets⟩

theorem wordToken_string (filled : lexeme ≠ [])
    (octets : ∀ octet ∈ lexeme, isWordOctet octet = true) (unnamed : Unnamed lexeme) :
    wordToken lexeme = .str (.word lexeme filled octets) := by
  rw [wordToken, firstRule_word filled octets, find?_keywordRules_eq_none unnamed.names,
    find?_valueRules_eq_none unnamed.values, find?_namedRules_eq_none unnamed.names]
  change (stringAction lexeme) = _
  rw [stringAction, stringOf_word filled octets]
  rfl

end

end Radvd.Grammar
