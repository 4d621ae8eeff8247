import Mathlib.Computability.RegularExpressions

/-!
# Scanners from rules

A scanner as `flex` makes it of rules with regular expressions. At every place of
its input it takes the rule with the longest match, and the first of these if there
are several. Trailing context counts for the length of a match, and is left in the
input. A character that no rule matches is skipped, as the default rule does.

`Lexes` says what a scanner does and `scan` does it (`scan_eq_iff`).
-/

namespace Flex

open Computability

universe u v

/-- The text of a match goes to the action, which may return a token. -/
structure Rule (α : Type u) (τ : Type v) where
  pattern : RegularExpression α
  trailing : List α
  action : List α → Option τ

variable {α : Type u} {τ : Type v}

namespace Rule

/-- The text is a match at the beginning of the input. -/
structure Matches (rule : Rule α τ) (input text : List α) : Prop where
  nonempty : text ≠ []
  matched : text ∈ rule.pattern.matches'
  follows : text ++ rule.trailing <+: input

/-- The length that counts. -/
def reach (rule : Rule α τ) (text : List α) : Nat :=
  text.length + rule.trailing.length

variable {rule : Rule α τ} {input text other : List α}

theorem Matches.isPrefix (matched : rule.Matches input text) : text <+: input :=
  (List.prefix_append text rule.trailing).trans matched.follows

theorem Matches.eq_take (matched : rule.Matches input text) : input.take text.length = text :=
  (List.prefix_iff_eq_take.mp matched.isPrefix).symm

theorem Matches.length_le (matched : rule.Matches input text) : text.length ≤ input.length :=
  matched.isPrefix.length_le

theorem Matches.eq_of_reach (first : rule.Matches input text) (second : rule.Matches input other)
    (same : rule.reach text = rule.reach other) : text = other := by
  have length : text.length = other.length := Nat.add_right_cancel same
  rw [← first.eq_take, ← second.eq_take, length]

end Rule

/-! ## What a scanner does -/

/-- The rule that is taken, and its match. -/
structure Chosen (rules : List (Rule α τ)) (input : List α) (rule : Rule α τ)
    (text : List α) : Prop where
  matched : rule.Matches input text
  longest : ∀ other ∈ rules, ∀ longer, other.Matches input longer →
    other.reach longer ≤ rule.reach text
  first : ∃ earlier later, rules = earlier ++ rule :: later ∧
    ∀ other ∈ earlier, ∀ shorter, other.Matches input shorter →
      other.reach shorter < rule.reach text

/-- From the first input to the second one the scanner returns the tokens. -/
inductive Lexes (rules : List (Rule α τ)) : List α → List τ → List α → Prop
  | done {input : List α} : Lexes rules input [] input
  | rule {rule : Rule α τ} {text rest last : List α} {tokens : List τ}
      (chosen : Chosen rules (text ++ rest) rule text) (later : Lexes rules rest tokens last) :
      Lexes rules (text ++ rest) ((rule.action text).toList ++ tokens) last
  | skip {character : α} {rest last : List α} {tokens : List τ}
      (unmatched : ∀ rule ∈ rules, ∀ text, ¬rule.Matches (character :: rest) text)
      (later : Lexes rules rest tokens last) :
      Lexes rules (character :: rest) tokens last

section

variable {rules : List (Rule α τ)} {input middle last text longer : List α} {rule other : Rule α τ}
  {tokens more : List τ}

theorem Chosen.ne_nil (chosen : Chosen rules input rule text) : text ≠ [] :=
  chosen.matched.nonempty

theorem Chosen.mem (chosen : Chosen rules input rule text) : rule ∈ rules := by
  rcases chosen.first with ⟨earlier, later, same, -⟩
  rw [same]
  exact List.mem_append_right earlier List.mem_cons_self

theorem Chosen.unique (one : Chosen rules input rule text)
    (two : Chosen rules input other longer) : rule = other ∧ text = longer := by
  have reaches : rule.reach text = other.reach longer :=
    le_antisymm (two.longest rule one.mem text one.matched)
      (one.longest other two.mem longer two.matched)
  rcases one.first with ⟨earlier, later, same, first⟩
  rcases two.first with ⟨earlier', later', same', first'⟩
  have rulesEq : rule = other := by
    rw [same] at same'
    rcases List.append_eq_append_iff.mp same' with ⟨gap, before, after⟩ | ⟨gap, before, after⟩
    · cases gap with
      | nil => exact (List.cons.inj after).1
      | cons head gap =>
          have inFront : rule ∈ earlier' := by
            rw [before, (List.cons.inj after).1]
            simp
          exact absurd reaches (first' rule inFront text one.matched).ne
    · cases gap with
      | nil => exact (List.cons.inj after).1.symm
      | cons head gap =>
          have inFront : other ∈ earlier := by
            rw [before, (List.cons.inj after).1]
            simp
          exact absurd reaches (first other inFront longer two.matched).ne'
  subst rulesEq
  exact ⟨rfl, one.matched.eq_of_reach two.matched reaches⟩

theorem Chosen.cons (chosen : Chosen rules input other longer)
    (beaten : ∀ candidate, rule.Matches input candidate →
      rule.reach candidate < other.reach longer) :
    Chosen (rule :: rules) input other longer := by
  rcases chosen.first with ⟨earlier, later, same, first⟩
  refine ⟨chosen.matched, ?_, rule :: earlier, later, by rw [same, List.cons_append], ?_⟩
  · intro another member text matched
    rcases List.mem_cons.mp member with rfl | inRest
    · exact (beaten text matched).le
    · exact chosen.longest another inRest text matched
  · intro another member text matched
    rcases List.mem_cons.mp member with rfl | inEarlier
    · exact beaten text matched
    · exact first another inEarlier text matched

end

/-! ## A scanner -/

section

variable [DecidableEq α] {rules : List (Rule α τ)} {input text longer : List α}
  {rule other : Rule α τ} {tokens : List τ}

instance Rule.decidableMatches (rule : Rule α τ) (input text : List α) :
    Decidable (rule.Matches input text) :=
  decidable_of_iff (text ≠ [] ∧ rule.pattern.rmatch text = true ∧ text ++ rule.trailing <+: input)
    ⟨fun holds => ⟨holds.1, (RegularExpression.rmatch_iff_matches' _ _).mp holds.2.1, holds.2.2⟩,
      fun matched => ⟨matched.nonempty, (RegularExpression.rmatch_iff_matches' _ _).mpr
        matched.matched, matched.follows⟩⟩

/-- The longest match of a rule, or nothing. -/
def Rule.longestMatch (rule : Rule α τ) (input : List α) : List α :=
  input.take (Nat.findGreatest (fun length => rule.Matches input (input.take length)) input.length)

theorem Rule.matches_longestMatch (nonempty : rule.longestMatch input ≠ []) :
    rule.Matches input (rule.longestMatch input) := by
  have found := @Nat.findGreatest_of_ne_zero _
    (fun length => rule.Matches input (input.take length)) _ input.length rfl
  apply found
  intro zero
  apply nonempty
  rw [Rule.longestMatch, zero, List.take_zero]

theorem Rule.Matches.length_le_longestMatch (matched : rule.Matches input text) :
    text.length ≤ (rule.longestMatch input).length := by
  have atLeast : text.length ≤
      Nat.findGreatest (fun length => rule.Matches input (input.take length)) input.length := by
    apply Nat.le_findGreatest matched.length_le
    rw [matched.eq_take]
    exact matched
  rw [Rule.longestMatch, List.length_take, Nat.min_eq_left (Nat.findGreatest_le _)]
  exact atLeast

theorem Rule.longestMatch_eq_nil_iff :
    rule.longestMatch input = [] ↔ ∀ text, ¬rule.Matches input text := by
  constructor
  · intro empty text matched
    have shorter := matched.length_le_longestMatch
    rw [empty, List.length_nil, Nat.le_zero, List.length_eq_zero_iff] at shorter
    exact matched.nonempty shorter
  · intro unmatched
    by_contra nonempty
    exact unmatched _ (Rule.matches_longestMatch nonempty)

theorem Rule.Matches.reach_le (matched : rule.Matches input text) :
    rule.reach text ≤ rule.reach (rule.longestMatch input) :=
  Nat.add_le_add_right matched.length_le_longestMatch _

theorem Chosen.head (nonempty : rule.longestMatch input ≠ [])
    (others : ∀ other ∈ rules, ∀ longer, other.Matches input longer →
      other.reach longer ≤ rule.reach (rule.longestMatch input)) :
    Chosen (rule :: rules) input rule (rule.longestMatch input) := by
  refine ⟨Rule.matches_longestMatch nonempty, ?_, [], rules, rfl, by simp⟩
  intro other member longer matched
  rcases List.mem_cons.mp member with same | inRest
  · rw [same] at matched ⊢
    exact matched.reach_le
  · exact others other inRest longer matched

/-- The rule with the longest match, if there is a match. -/
def choose (input : List α) : List (Rule α τ) → Option (Rule α τ × List α)
  | [] => none
  | rule :: rest =>
      let text := rule.longestMatch input
      match choose input rest with
      | none => if text = [] then none else some (rule, text)
      | some (other, longer) =>
          if text ≠ [] ∧ other.reach longer ≤ rule.reach text then some (rule, text)
          else some (other, longer)

theorem choose_eq_none_iff :
    choose input rules = none ↔ ∀ rule ∈ rules, ∀ text, ¬rule.Matches input text := by
  induction rules with
  | nil => simp [choose]
  | cons rule rest ih =>
      rw [List.forall_mem_cons, ← Rule.longestMatch_eq_nil_iff, ← ih, choose]
      rcases choose input rest with _ | ⟨other, longer⟩
      · simp
      · dsimp only
        split <;> simp

theorem chosen_of_choose (found : choose input rules = some (rule, text)) :
    Chosen rules input rule text := by
  induction rules generalizing rule text with
  | nil => cases found
  | cons head rest ih =>
      rw [choose] at found
      rcases later : choose input rest with _ | ⟨other, longer⟩
      · rw [later] at found
        dsimp only at found
        split at found
        · cases found
        · rename_i nonempty
          cases found
          apply Chosen.head nonempty
          intro other inRest longer matched
          exact absurd matched (choose_eq_none_iff.mp later other inRest longer)
      · have chosen := ih later
        rw [later] at found
        dsimp only at found
        split at found
        · rename_i atLeast
          cases found
          apply Chosen.head atLeast.1
          intro another inRest text matched
          exact (chosen.longest another inRest text matched).trans atLeast.2
        · rename_i kept
          cases found
          apply chosen.cons
          intro candidate matched
          by_contra notShorter
          apply kept
          constructor
          · intro empty
            exact Rule.longestMatch_eq_nil_iff.mp empty candidate matched
          · exact (not_lt.mp notShorter).trans matched.reach_le

theorem choose_eq_some_iff : choose input rules = some (rule, text) ↔
    Chosen rules input rule text := by
  constructor
  · exact chosen_of_choose
  · intro chosen
    rcases found : choose input rules with _ | ⟨other, longer⟩
    · exact absurd chosen.matched (choose_eq_none_iff.mp found rule chosen.mem text)
    · rcases chosen.unique (chosen_of_choose found) with ⟨rfl, rfl⟩
      rfl

/-- The tokens of an input. -/
def scan (rules : List (Rule α τ)) : List α → List τ
  | [] => []
  | character :: rest =>
      match choose (character :: rest) rules with
      | none => scan rules rest
      | some (rule, text) =>
          (rule.action text).toList ++ scan rules (rest.drop (text.length - 1))
termination_by input => input.length
decreasing_by
  · simp
  · simp only [List.length_drop, List.length_cons]
    omega

theorem scan_of_chosen {rest : List α} (chosen : Chosen rules (text ++ rest) rule text) :
    scan rules (text ++ rest) = (rule.action text).toList ++ scan rules rest := by
  rcases text with _ | ⟨character, text⟩
  · exact absurd rfl chosen.ne_nil
  · rw [List.cons_append, scan, ← List.cons_append, choose_eq_some_iff.mpr chosen]
    simp

theorem lexes_scan : Lexes rules input (scan rules input) [] := by
  induction hlength : input.length using Nat.strong_induction_on generalizing input with
  | _ length ih =>
      rcases input with _ | ⟨character, rest⟩
      · rw [scan]
        exact .done
      · rcases found : choose (character :: rest) rules with _ | ⟨rule, text⟩
        · rw [scan, found]
          exact .skip (choose_eq_none_iff.mp found) (ih rest.length (by simp [← hlength]) rfl)
        · have chosen := choose_eq_some_iff.mp found
          rcases chosen.matched.isPrefix with ⟨behind, same⟩
          rw [← same] at chosen hlength ⊢
          have shorter : behind.length < length := by
            have positive := List.length_pos_iff.mpr chosen.ne_nil
            rw [List.length_append] at hlength
            omega
          rw [scan_of_chosen chosen]
          exact .rule chosen (ih behind.length shorter rfl)

/-- The scanner does what the rules say, and nothing else does. -/
theorem scan_eq_iff : scan rules input = tokens ↔ Lexes rules input tokens [] := by
  constructor
  · rintro rfl
    exact lexes_scan
  · intro lexes
    generalize ending : ([] : List α) = last at lexes
    induction lexes with
    | done =>
        rw [← ending, scan]
    | rule chosen _ ih => rw [scan_of_chosen chosen, ih ending]
    | skip unmatched _ ih =>
        rw [scan, choose_eq_none_iff.mpr unmatched]
        exact ih ending

end

/-! ## Patterns whose matches are words -/

section

variable {word : α → Prop} {pattern : RegularExpression α} {text : List α}

/-- Every character of the pattern has the property. -/
def Over (word : α → Prop) : RegularExpression α → Prop
  | .zero | .epsilon => True
  | .char character => word character
  | .plus first second | .comp first second => Over word first ∧ Over word second
  | .star body => Over word body

theorem Over.of_mem (within : Over word pattern) (matched : text ∈ pattern.matches') :
    ∀ character ∈ text, word character := by
  induction pattern generalizing text with
  | zero => cases matched
  | epsilon =>
      cases matched
      simp
  | char character =>
      cases matched
      intro other member
      rw [List.mem_singleton.mp member]
      exact within
  | plus first second firstIh secondIh =>
      rcases matched with inFirst | inSecond
      · exact firstIh within.1 inFirst
      · exact secondIh within.2 inSecond
  | comp first second firstIh secondIh =>
      rcases matched with ⟨head, headMatched, tail, tailMatched, rfl⟩
      intro character member
      rcases List.mem_append.mp member with inHead | inTail
      · exact firstIh within.1 headMatched character inHead
      · exact secondIh within.2 tailMatched character inTail
  | star body ih =>
      rcases matched with ⟨parts, rfl, partsMatched⟩
      intro character member
      rcases List.mem_flatten.mp member with ⟨part, partMem, inPart⟩
      exact ih within (partsMatched part partMem) character inPart

/-- One of the characters. -/
def oneOf (characters : List α) : RegularExpression α :=
  (characters.map RegularExpression.char).foldr (· + ·) 0

theorem mem_oneOf {characters : List α} :
    text ∈ (oneOf characters).matches' ↔ ∃ character ∈ characters, text = [character] := by
  induction characters with
  | nil => simp [oneOf]
  | cons head rest ih =>
      have unfolded : oneOf (head :: rest) = .char head + oneOf rest := rfl
      have single : text ∈ (RegularExpression.char head).matches' ↔ text = [head] := Iff.rfl
      rw [unfolded, RegularExpression.matches'_add, Language.mem_add, ih, single]
      simp

theorem mem_pow_oneOf {characters : List α} {count : Nat} :
    text ∈ (oneOf characters ^ count).matches' ↔
      text.length = count ∧ ∀ character ∈ text, character ∈ characters := by
  rw [RegularExpression.matches'_pow]
  induction count generalizing text with
  | zero =>
      rw [pow_zero, Language.mem_one, List.length_eq_zero_iff]
      constructor
      · rintro rfl
        simp
      · intro empty
        exact empty.1
  | succ count ih =>
      rw [pow_succ', Language.mem_mul]
      constructor
      · rintro ⟨first, firstMatched, rest, restMatched, rfl⟩
        rcases mem_oneOf.mp firstMatched with ⟨character, member, rfl⟩
        rcases ih.mp restMatched with ⟨rfl, inRest⟩
        rw [List.singleton_append, List.forall_mem_cons]
        exact ⟨List.length_cons, member, inRest⟩
      · rintro ⟨length, members⟩
        rcases text with _ | ⟨character, rest⟩
        · cases length
        · rw [List.forall_mem_cons] at members
          exact ⟨[character], mem_oneOf.mpr ⟨character, members.1, rfl⟩, rest,
            ih.mpr ⟨Nat.succ.inj length, members.2⟩, rfl⟩

/-- One or more times. -/
def plus (pattern : RegularExpression α) : RegularExpression α :=
  pattern * pattern.star

theorem mem_plus_oneOf {characters : List α} :
    text ∈ (plus (oneOf characters)).matches' ↔
      text ≠ [] ∧ ∀ character ∈ text, character ∈ characters := by
  constructor
  · rintro ⟨first, firstMatched, _, ⟨parts, rfl, partsMatched⟩, rfl⟩
    rcases mem_oneOf.mp firstMatched with ⟨head, headMem, rfl⟩
    refine ⟨List.cons_ne_nil _ _, ?_⟩
    intro character member
    rcases List.mem_cons.mp member with rfl | inParts
    · exact headMem
    · rcases List.mem_flatten.mp inParts with ⟨part, partMem, inPart⟩
      rcases mem_oneOf.mp (partsMatched part partMem) with ⟨single, singleMem, rfl⟩
      rw [List.mem_singleton.mp inPart]
      exact singleMem
  · rintro ⟨nonempty, words⟩
    rcases text with _ | ⟨head, rest⟩
    · exact absurd rfl nonempty
    · rw [List.forall_mem_cons] at words
      refine ⟨[head], mem_oneOf.mpr ⟨head, words.1, rfl⟩, rest, ?_, rfl⟩
      refine ⟨rest.map fun character => [character], ?_, ?_⟩
      · clear words nonempty
        induction rest with
        | nil => rfl
        | cons next rest ih => rw [List.map_cons, List.flatten_cons, ← ih, List.singleton_append]
      · intro part partMem
        rcases List.mem_map.mp partMem with ⟨character, member, rfl⟩
        exact mem_oneOf.mpr ⟨character, words.2 character member, rfl⟩

theorem over_oneOf {characters : List α} (words : ∀ character ∈ characters, word character) :
    Over word (oneOf characters) := by
  induction characters with
  | nil => trivial
  | cons head rest ih =>
      rw [List.forall_mem_cons] at words
      exact ⟨words.1, ih words.2⟩

theorem Over.plus (within : Over word pattern) : Over word (Flex.plus pattern) :=
  ⟨within, within⟩

theorem Over.pow (within : Over word pattern) (count : Nat) : Over word (pattern ^ count) := by
  induction count with
  | zero => trivial
  | succ count ih => exact ⟨ih, within⟩

end

end Flex
