import Radvd.Dump.Reading
import Radvd.Dump.Values
import Radvd.Grammar.Tokens
import Radvd.Library.Patterns

/-!
# Sanitized text as a token

The pattern `string` of `scanner.l` and the output of `print_sanitized`. Between
double quotes the output is the only text at the beginning of the input that the
pattern matches, whatever comes after the closing quote
(`onlyMatch_quoted_sanitized`).
-/

namespace Radvd.Dump

open Wire Grammar Patterns Computability

/-! ## The pattern of the scanner -/

/-- A backslash and a character that does not end the line. -/
def escapePattern : Language UInt8 :=
  Set.range fun octet : {octet : UInt8 // octet ≠ newline} => [backslash, octet.val]

/-- A character other than a backslash and a double quote. -/
def plainPattern : Language UInt8 :=
  Set.range fun octet : {octet : UInt8 // octet ≠ backslash ∧ octet ≠ doubleQuote} => [octet.val]

/-- What stands between the double quotes of a string. -/
def insidePattern : Language UInt8 :=
  (escapePattern + plainPattern)∗

def quotedPattern : Language UInt8 :=
  {[doubleQuote]} * (insidePattern * {[doubleQuote]})

def wordPattern : Language UInt8 :=
  ({text | text ≠ [] ∧ ∀ octet ∈ text, isWordOctet octet = true} : Set Bytes)

/-- The letter before a string of wide characters. The scanner does not
distinguish the cases. -/
def widePattern : Language UInt8 :=
  {[76], [108]}

/-- The pattern `string`. -/
def stringPattern : Language UInt8 :=
  wordPattern + (1 + widePattern) * quotedPattern

theorem prefixFree_unit :
    PrefixFree (escapePattern + plainPattern + {[doubleQuote]}) := by
  rintro first ((⟨⟨octet, _⟩, rfl⟩ | ⟨⟨octet, notEscape, notQuote⟩, rfl⟩) | rfl)
      second ((⟨⟨other, _⟩, rfl⟩ | ⟨⟨other, notEscape', notQuote'⟩, rfl⟩) | rfl) begins
  all_goals simp only [List.cons_prefix_cons, List.nil_prefix, List.prefix_nil, and_true,
    reduceCtorEq, and_false, true_and] at begins
  · subst begins
    rfl
  · exact absurd begins notEscape
  · subst begins
    rfl
  · exact absurd begins notQuote
  · exact absurd begins (by decide)
  · exact absurd begins.symm notQuote'
  · rfl

theorem prefixFree_quotedPattern : PrefixFree quotedPattern := by
  apply (prefixFree_singleton _).mul
  apply prefixFree_kstar_mul prefixFree_unit
  rintro _ (⟨octet, rfl⟩ | ⟨⟨octet, notEscape, notQuote⟩, rfl⟩) closes
  · cases closes
  · cases closes
    exact notQuote rfl

theorem quoted_mem {text : Bytes} (inside : text ∈ insidePattern) :
    doubleQuote :: text ++ [doubleQuote] ∈ quotedPattern := by
  have quote : [doubleQuote] ∈ ({[doubleQuote]} : Language UInt8) := rfl
  have joined : [doubleQuote] ++ (text ++ [doubleQuote]) ∈ quotedPattern :=
    Language.append_mem_mul quote (Language.append_mem_mul inside quote)
  exact joined

/-- The quoted text, without the quotes, is a string of its own, and what comes
after the closing quote does not matter. -/
theorem onlyMatch_quoted {text : Bytes} (inside : text ∈ insidePattern) (rest : Bytes) :
    OnlyMatch stringPattern (doubleQuote :: text ++ doubleQuote :: rest)
      (doubleQuote :: text ++ [doubleQuote]) := by
  have single := prefixFree_quotedPattern.onlyMatch (quoted_mem inside) rest
  have input : doubleQuote :: text ++ [doubleQuote] ++ rest =
      doubleQuote :: text ++ doubleQuote :: rest := by simp
  have notWord : ∀ other ∈ wordPattern, ¬other <+: doubleQuote :: text ++ doubleQuote :: rest := by
    rintro other ⟨filled, octets⟩ begins
    cases other with
    | nil => exact filled rfl
    | cons octet others =>
        rw [List.cons_append, List.cons_prefix_cons] at begins
        have word := octets octet List.mem_cons_self
        rw [begins.1] at word
        revert word
        decide
  have notWide : ∀ other ∈ widePattern * quotedPattern,
      ¬other <+: doubleQuote :: text ++ doubleQuote :: rest := by
    rintro _ ⟨mark, marked, quoted, -, rfl⟩ begins
    rcases marked with rfl | rfl <;>
      · simp only [List.cons_append, List.nil_append, List.cons_prefix_cons] at begins
        exact absurd begins.1 (by decide)
  have split : stringPattern = wordPattern + (widePattern * quotedPattern + quotedPattern) := by
    unfold stringPattern
    rw [add_mul, one_mul, add_comm quotedPattern]
  rw [split, ← input]
  rw [← input] at notWord notWide
  exact (single.add notWide).add notWord

/-! ## Escaped text -/

theorem escape_mem {octet : UInt8} (sameLine : octet ≠ newline) :
    [backslash, octet] ∈ insidePattern :=
  mem_kstar_of_mem (.inl ⟨⟨octet, sameLine⟩, rfl⟩)

theorem plain_mem {octet : UInt8} (notEscape : octet ≠ backslash)
    (notQuote : octet ≠ doubleQuote) : [octet] ∈ insidePattern :=
  mem_kstar_of_mem (.inr ⟨⟨octet, notEscape, notQuote⟩, rfl⟩)

theorem Escaped.mem_insidePattern {text : Bytes} (escaped : Escaped text)
    (sameLine : newline ∉ text) : text ∈ insidePattern := by
  induction escaped with
  | nil => exact Language.nil_mem_kstar _
  | plain notQuote notEscape _ ih =>
      simp only [List.mem_cons, not_or] at sameLine
      exact append_mem_kstar (plain_mem notEscape notQuote) (ih sameLine.2)
  | pair _ ih =>
      simp only [List.mem_cons, not_or] at sameLine
      exact append_mem_kstar (escape_mem fun equal => sameLine.2.1 equal.symm) (ih sameLine.2.2)

theorem sanitized_mem (octets : Bytes) : sanitized octets ∈ insidePattern :=
  (escaped_sanitized octets).mem_insidePattern (newline_notMem_sanitized octets)

/-! ## Tokens -/

theorem isQuotedText_iff {text : Bytes} : isQuotedText text = true ↔ text ∈ insidePattern := by
  constructor
  · intro inside
    fun_induction isQuotedText text with
    | case1 => exact Language.nil_mem_kstar _
    | case2 octet =>
        simp only [Bool.and_eq_true, decide_eq_true_eq] at inside
        exact plain_mem inside.1 inside.2
    | case3 next rest ih =>
        simp only [Bool.and_eq_true, decide_eq_true_eq] at inside
        exact append_mem_kstar (escape_mem inside.1) (ih inside.2)
    | case4 octet next rest notEscape ih =>
        simp only [Bool.and_eq_true, decide_eq_true_eq] at inside
        exact append_mem_kstar (plain_mem notEscape inside.1) (ih inside.2)
  · rintro ⟨units, rfl, matched⟩
    induction units with
    | nil => rfl
    | cons unit units ih =>
        have later := ih fun other member => matched other (List.mem_cons_of_mem _ member)
        rcases matched unit List.mem_cons_self with ⟨⟨octet, sameLine⟩, rfl⟩ |
          ⟨⟨octet, notEscape, notQuote⟩, rfl⟩
        · simp [isQuotedText, sameLine, later]
        · rcases rest : units.flatten with _ | ⟨next, others⟩
          · simp [isQuotedText, rest, notEscape, notQuote]
          · rw [rest] at later
            simp [isQuotedText, rest, notEscape, notQuote, later]

theorem octets_mem_widePattern (mark : QuoteMark) :
    mark.octets ∈ (1 + widePattern : Language UInt8) := by
  cases mark with
  | plain => exact .inl Language.nil_mem_one
  | upper => exact .inr (.inl rfl)
  | lower => exact .inr (.inr rfl)

theorem eq_octets_of_mem_widePattern {text : Bytes}
    (member : text ∈ (1 + widePattern : Language UInt8)) :
    ∃ mark : QuoteMark, text = mark.octets := by
  rcases member with rfl | rfl | rfl
  · exact ⟨.plain, rfl⟩
  · exact ⟨.upper, rfl⟩
  · exact ⟨.lower, rfl⟩

/-- The texts of the token `STRING` match the pattern. -/
theorem yytext_mem_stringPattern (text : StringText) : text.yytext ∈ stringPattern := by
  cases text with
  | word text filled octets => exact .inl ⟨filled, octets⟩
  | quoted mark text inside =>
      have matched := quoted_mem (isQuotedText_iff.mp inside)
      have joined := Language.append_mem_mul (octets_mem_widePattern mark) matched
      rw [← List.append_assoc] at joined
      exact .inr joined

/-- The text of a captive portal, as `print_ff` prints it. -/
theorem onlyMatch_printed_sanitized (url rest : Bytes) :
    OnlyMatch stringPattern ((Value.text (sanitized url)).printed ++ rest)
      (Value.text (sanitized url)).printed := by
  have printed : (Value.text (sanitized url)).printed =
      doubleQuote :: sanitized url ++ [doubleQuote] := rfl
  have input : doubleQuote :: sanitized url ++ [doubleQuote] ++ rest =
      doubleQuote :: sanitized url ++ doubleQuote :: rest := by simp
  rw [printed, input]
  exact onlyMatch_quoted (sanitized_mem url) rest

/-- The output of `print_sanitized` is printable ASCII, is one token between
double quotes, and different octets give different outputs. -/
theorem sanitized_safe :
    (∀ octets, (sanitized octets).all isprint = true) ∧
    (∀ octets, sanitized octets ∈ insidePattern) ∧
    (∀ octets rest,
      OnlyMatch stringPattern (doubleQuote :: sanitized octets ++ doubleQuote :: rest)
        (doubleQuote :: sanitized octets ++ [doubleQuote]) ∧
      LongestMatch stringPattern (doubleQuote :: sanitized octets ++ doubleQuote :: rest)
        (doubleQuote :: sanitized octets ++ [doubleQuote])) ∧
    Function.Injective sanitized := by
  refine ⟨?_, sanitized_mem, ?_, sanitized_injective⟩
  · intro octets
    apply List.all_eq_true.mpr
    intro octet printed
    exact isprint_of_mem_sanitized printed
  · intro octets rest
    have single := onlyMatch_quoted (sanitized_mem octets) rest
    exact ⟨single, single.longestMatch⟩

end Radvd.Dump
