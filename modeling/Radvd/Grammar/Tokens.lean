import Mathlib.Algebra.Group.Int.Defs
import Radvd.Dump.Text

/-!
# The tokens of `scanner.l`

The tokens that carry a value, as the text the scanner matched, and the value
that its action computes from it. The rule for plain digits comes before the
rule for signed ones, so a number is only signed if it has a sign or is one of
the names of the preferences.

A number is read by `strtoul` on a machine whose `unsigned long` has 64 bits.
-/

namespace Radvd.Grammar

open Wire

instance neZero_ten : NeZero 10 :=
  ⟨by decide⟩

/-- What the pattern `number` matches. -/
structure NumberText where
  first : Fin 10
  rest : List (Fin 10)
  deriving DecidableEq, Repr

def NumberText.digits (text : NumberText) : List (Fin 10) :=
  text.first :: text.rest

/-- The number as it is written. -/
def NumberText.written (text : NumberText) : Nat :=
  text.digits.foldl (fun value digit => 10 * value + digit.val) 0

def strtoul (text : NumberText) : Nat :=
  min text.written (2 ^ 64 - 1)

/-- The token `NUMBER`, or a bad token. -/
def NumberText.num (text : NumberText) : Option UInt32 :=
  if strtoul text > 0xFFFFFFFF then none else some (UInt32.ofNat (strtoul text))

theorem NumberText.num_eq_some_iff {text : NumberText} {value : UInt32} :
    text.num = some value ↔ text.written = value.toNat := by
  have bound := value.toNat_lt
  unfold num strtoul
  split_ifs with large
  · simp only [false_iff]
    omega
  · rw [Option.some_inj]
    constructor
    · rintro rfl
      rw [UInt32.toNat_ofNat_of_lt' (by simp only [UInt32.size]; omega)]
      omega
    · intro written
      rw [Nat.min_eq_left (by omega), written, UInt32.ofNat_toNat]

/-- What the rules for `SIGNEDNUMBER` match. -/
inductive SignedText where
  | minus (digits : NumberText)
  | low
  | medium
  | high
  deriving DecidableEq, Repr

def SignedText.written : SignedText → Int
  | .minus digits => -digits.written
  | .low => -1
  | .medium => 0
  | .high => 1

/-- The conversion of `atoi`: `strtol`, cut to an `int`. -/
def atoi (written : Int) : Int :=
  (max (-2 ^ 63) (min written (2 ^ 63 - 1))).bmod (2 ^ 32)

def SignedText.snum : SignedText → Int
  | .minus digits => atoi (-digits.written)
  | .low => -1
  | .medium => 0
  | .high => 1

theorem SignedText.snum_of_small {text : SignedText} (lower : -2 ^ 31 ≤ text.written)
    (upper : text.written < 2 ^ 31) : text.snum = text.written := by
  cases text with
  | minus digits =>
      simp only [written] at lower upper
      simp only [snum, written, atoi]
      rw [Int.min_eq_left (by omega), Int.max_eq_right (by omega)]
      exact Int.bmod_eq_of_le (by omega) (by omega)
  | low => rfl
  | medium => rfl
  | high => rfl

/-- The value of a time that may have a fraction: `NUMBER` or `DECIMAL`. -/
inductive DecimalText where
  | number (text : NumberText)
  | decimal (whole fraction : NumberText)
  deriving DecidableEq, Repr

def DecimalText.dec : DecimalText → Option ℚ
  | .number text => text.num.map fun value => (value.toNat : ℚ)
  | .decimal whole fraction =>
      some (whole.written + fraction.written / 10 ^ fraction.digits.length)

inductive NumberOrInfinity where
  | number (text : NumberText)
  | infinity
  deriving DecidableEq, Repr

def NumberOrInfinity.num : NumberOrInfinity → Option UInt32
  | .number text => text.num
  | .infinity => some 0xFFFFFFFF

/-- The text between the quotes: a quote in it has a backslash before it, and what
a backslash is before is on the same line. -/
def isQuotedText : Bytes → Bool
  | [] => true
  | [octet] => octet ≠ Dump.backslash && octet ≠ Dump.doubleQuote
  | octet :: next :: rest =>
      if octet = Dump.backslash then next ≠ Dump.newline && isQuotedText rest
      else octet ≠ Dump.doubleQuote && isQuotedText (next :: rest)

/-- What stands before a quoted text: nothing, or the letter of a wide one in either
case. -/
inductive QuoteMark where
  | plain
  | upper
  | lower
  deriving DecidableEq, Repr

def QuoteMark.octets : QuoteMark → Bytes
  | .plain => []
  | .upper => [76]
  | .lower => [108]

/-- What the pattern `string` matches: a word, or quoted text that may be marked
as wide. -/
inductive StringText where
  | word (text : Bytes) (filled : text ≠ []) (octets : ∀ octet ∈ text, Dump.isWordOctet octet)
  | quoted (mark : QuoteMark) (text : Bytes) (inside : isQuotedText text = true)
  deriving DecidableEq, Repr

/-- The text as it is written, without the quotes. -/
def StringText.content : StringText → Bytes
  | .word text _ _ => text
  | .quoted _ text _ => text

def StringText.yytext : StringText → Bytes
  | .word text _ _ => text
  | .quoted mark text _ => mark.octets ++ Dump.doubleQuote :: text ++ [Dump.doubleQuote]

/-- The token `STRING`: a copy in a buffer of 256 characters. -/
def StringText.str (text : StringText) : Bytes :=
  (text.yytext.takeWhile (· ≠ 0)).take 255

theorem StringText.length_str (text : StringText) : text.str.length ≤ 255 := by
  simp only [str, List.length_take]
  omega

/-- The copy of a string in the array of a name, `IFNAMSIZ` characters with the
terminating NUL. -/
def StringText.ifname (text : StringText) : Bytes :=
  text.str.take 15

def eth0 : StringText :=
  .word [101, 116, 104, 48] (by decide) (List.all_eq_true.mp (by decide))

end Radvd.Grammar
