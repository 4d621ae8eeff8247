import Mathlib.Computability.Language

/-!
# Patterns of a scanner

A scanner takes the longest beginning of its input that a pattern matches. Where
no match of a pattern is the beginning of another one, the token ends with the
match, whatever comes after it (`PrefixFree.onlyMatch`). That is so for a
repetition up to a terminator, if the repeated texts and the terminators
together are prefix-free (`prefixFree_kstar_mul`).
-/

namespace Patterns

open Computability

universe u

variable {α : Type u} {pattern unit stop : Language α} {first second token : List α}

/-- The token of a scanner at the beginning of its input. -/
structure LongestMatch (pattern : Language α) (input token : List α) : Prop where
  isPrefix : token <+: input
  matched : token ∈ pattern
  longest : ∀ other, other <+: input → other ∈ pattern → other.length ≤ token.length

/-- The pattern matches no other beginning of the input. -/
structure OnlyMatch (pattern : Language α) (input token : List α) : Prop where
  isPrefix : token <+: input
  matched : token ∈ pattern
  only : ∀ other, other <+: input → other ∈ pattern → other = token

theorem OnlyMatch.longestMatch {input : List α} (single : OnlyMatch pattern input token) :
    LongestMatch pattern input token where
  isPrefix := single.isPrefix
  matched := single.matched
  longest := by
    intro other begins otherMatched
    rw [single.only other begins otherMatched]

/-- Another pattern none of whose matches begins the input changes nothing. -/
theorem OnlyMatch.add {input : List α} {others : Language α}
    (single : OnlyMatch pattern input token) (apart : ∀ other ∈ others, ¬other <+: input) :
    OnlyMatch (others + pattern) input token where
  isPrefix := single.isPrefix
  matched := .inr single.matched
  only := by
    intro other begins otherMatched
    rcases otherMatched with foreign | own
    · exact absurd begins (apart other foreign)
    · exact single.only other begins own

/-- No match is the beginning of another one. -/
def PrefixFree (pattern : Language α) : Prop :=
  ∀ first ∈ pattern, ∀ second ∈ pattern, first <+: second → first = second

theorem PrefixFree.eq_of_isPrefix {input : List α} (free : PrefixFree pattern)
    (firstMatched : first ∈ pattern) (secondMatched : second ∈ pattern)
    (firstBegins : first <+: input) (secondBegins : second <+: input) : first = second := by
  rcases List.prefix_or_prefix_of_prefix firstBegins secondBegins with shorter | longer
  · exact free first firstMatched second secondMatched shorter
  · exact (free second secondMatched first firstMatched longer).symm

theorem PrefixFree.onlyMatch (free : PrefixFree pattern) (matched : token ∈ pattern)
    (rest : List α) : OnlyMatch pattern (token ++ rest) token where
  isPrefix := List.prefix_append token rest
  matched := matched
  only := fun _ begins otherMatched =>
    free.eq_of_isPrefix otherMatched matched begins (List.prefix_append token rest)

theorem prefixFree_singleton (text : List α) : PrefixFree ({text} : Language α) := by
  rintro first rfl second rfl -
  rfl

theorem PrefixFree.mul (firstFree : PrefixFree pattern) (secondFree : PrefixFree stop) :
    PrefixFree (pattern * stop) := by
  rintro _ ⟨head, headMatched, tail, tailMatched, rfl⟩ _ ⟨other, otherMatched, last, lastMatched, rfl⟩
    begins
  have heads : head = other :=
    firstFree.eq_of_isPrefix headMatched otherMatched ((List.prefix_append head tail).trans begins)
      (List.prefix_append other last)
  subst heads
  have tails := secondFree tail tailMatched last lastMatched
    ((List.prefix_append_right_inj head).mp begins)
  rw [tails]

theorem prefixFree_kstar_mul (free : PrefixFree (unit + stop))
    (apart : ∀ text ∈ unit, text ∉ stop) : PrefixFree (unit∗ * stop) := by
  have differ : ∀ {text ending input : List α}, text ∈ unit → ending ∈ stop → text <+: input →
      ¬ending <+: input := by
    intro text ending input inUnit inStop textBegins endingBegins
    have same := free.eq_of_isPrefix (.inl inUnit) (.inr inStop) textBegins endingBegins
    rw [← same] at inStop
    exact apart text inUnit inStop
  rintro _ ⟨_, ⟨units, rfl, inUnit⟩, ending, inStop, rfl⟩ _
    ⟨_, ⟨others, rfl, othersInUnit⟩, last, lastInStop, rfl⟩ begins
  dsimp only at begins ⊢
  induction units generalizing others with
  | nil =>
      cases others with
      | nil => exact free ending (.inr inStop) last (.inr lastInStop) begins
      | cons other others =>
          have otherBegins : other <+: (other :: others).flatten ++ last := by
            rw [List.flatten_cons, List.append_assoc]
            exact List.prefix_append _ _
          exact absurd begins (differ (othersInUnit other List.mem_cons_self) inStop otherBegins)
  | cons text units ih =>
      rw [List.flatten_cons, List.append_assoc] at begins ⊢
      have textBegins := (List.prefix_append text (units.flatten ++ ending)).trans begins
      cases others with
      | nil =>
          exact absurd (List.prefix_refl last)
            (differ (inUnit text List.mem_cons_self) lastInStop textBegins)
      | cons other others =>
          rw [List.flatten_cons, List.append_assoc] at begins textBegins ⊢
          have heads : text = other :=
            free.eq_of_isPrefix (.inl (inUnit text List.mem_cons_self))
              (.inl (othersInUnit other List.mem_cons_self)) textBegins (List.prefix_append _ _)
          subst heads
          have tails := ih (fun unit member => inUnit unit (List.mem_cons_of_mem _ member)) others
            (fun unit member => othersInUnit unit (List.mem_cons_of_mem _ member))
            ((List.prefix_append_right_inj text).mp begins)
          rw [tails]

/-- A repetition is closed under concatenation. -/
theorem append_mem_kstar (firstMatched : first ∈ unit∗) (secondMatched : second ∈ unit∗) :
    first ++ second ∈ unit∗ := by
  rw [← kstar_mul_kstar]
  exact Language.append_mem_mul firstMatched secondMatched

theorem mem_kstar_of_mem (matched : token ∈ unit) : token ∈ unit∗ :=
  (le_kstar : unit ≤ unit∗) matched

end Patterns
