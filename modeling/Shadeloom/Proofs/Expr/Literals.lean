import Mathlib
import Shadeloom.Proofs.Arithmetic.Zeros
import Shadeloom.Source.Parser
/-!
# Literals of a source

Literals that are the same have the same number, but for the two zeros. A literal that is read from a
source starts with a digit, a point or a quote, so its number has no minus sign, and no such literal
stands for the second zero.
-/
namespace Shadeloom

namespace Text

/-- A text that starts with no blank keeps its first character when it is trimmed. -/
theorem trim_cons {c : Char} (solid : isBlank c = false) (text : List Char) :
    ∃ rest, trim (c :: text) = c :: rest := by
  have last : (c :: text).reverse.dropWhile isBlank = text.reverse.dropWhile isBlank ++ [c] := by
    rw [List.reverse_cons, List.dropWhile_append]
    split
    · rename_i none
      rw [List.isEmpty_iff.1 none]
      simp [solid]
    · rfl
  refine ⟨(text.reverse.dropWhile isBlank).reverse, ?_⟩
  rw [trim, trimLeft_cons text solid, trimRight, last, List.reverse_append]
  rfl

/-- Digits are neither blanks nor signs. -/
theorem solid_of_isDigit {c : Char} (digit : c.isDigit = true) :
    isBlank c = false ∧ c ≠ '-' ∧ c ≠ '+' := by
  have bounds : 48 ≤ c.toNat ∧ c.toNat ≤ 57 := by
    simpa [Char.isDigit, UInt32.le_iff_toNat_le] using digit
  refine ⟨?_, ?_, ?_⟩
  · unfold isBlank
    simp only [Bool.or_eq_false_iff, Bool.and_eq_false_iff, decide_eq_false_iff_not]
    omega
  · rintro rfl
    exact absurd bounds.1 (by decide)
  · rintro rfl
    exact absurd bounds.1 (by decide)

end Text

namespace Literal

/-- Whether a literal is written as it stands in a source. -/
def IsAtom (literal : Literal) : Prop :=
  Source.isValueAtom literal.text.toList = true

/-- The text of an atom keeps its first character, which is no sign, when blanks are trimmed. -/
theorem head_of_atom {text : List Char} (atom : Source.isValueAtom text = true) :
    ∃ c rest, Text.trim text = c :: rest ∧ c ≠ '-' ∧ c ≠ '+' := by
  obtain ⟨c, rest, rfl, solid, minus, plus⟩ : ∃ c rest, text = c :: rest ∧
      Text.isBlank c = false ∧ c ≠ '-' ∧ c ≠ '+' := by
    unfold Source.isValueAtom at atom
    split at atom
    · exact ⟨_, _, rfl, by decide, by decide, by decide⟩
    · rename_i c rest _
      rw [Bool.or_eq_true, decide_eq_true_eq] at atom
      rcases atom with digit | rfl
      · exact ⟨c, rest, rfl, Text.solid_of_isDigit digit⟩
      · exact ⟨_, _, rfl, by decide, by decide, by decide⟩
    · cases atom
  obtain ⟨rest', trimmed⟩ := Text.trim_cons solid rest
  exact ⟨c, rest', trimmed, minus, plus⟩

/-- The number of an atom has no minus sign. -/
theorem unsigned_number {literal : Literal} (atom : literal.IsAtom) {x : Float}
    (read : literal.number? = some x) : Unsigned x := by
  unfold number? at read
  split at read
  · cases read
    exact isUnsigned_unpack (by decide +kernel)
  · cases read
    exact isUnsigned_unpack (by decide +kernel)
  · cases read
  · obtain ⟨c, rest, trimmed, minus, plus⟩ := head_of_atom atom
    rw [trimmed] at read
    unfold Decimal.read? at read
    split at read
    · rename_i same
      injection same with same
      exact absurd same minus
    · rename_i same
      injection same with same
      exact absurd same plus
    · exact Decimal.unsigned_magnitude? read

/-- Whether a literal stands for no zero but a given one, of which there are two. -/
def ZeroIs (zero : Float) (literal : Literal) : Prop :=
  ∀ x, literal.number? = some x → (x == 0.0) = true → x = zero

/-- An atom stands for no zero with a minus sign. -/
theorem zeroIs_of_atom {literal : Literal} (atom : literal.IsAtom) : literal.ZeroIs 0.0 :=
  fun _ read none => eq_zero_of_unsigned (unsigned_number atom read) none

/-- Literals that are the same have the same number, unless one of them is zero and the other one is
zero with a minus sign. -/
theorem number?_eq_of_same {zero : Float} {a b : Literal} (left : a.ZeroIs zero)
    (right : b.ZeroIs zero) (same : a.same b = true) : a.number? = b.number? := by
  have numbers := number?_of_same same
  cases first : a.number? with
  | none =>
    cases second : b.number? with
    | none => rfl
    | some y => rw [first, second] at numbers; cases numbers
  | some x =>
    cases second : b.number? with
    | none => rw [first, second] at numbers; cases numbers
    | some y =>
      rw [first, second] at numbers
      rw [eq_of_oneZero (left x first) (right y second) (Option.some.inj numbers)]

end Literal

end Shadeloom
