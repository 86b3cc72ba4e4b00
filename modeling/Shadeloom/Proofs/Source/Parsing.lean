import Mathlib
import Shadeloom.Source.Parser
/-!
# Reading a text by its form

What is read of a text whose form is known.
-/
namespace Shadeloom.Source

variable {text left right : List Char}

/-- A blank text is read as a missing tree. -/
theorem parseChars_of_blank (form : Form.ofChars (Text.trim text) = .blank) :
    parseChars text = .empty := by
  rw [parseChars]
  split <;> simp_all

/-- A text that is an operation is read by its sides. -/
theorem parseChars_of_operation {op : BinaryOp}
    (form : Form.ofChars (Text.trim text) = .operation op left right) :
    parseChars text = .binary op (parseChars left) (parseChars right) := by
  rw [parseChars]
  split <;> simp_all

/-- A text that is an equality is read by its sides. -/
theorem parseChars_of_equal (form : Form.ofChars (Text.trim text) = .equal left right) :
    parseChars text = Expr.equality (parseChars left) (parseChars right) := by
  rw [parseChars]
  split <;> simp_all

/-- A text that is an inequality from below is read by its sides. -/
theorem parseChars_of_atLeast (form : Form.ofChars (Text.trim text) = .atLeast left right) :
    parseChars text = Expr.atLeast (parseChars left) (parseChars right) := by
  rw [parseChars]
  split <;> simp_all

/-- A text that is an inequality from above is read by its sides. -/
theorem parseChars_of_atMost (form : Form.ofChars (Text.trim text) = .atMost left right) :
    parseChars text = Expr.atMost (parseChars left) (parseChars right) := by
  rw [parseChars]
  split <;> simp_all

/-- A text in brackets is read by what is inside them. -/
theorem parseChars_of_bracketed (form : Form.ofChars (Text.trim text) = .bracketed left) :
    parseChars text = parseChars left := by
  rw [parseChars]
  split <;> simp_all

/-- A text that is a call is read by its arguments. -/
theorem parseChars_of_call {name : List Char}
    (form : Form.ofChars (Text.trim text) = .call name left) :
    parseChars text = Expr.application (String.ofList name) (parseChars left) := by
  rw [parseChars]
  split <;> simp_all

/-- A text that starts with a minus sign is read as a difference from zero. -/
theorem parseChars_of_negated (form : Form.ofChars (Text.trim text) = .negated left) :
    parseChars text = .binary .sub (Expr.numeral "0.0") (parseChars left) := by
  rw [parseChars]
  split <;> simp_all

/-- A text that starts with a plus sign is read without it. -/
theorem parseChars_of_unsigned (form : Form.ofChars (Text.trim text) = .unsigned left) :
    parseChars text = parseChars left := by
  rw [parseChars]
  split <;> simp_all

/-- A text that is an atom is read as what the atom is. -/
theorem parseChars_of_atom (form : Form.ofChars (Text.trim text) = .atom left) :
    parseChars text = atom left := by
  rw [parseChars]
  split <;> simp_all

end Shadeloom.Source
