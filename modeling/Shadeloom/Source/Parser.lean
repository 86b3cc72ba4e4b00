import Shadeloom.Expr.Sugar
import Shadeloom.Source.Form
/-!
# Reading expressions

A text is read by its form: its pieces are read the same way and put together. Every text is read
as some tree; what has no sense becomes a tree that the validity check refuses.
-/
namespace Shadeloom

namespace Source

/-- Whether an atom is a value: it starts with a digit, a quote, or a point before a digit. -/
def isValueAtom : List Char → Bool
  | '.' :: c :: _ => c.isDigit
  | c :: _ => c.isDigit || c = '"'
  | [] => false

/-- The tree of an atom. -/
def atom (text : List Char) : Expr :=
  if isValueAtom text then .value ⟨String.ofList text⟩ else .var (Variable.ofChars text)

/-- The tree of a text. -/
def parseChars (text : List Char) : Expr :=
  match _form : Form.ofChars (Text.trim text) with
  | .blank => .empty
  | .bracketed interior => parseChars interior
  | .call name interior => Expr.application (String.ofList name) (parseChars interior)
  | .equal left right => Expr.equality (parseChars left) (parseChars right)
  | .atLeast left right => Expr.atLeast (parseChars left) (parseChars right)
  | .atMost left right => Expr.atMost (parseChars left) (parseChars right)
  | .operation op left right => .binary op (parseChars left) (parseChars right)
  | .negated rest => .binary .sub (Expr.numeral "0.0") (parseChars rest)
  | .unsigned rest => parseChars rest
  | .atom text => atom text
termination_by text.length
decreasing_by
  all_goals
    have shorter : ∀ piece ∈ (Form.ofChars (Text.trim text)).pieces, piece.length < text.length :=
      fun piece mem =>
        Nat.lt_of_lt_of_le (Form.length_lt_of_mem_pieces mem) (Text.length_trim_le text)
    exact shorter _ (by simp [*, Form.pieces])

/-- The tree of a source. -/
def parse (source : String) : Expr :=
  parseChars source.toList

/-- Whether the brackets and quotes of a source are balanced. -/
def isBalanced (source : String) : Bool :=
  Brackets.isBalanced source.toList

end Source

end Shadeloom
