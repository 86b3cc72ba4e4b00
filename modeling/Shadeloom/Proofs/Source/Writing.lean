import Mathlib
import Shadeloom.Proofs.Source.Cuts
import Shadeloom.Source.Parser
/-!
# Written trees

How trees are written: with brackets at least where the levels of operators need them, and with any
blanks around operators. From loose to tight the levels are those of arguments, of comparisons, of
sums, of products, of powers and of what stands for itself. What is written at a level shows no
operator of a looser level outside of brackets and quotes.
-/
namespace Shadeloom

namespace BinaryOp

/-- The level of what an operator makes. -/
def level : BinaryOp → Nat
  | comma => 0
  | assign => 0
  | gt => 1
  | lt => 1
  | add => 2
  | sub => 2
  | mul => 3
  | div => 3
  | pow => 4

/-- The least level of the left side of an operator. Commas, comparisons and powers group to the
right. -/
def leftLevel : BinaryOp → Nat
  | comma => 1
  | assign => 1
  | gt => 2
  | lt => 2
  | add => 2
  | sub => 2
  | mul => 3
  | div => 3
  | pow => 5

/-- The least level of the right side of an operator. Sums and products group to the left. -/
def rightLevel : BinaryOp → Nat
  | comma => 0
  | assign => 0
  | gt => 1
  | lt => 1
  | add => 3
  | sub => 3
  | mul => 4
  | div => 4
  | pow => 4

/-- The sides of an operator are no looser than what it makes. -/
theorem level_le (op : BinaryOp) : op.level ≤ op.leftLevel ∧ op.level ≤ op.rightLevel := by
  cases op <;> decide

end BinaryOp

namespace Source

/-- The characters of an identifier after its first letter. -/
def isWordChar (c : Char) : Bool :=
  Text.isAlphanumeric c || c = '_' || c = '.'

/-- Whether a text is a letter with letters, digits, underscores and points after it, perhaps after
an underscore. -/
inductive IsIdentifier : List Char → Prop
  | shown {c : Char} {rest : List Char} (letter : Text.isAlphabetic c = true)
    (word : rest.all isWordChar = true) : IsIdentifier (c :: rest)
  | hidden {c : Char} {rest : List Char} (letter : Text.isAlphabetic c = true)
    (word : rest.all isWordChar = true) : IsIdentifier ('_' :: c :: rest)

/-- Whether a text is digits, and some. -/
def IsDigits (text : List Char) : Prop :=
  text ≠ [] ∧ text.all Char.isDigit = true

/-- Whether a text is digits, or a point and digits, perhaps after digits. -/
inductive IsMantissa : List Char → Prop
  | whole {digits : List Char} (whole : IsDigits digits) : IsMantissa digits
  | fraction {digits decimals : List Char} (whole : digits.all Char.isDigit = true)
    (fraction : IsDigits decimals) : IsMantissa (digits ++ '.' :: decimals)

/-- Whether a text is nothing or an exponent with or without a sign. -/
inductive IsExponent : List Char → Prop
  | none : IsExponent []
  | some {mark : Char} {sign digits : List Char} (marked : mark = 'e' ∨ mark = 'E')
    (signed : sign = [] ∨ sign = ['+'] ∨ sign = ['-']) (number : IsDigits digits) :
    IsExponent (mark :: (sign ++ digits))

/-- Whether a text has no brackets and no quotes. -/
def IsPlain (text : List Char) : Prop :=
  ∀ c ∈ text, c ∉ ['"', '(', '[', '{', ')', ']', '}']

/-- Whether all characters of a text are blanks. -/
def IsBlank (text : List Char) : Prop :=
  ∀ c ∈ text, Text.isBlank c = true

/-- No characters are blanks. -/
theorem isBlank_nil : IsBlank [] := nofun

/-- Whether a variable is an identifier with suffixes that hold no brackets. -/
structure IsWritable (v : Variable) : Prop where
  name : IsIdentifier v.name.toList
  fallback : ∀ text, v.fallback = some text → IsPlain text.toList
  subscript : ∀ text, v.subscript = some text → IsPlain text.toList

/-- The functions that are expanded while they are read. -/
def sugarNames : List String :=
  ["atan2", "not", "and", "or", "xor", "mmod", "clamp", "clip", "fract", "floor", "ceil", "combine"]

/-- Whether calls of a name stay calls: it is listed and no sugar, or it calls a group. -/
inductive IsCallName : String → Prop
  | listed {name : String} (listed : (Function.find? name).isSome = true)
    (callable : Function.isCallable name = true) (plain : name ∉ sugarNames) : IsCallName name
  | group {name : List Char} (identifier : IsIdentifier name) :
    IsCallName (String.ofList ('f' :: 'n' :: ':' :: name))

/-- Two texts with an operator between them, which has blanks around it. -/
def binaryText (op : BinaryOp) (left before after right : List Char) : List Char :=
  left ++ ((before ++ (op.symbol.toList ++ after)) ++ right)

/-- A name with a text in brackets after it. -/
def callText (name : String) (text : List Char) : List Char :=
  name.toList ++ '(' :: (text ++ [')'])

/-- Whether a text is a tree as it is written where nothing looser than a level may stand. -/
inductive Written : Nat → Expr → List Char → Prop
  | var {v : Variable} (writable : IsWritable v) : Written 5 (.var v) v.text.toList
  | numeral {mantissa exponent : List Char} (decimal : IsMantissa mantissa)
    (power : IsExponent exponent) :
    Written 5 (.value ⟨String.ofList (mantissa ++ exponent)⟩) (mantissa ++ exponent)
  | quoted {text : List Char} (inside : '"' ∉ text) :
    Written 5 (.value ⟨String.ofList ('"' :: (text ++ ['"']))⟩) ('"' :: (text ++ ['"']))
  | call {name : String} {args : Expr} {text : List Char} (callable : IsCallName name)
    (arguments : Written 0 args text) :
    Written 5 (.call name args) (callText name text)
  | combine {x : Expr} {y z : Option Expr} {text : List Char} (ordered : y = none → z = none)
    (single : ∀ e ∈ Expr.components x y z, ∀ lhs rhs, e ≠ .binary .comma lhs rhs)
    (arguments : Written 0 (.chain (Expr.components x y z)) text) :
    Written 5 (.combine x y z) (callText "combine" text)
  | bracketed {e : Expr} {text : List Char} (inside : Written 1 e text) :
    Written 5 e ('(' :: (text ++ [')']))
  | binary {op : BinaryOp} {lhs rhs : Expr} {left before after right : List Char}
    (operator : op ≠ .assign) (first : Written op.leftLevel lhs left)
    (second : Written op.rightLevel rhs right) (blank : IsBlank before) (blank' : IsBlank after) :
    Written op.level (.binary op lhs rhs) (binaryText op left before after right)
  | looser {level level' : Nat} {e : Expr} {text : List Char} (le : level ≤ level')
    (written : Written level' e text) : Written level e text

/-- The characters of identifiers are characters of names. -/
theorem isNameChar_of_isWordChar {c : Char} (word : isWordChar c = true) :
    Variable.isNameChar c = true ∧ c ≠ ':' := by
  unfold isWordChar at word
  simp only [Bool.or_eq_true, decide_eq_true_eq] at word
  constructor
  · unfold Variable.isNameChar
    rcases word with (alphanumeric | rfl) | rfl
    · simp [alphanumeric]
    · decide
    · decide
  · rintro rfl
    rcases word with (alphanumeric | same) | same
    · exact absurd alphanumeric (by decide)
    · cases same
    · cases same

/-- Letters are characters of identifiers. -/
theorem isWordChar_of_alphabetic {c : Char} (letter : Text.isAlphabetic c = true) :
    isWordChar c = true := by
  simp [isWordChar, Text.isAlphanumeric, letter]

/-- All characters of an identifier are characters of identifiers. -/
theorem IsIdentifier.all_isWordChar {text : List Char} (identifier : IsIdentifier text) :
    ∀ c ∈ text, isWordChar c = true := by
  cases identifier with
  | shown letter word =>
    intro c mem
    rcases List.mem_cons.1 mem with rfl | mem
    · exact isWordChar_of_alphabetic letter
    · exact List.all_eq_true.1 word c mem
  | hidden letter word =>
    intro c mem
    rcases List.mem_cons.1 mem with rfl | mem
    · decide
    · rcases List.mem_cons.1 mem with rfl | mem
      · exact isWordChar_of_alphabetic letter
      · exact List.all_eq_true.1 word c mem

/-- The characters that operators are made of, and the sign of an assignment. -/
def operators : List Char :=
  [',', '=', '>', '<', '+', '-', '*', '/']

/-- Blanks are no brackets, quotes, operators or characters of names. -/
theorem not_special_of_isBlank {c : Char} (blank : Text.isBlank c = true) :
    c ∉ ['"', '(', '[', '{', ')', ']', '}'] ∧ c ∉ operators ∧ Variable.isNameChar c = false := by
  have solid {special : List Char} (none : (special.all fun other => !Text.isBlank other) = true) :
      c ∉ special := by
    intro mem
    have other := List.all_eq_true.1 none c mem
    rw [blank] at other
    cases other
  refine ⟨solid (by decide), solid (by decide), ?_⟩
  by_contra named
  rw [Bool.not_eq_false] at named
  have other := (Variable.not_special_of_isNameChar named).1
  rw [blank] at other
  cases other

/-- The characters of operators are no brackets, quotes, blanks or characters of names. -/
theorem not_special_of_operator {c : Char} (operator : c ∈ operators) :
    c ∉ ['"', '(', '[', '{', ')', ']', '}'] ∧ Text.isBlank c = false ∧
      Variable.isNameChar c = false := by
  have every : (operators.all fun c => c ∉ ['"', '(', '[', '{', ')', ']', '}'] &&
      !Text.isBlank c && !Variable.isNameChar c) = true := by decide
  have here := List.all_eq_true.1 every c operator
  simp only [Bool.and_eq_true, decide_eq_true_eq, Bool.not_eq_true'] at here
  exact ⟨here.1.1, here.1.2, here.2⟩

/-- The text of an operator is made of such characters. -/
theorem symbol_operators (op : BinaryOp) : ∀ c ∈ op.symbol.toList, c ∈ operators := by
  have every : (op.symbol.toList.all fun c => c ∈ operators) = true := by cases op <;> decide
  intro c mem
  simpa using List.all_eq_true.1 every c mem

end Source

end Shadeloom
