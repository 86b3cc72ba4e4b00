import Shadeloom.Text.Lines
/-!
# Variables

A variable is a name with an optional default in braces and an optional subscript in brackets. A
text is taken apart by its first braces and then by its first brackets; what does not have the
shape of a suffix stays in the name.
-/
namespace Shadeloom

/-- A free identifier with its suffixes split off. -/
structure Variable where
  /-- The bare name, with a hidden marker or instance mark if it has one. -/
  name : String
  /-- The text inside the braces. -/
  fallback : Option String
  /-- The text inside the brackets; empty for access to a whole vector. -/
  subscript : Option String
  deriving Repr, DecidableEq, Inhabited

namespace Variable

/-- A variable without suffixes. -/
def plain (name : String) : Variable := ⟨name, none, none⟩

/-- Whether the name is hidden from callers by a leading underscore. -/
def isHidden (v : Variable) : Bool :=
  v.name.toList.head? = some '_'

/-- Whether the variable is read as a vector. -/
def isVectorAccess (v : Variable) : Bool :=
  v.subscript.isSome

/-- A suffix in its brackets, or nothing. -/
def suffixText (opening closing : Char) : Option String → String
  | none => ""
  | some text => String.ofList (opening :: text.toList ++ [closing])

/-- The source text of a variable. -/
def text (v : Variable) : String :=
  v.name ++ suffixText '{' '}' v.fallback ++ suffixText '[' ']' v.subscript

/-- The text between the first opening and the first closing mark and the text around them, if
the marks are in this order. -/
def enclosed? (opening closing : Char) (text : List Char) :
    Option (List Char × List Char × List Char) :=
  match Text.splitAtFirst? opening text with
  | none => none
  | some (before, rest) =>
    if before.contains closing then none
    else (Text.splitAtFirst? closing rest).map fun (inside, after) => (before, inside, after)

/-- A text without its default, and the default. Braces are a default at the end of the text or
directly before a bracket. -/
def splitDefault (text : List Char) : List Char × Option (List Char) :=
  match enclosed? '{' '}' text with
  | some (before, inside, []) => (before, some inside)
  | some (before, inside, '[' :: after) => (before ++ '[' :: after, some inside)
  | _ => (text, none)

/-- A text without its subscript, and the subscript. Brackets are a subscript at the end. -/
def splitSubscript (text : List Char) : List Char × Option (List Char) :=
  match enclosed? '[' ']' text with
  | some (before, inside, []) => (before, some inside)
  | _ => (text, none)

/-- The variable that a text is. -/
def ofChars (text : List Char) : Variable :=
  let (rest, fallback) := splitDefault text
  let (name, subscript) := splitSubscript rest
  ⟨String.ofList name, fallback.map String.ofList, subscript.map String.ofList⟩

/-- The variable that a string is. -/
def ofString (text : String) : Variable :=
  ofChars text.toList

end Variable

end Shadeloom
