import Shadeloom.Decimal.Layout
import Shadeloom.Json.Basic
/-!
# JSON text

The compact text of a value has no spaces; the indented text puts every item on a line of its own,
two spaces deeper than its container, and leaves an empty container on one line.
-/
namespace Shadeloom.Json

/-- The lower-case hexadecimal digits of a control character, two of them. -/
def controlDigits (c : Char) : List Char :=
  let digits := Nat.toDigits 16 c.toNat
  List.replicate (2 - digits.length) '0' ++ digits

/-- A character inside a JSON string. -/
def escaped (c : Char) : List Char :=
  match c with
  | '"' => ['\\', '"']
  | '\\' => ['\\', '\\']
  | '\x08' => ['\\', 'b']
  | '\x0c' => ['\\', 'f']
  | '\n' => ['\\', 'n']
  | '\r' => ['\\', 'r']
  | '\t' => ['\\', 't']
  | c => if c.toNat < 0x20 then ['\\', 'u', '0', '0'] ++ controlDigits c else [c]

/-- A JSON string. -/
def quoted (text : String) : String :=
  String.ofList ('"' :: text.toList.flatMap escaped ++ ['"'])

/-- The text of a value that is no container. -/
def scalarText : Json → String
  | .null => "null"
  | .bool value => if value then "true" else "false"
  | .int value => toString value
  | .float value => if value.isFinite then Decimal.storedText value else "null"
  | .str text => quoted text
  | .arr _ => "[]"
  | .obj _ => "\x7b\x7d"
  | .unusable _ => "null"

mutual

/-- The text of a value without spaces. -/
def compact : Json → String
  | .arr items => "[" ++ compactItems items ++ "]"
  | .obj members => "\x7b" ++ compactMembers members ++ "\x7d"
  | value => value.scalarText

/-- The texts of items, separated by commas. -/
def compactItems : List Json → String
  | [] => ""
  | [item] => item.compact
  | item :: rest => item.compact ++ "," ++ compactItems rest

/-- The texts of members, separated by commas. -/
def compactMembers : List (String × Json) → String
  | [] => ""
  | [(key, value)] => quoted key ++ ":" ++ value.compact
  | (key, value) :: rest => quoted key ++ ":" ++ value.compact ++ "," ++ compactMembers rest

end

/-- The start of a line at a depth. -/
def lineStart (depth : Nat) : String :=
  String.ofList ('\n' :: List.replicate (2 * depth) ' ')

mutual

/-- The indented text of a value that stands at a depth. -/
def indentedAt (depth : Nat) : Json → String
  | .arr [] => "[]"
  | .arr items => "[" ++ indentedItems (depth + 1) items ++ lineStart depth ++ "]"
  | .obj [] => "\x7b\x7d"
  | .obj members => "\x7b" ++ indentedMembers (depth + 1) members ++ lineStart depth ++ "\x7d"
  | value => value.scalarText

/-- The texts of items, each on its line. -/
def indentedItems (depth : Nat) : List Json → String
  | [] => ""
  | [item] => lineStart depth ++ item.indentedAt depth
  | item :: rest => lineStart depth ++ item.indentedAt depth ++ "," ++ indentedItems depth rest

/-- The texts of members, each on its line. -/
def indentedMembers (depth : Nat) : List (String × Json) → String
  | [] => ""
  | [(key, value)] => lineStart depth ++ quoted key ++ ": " ++ value.indentedAt depth
  | (key, value) :: rest =>
    lineStart depth ++ quoted key ++ ": " ++ value.indentedAt depth ++ "," ++
      indentedMembers depth rest

end

/-- The indented text of a value. -/
def indented (value : Json) : String :=
  value.indentedAt 0

end Shadeloom.Json
