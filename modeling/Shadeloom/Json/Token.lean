import Shadeloom.Json.Number
/-!
# JSON tokens

The tokens of a JSON text are found one character at a time by a machine whose mode says what it
stands inside of. Words and numbers end where another token or a space begins. A text with half of
a pair of code units alone is a token without content.
-/
namespace Shadeloom.Json

/-- The pieces of a JSON text. -/
inductive Token where
  | openArray
  | closeArray
  | openObject
  | closeObject
  | comma
  | colon
  /-- A text, without content if it holds half of a pair alone. -/
  | text (content : Option String)
  /-- A value that is no container and no text. -/
  | scalar (value : Json)

/-- A text that is not complete. -/
structure Draft where
  /-- The characters so far, last first, unless half of a pair stands alone among them. -/
  read : Option (List Char)
  /-- The first half of a pair, if it is the last that was read. -/
  high : Option Nat

namespace Draft

/-- A text without characters. -/
def empty : Draft := ⟨some [], none⟩

/-- A text in which half of a pair stands alone. -/
def broken : Draft := ⟨none, none⟩

/-- The text with one more character. -/
def push (draft : Draft) (c : Char) : Draft :=
  match draft.high with
  | none => ⟨draft.read.map (c :: ·), none⟩
  | some _ => broken

/-- The text with one more code unit of sixteen bits. -/
def pushUnit (draft : Draft) (unit : Nat) : Draft :=
  let isHigh := 0xD800 ≤ unit ∧ unit < 0xDC00
  let isLow := 0xDC00 ≤ unit ∧ unit < 0xE000
  match draft.high with
  | none =>
    if isHigh then { draft with high := some unit }
    else if isLow then broken
    else draft.push (Char.ofNat unit)
  | some high =>
    if isLow then
      push { draft with high := none }
        (Char.ofNat (0x10000 + (high - 0xD800) * 0x400 + (unit - 0xDC00)))
    else broken

/-- The text, if every half of a pair is in a pair. -/
def content? (draft : Draft) : Option String :=
  match draft.high with
  | none => draft.read.map fun read => String.ofList read.reverse
  | some _ => none

end Draft

/-- What the next character belongs to. -/
inductive Mode where
  | between
  /-- Inside a word, with its characters last first. -/
  | word (read : List Char)
  | text (draft : Draft)
  /-- After a backslash. -/
  | escape (draft : Draft)
  /-- Inside a code unit escape. -/
  | code (draft : Draft) (digits value : Nat)

/-- A lexer between two characters; tokens are kept last first. -/
structure Lexer where
  mode : Mode
  tokens : List Token

/-- The spaces that may stand between tokens. -/
def isSpace (c : Char) : Bool :=
  c = ' ' || c = '\n' || c = '\t' || c = '\r'

/-- The value of a word: one of the three constants or a number. -/
def word? (word : List Char) : Option Json :=
  if word = "true".toList then some (.bool true)
  else if word = "false".toList then some (.bool false)
  else if word = "null".toList then some .null
  else number? word

/-- The value of a hexadecimal digit. -/
def hexDigit? (c : Char) : Option Nat :=
  if c.isDigit then some (c.toNat - '0'.toNat)
  else if 'a' ≤ c ∧ c ≤ 'f' then some (c.toNat - 'a'.toNat + 10)
  else if 'A' ≤ c ∧ c ≤ 'F' then some (c.toNat - 'A'.toNat + 10)
  else none

/-- The character of a one-letter escape. -/
def shortEscape? : Char → Option Char
  | '"' => some '"'
  | '\\' => some '\\'
  | '/' => some '/'
  | 'b' => some '\x08'
  | 'f' => some '\x0c'
  | 'n' => some '\n'
  | 'r' => some '\r'
  | 't' => some '\t'
  | _ => none

namespace Lexer

/-- The lexer after the word it stands inside of. -/
def endWord (lexer : Lexer) : Option Lexer :=
  match lexer.mode with
  | .word read => (word? read.reverse).map fun value => ⟨.between, .scalar value :: lexer.tokens⟩
  | _ => some lexer

/-- The token of a character that is a token by itself. -/
def mark? : Char → Option Token
  | '[' => some .openArray
  | ']' => some .closeArray
  | '{' => some .openObject
  | '}' => some .closeObject
  | ',' => some .comma
  | ':' => some .colon
  | _ => none

/-- The lexer after a character outside of strings. -/
def outside (lexer : Lexer) (c : Char) : Option Lexer :=
  if isSpace c then lexer.endWord
  else if c = '"' then lexer.endWord.map fun ended => { ended with mode := .text .empty }
  else
    match mark? c with
    | some token => lexer.endWord.map fun ended => { ended with tokens := token :: ended.tokens }
    | none =>
      match lexer.mode with
      | .word read => some { lexer with mode := .word (c :: read) }
      | _ => some { lexer with mode := .word [c] }

/-- The lexer after one more character. -/
def step (lexer : Lexer) (c : Char) : Option Lexer :=
  match lexer.mode with
  | .between => lexer.outside c
  | .word _ => lexer.outside c
  | .text draft =>
    if c = '"' then some ⟨.between, .text draft.content? :: lexer.tokens⟩
    else if c = '\\' then some { lexer with mode := .escape draft }
    else if c.toNat < 0x20 then none
    else some { lexer with mode := .text (draft.push c) }
  | .escape draft =>
    if c = 'u' then some { lexer with mode := .code draft 0 0 }
    else (shortEscape? c).map fun short => { lexer with mode := .text (draft.push short) }
  | .code draft digits value =>
    (hexDigit? c).map fun digit =>
      let value := 16 * value + digit
      if digits = 3 then { lexer with mode := .text (draft.pushUnit value) }
      else { lexer with mode := .code draft (digits + 1) value }

/-- The tokens of a text that goes on after the lexer, and whether it consists of tokens to its
end. -/
def run : Lexer → List Char → List Token × Bool
  | lexer, [] =>
    match lexer.endWord with
    | some ⟨.between, tokens⟩ => (tokens.reverse, true)
    | _ => (lexer.tokens.reverse, false)
  | lexer, c :: rest =>
    match lexer.step c with
    | none => (lexer.tokens.reverse, false)
    | some next => next.run rest

end Lexer

/-- The tokens of a text, and whether it consists of tokens to its end. -/
def tokens (text : List Char) : List Token × Bool :=
  Lexer.run ⟨.between, []⟩ text

end Shadeloom.Json
