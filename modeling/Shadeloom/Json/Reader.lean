import Shadeloom.Json.Token
/-!
# Reading JSON

A value is built from tokens with a stack of the containers that are still open. The state between
two tokens says which tokens may follow. How deep containers are nested is no matter of grammar:
one that more than 126 others are around is read, but has no use. Where a text goes wrong, the
containers that are open are given up with what is in them.
-/
namespace Shadeloom.Json

/-- A container that is still open; items and members are kept last first. An object is sound until
one of its keys has no content; members from there on are not kept. -/
inductive Container where
  | array (items : List Json)
  | object (members : List (String × Json)) (sound : Bool)

namespace Container

/-- The container with one more member. -/
def addMember (members : List (String × Json)) (sound : Bool) (key : Option String)
    (value : Json) : Container :=
  match key, sound with
  | some key, true => .object ((key, value) :: members) true
  | _, _ => .object members false

/-- The value of a container that ends. -/
def toJson : Container → Json
  | array items => .arr items.reverse
  | object members true => .obj members.reverse
  | object members false => .unusable (.obj members.reverse)

end Container

/-- What may follow. -/
inductive Expected where
  | value
  | valueOrClose
  | key
  | keyOrClose
  | colon (key : Option String)
  | memberValue (key : Option String)
  | commaOrClose
  | nothing (value : Json)

/-- A reader between two tokens, the innermost open container first. A member whose value is still
to come leaves its key in `keys`, innermost first. -/
structure Reader where
  expected : Expected
  containers : List Container
  keys : List (Option String)

namespace Reader

/-- A reader before the first token. -/
def start : Reader := ⟨.value, [], []⟩

/-- How deep containers with a use may be nested. -/
def depthLimit : Nat := 127

/-- The reader after a whole value. -/
def complete (value : Json) (containers : List Container) (keys : List (Option String)) :
    Option Reader :=
  match containers, keys with
  | [], _ => some ⟨.nothing value, [], keys⟩
  | .array items :: outer, keys => some ⟨.commaOrClose, .array (value :: items) :: outer, keys⟩
  | .object members sound :: outer, key :: keys =>
    some ⟨.commaOrClose, .addMember members sound key value :: outer, keys⟩
  | .object _ _ :: _, [] => none

/-- The value of a container with so many others around it. -/
def usable (outer : List Container) (value : Json) : Json :=
  if (outer.drop (depthLimit - 1)).isEmpty then value else .unusable .null

/-- The reader after the end of the innermost container. -/
def close (array : Bool) (reader : Reader) : Option Reader :=
  match reader.containers, array with
  | .array items :: outer, true =>
    complete (usable outer (Container.array items).toJson) outer reader.keys
  | .object members sound :: outer, false =>
    complete (usable outer (Container.object members sound).toJson) outer reader.keys
  | _, _ => none

/-- The reader after a token that begins a value. -/
def beginValue (reader : Reader) (keys : List (Option String)) : Token → Option Reader
  | .scalar value => complete value reader.containers keys
  | .text content => complete ((content.map .str).getD (.unusable .null)) reader.containers keys
  | .openArray => some ⟨.valueOrClose, .array [] :: reader.containers, keys⟩
  | .openObject => some ⟨.keyOrClose, .object [] true :: reader.containers, keys⟩
  | _ => none

/-- The reader after a separator inside the innermost container. -/
def next (reader : Reader) : Option Reader :=
  match reader.containers with
  | .array _ :: _ => some { reader with expected := .value }
  | .object _ _ :: _ => some { reader with expected := .key }
  | [] => none

/-- The reader after one more token. -/
def step (reader : Reader) (token : Token) : Option Reader :=
  match reader.expected, token with
  | .value, token => reader.beginValue reader.keys token
  | .valueOrClose, .closeArray => reader.close true
  | .valueOrClose, token => reader.beginValue reader.keys token
  | .key, .text key => some { reader with expected := .colon key }
  | .keyOrClose, .closeObject => reader.close false
  | .keyOrClose, .text key => some { reader with expected := .colon key }
  | .colon key, .colon => some { reader with expected := .memberValue key }
  | .memberValue key, token => reader.beginValue (key :: reader.keys) token
  | .commaOrClose, .comma => reader.next
  | .commaOrClose, .closeArray => reader.close true
  | .commaOrClose, .closeObject => reader.close false
  | _, _ => none

/-- The reader after a list of tokens, or before the first that may not follow, and whether all of
them may. -/
def run : Reader → List Token → Reader × Bool
  | reader, [] => (reader, true)
  | reader, token :: rest =>
    match reader.step token with
    | none => (reader, false)
    | some next => next.run rest

/-- The value of a container that is not written to its end, with so many others around it. -/
def spoilt (outer : List Container) (container : Container) : Json :=
  usable outer (.unusable container.toJson)

/-- What a reader has built when the text goes wrong after a part of a value in open containers. -/
def giveUp (inner : Json) : List Container → List (Option String) → Json
  | [], _ => inner
  | .array items :: outer, keys => giveUp (spoilt outer (.array (inner :: items))) outer keys
  | .object members sound :: outer, key :: keys =>
    giveUp (spoilt outer (.addMember members sound key inner)) outer keys
  | .object members sound :: outer, [] => giveUp (spoilt outer (.object members sound)) outer []

/-- The value that a reader has built when the text ends or goes wrong. -/
def finish (reader : Reader) (whole : Bool) : Json :=
  match reader.expected, reader.containers with
  | .nothing value, _ => if whole then value else .unusable value
  | _, [] => .unusable .null
  | _, container :: outer => giveUp (spoilt outer container) outer reader.keys

end Reader

/-- The value that a text is; it is unusable if the text goes wrong. -/
def read (text : String) : Json :=
  let (tokens, whole) := tokens text.toList
  let (reader, fits) := Reader.start.run tokens
  reader.finish (whole && fits)

/-- The value that a text is, if it has a use. -/
def read? (text : String) : Option Json :=
  match read text with
  | .unusable _ => none
  | value => some value

end Shadeloom.Json
