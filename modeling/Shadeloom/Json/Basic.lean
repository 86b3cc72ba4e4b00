/-!
# JSON values

Numbers are whole or floating, and an object is a list of members in the order in which they are
written; whether a key may occur twice is decided by who reads it. What has no value is kept as
unusable, with as much of it as comes before the fault: who reads it fails, at the latest there.
-/
namespace Shadeloom

/-- A JSON value. -/
inductive Json where
  | null
  | bool (value : Bool)
  | int (value : Int)
  | float (value : Float)
  | str (text : String)
  | arr (items : List Json)
  | obj (members : List (String × Json))
  /-- A number too large for a double, a text with half of a pair of code units alone, an object
  with such a key, a container that too many others are around, or what is not written to its end;
  with what comes before the fault, if that is a part of a container. -/
  | unusable (start : Json)

namespace Json

/-- The JSON form of a double: there is no number for NaN and the infinities. -/
def ofFloat (x : Float) : Json :=
  if x.isFinite then .float x else .null

/-- The JSON form of a natural number. -/
def ofNat (n : Nat) : Json :=
  .int n

/-- The JSON form of an optional value. -/
def ofOption {α : Type} (encode : α → Json) : Option α → Json
  | none => .null
  | some a => encode a

/-- An object with one member. -/
def tagged (tag : String) (payload : Json) : Json :=
  .obj [(tag, payload)]

/-- The values of the named members in the order of the names, if no name occurs twice; an array
of as many items stands for them as well. -/
def members? (names : List String) : Json → Option (List (Option Json))
  | .arr items => if items.length = names.length then some (items.map some) else none
  | .obj members =>
    if names.any fun name => 1 < (members.filter fun member => member.1 = name).length then none
    else some (names.map fun name =>
      (members.find? fun member => member.1 = name).map Prod.snd)
  | _ => none

/-- As `members?`, except that an array may leave out values at its end. -/
def membersOrFewer? (names : List String) : Json → Option (List (Option Json))
  | .arr items =>
    if items.length ≤ names.length then
      some (items.map some ++ List.replicate (names.length - items.length) none)
    else none
  | value => value.members? names

/-- The tag of a tagged value and its payload; a text is a tag without payload. -/
def tag? : Json → Option (String × Option Json)
  | .str tag => some (tag, none)
  | .obj [(tag, payload)] => some (tag, some payload)
  | _ => none

/-- A member of an object is smaller than the object. -/
theorem sizeOf_lt_of_mem_obj {members : List (String × Json)} {member : String × Json}
    (mem : member ∈ members) : sizeOf member.2 < sizeOf (obj members) := by
  have := List.sizeOf_lt_of_mem mem
  cases member
  simp only [obj.sizeOf_spec, Prod.mk.sizeOf_spec] at *
  omega

/-- An item of an array is smaller than the array. -/
theorem sizeOf_lt_of_mem_arr {items : List Json} {item : Json} (mem : item ∈ items) :
    sizeOf item < sizeOf (arr items) := by
  have := List.sizeOf_lt_of_mem mem
  simp only [arr.sizeOf_spec]
  omega

/-- The value of a named member is smaller than what it is a member of. -/
theorem sizeOf_lt_of_members? {names : List String} {value : Json} {found : List (Option Json)}
    (members : value.members? names = some found) {member : Json} (mem : some member ∈ found) :
    sizeOf member < sizeOf value := by
  unfold members? at members
  split at members
  · split at members
    · cases members
      obtain ⟨item, here, same⟩ := List.mem_map.1 mem
      cases same
      exact sizeOf_lt_of_mem_arr here
    · simp at members
  · split at members
    · simp at members
    · cases members
      obtain ⟨name, _, same⟩ := List.mem_map.1 mem
      obtain ⟨hit, here, rfl⟩ := Option.map_eq_some_iff.1 same
      exact sizeOf_lt_of_mem_obj (List.mem_of_find?_eq_some here)
  · simp at members

/-- The payload of a tagged value is smaller than the value. -/
theorem sizeOf_lt_of_tag? {value payload : Json} {tag : String}
    (tagged : value.tag? = some (tag, some payload)) : sizeOf payload < sizeOf value := by
  unfold tag? at tagged
  split at tagged
  · simp at tagged
  · cases tagged
    have inside : (tag, payload) ∈ [(tag, payload)] := by simp
    exact sizeOf_lt_of_mem_obj inside
  · simp at tagged

end Json

end Shadeloom
