/-!
# Lines

A text falls into lines at each line feed. A carriage return directly before a line feed belongs
to the line end; a text that ends with a line feed has no empty last line.
-/
namespace Shadeloom.Text

/-- The lines of a text, without their line ends. -/
def lines : List Char → List (List Char)
  | [] => []
  | '\n' :: rest => [] :: lines rest
  | '\r' :: '\n' :: rest => [] :: lines rest
  | c :: rest =>
    match lines rest with
    | [] => [[c]]
    | line :: later => (c :: line) :: later

/-- Texts put together with a separator between neighbours. -/
def join (separator : List Char) : List (List Char) → List Char
  | [] => []
  | [text] => text
  | text :: rest => text ++ separator ++ join separator rest

/-- The text after the given beginning, if it starts with it. -/
def dropStart? : List Char → List Char → Option (List Char)
  | [], text => some text
  | _ :: _, [] => none
  | b :: beginning, c :: text => if b = c then dropStart? beginning text else none

/-- The text after a beginning is the rest of the text. -/
theorem dropStart?_eq_some_iff {beginning text rest : List Char} :
    dropStart? beginning text = some rest ↔ text = beginning ++ rest := by
  induction beginning generalizing text with
  | nil => simp [dropStart?]
  | cons b beginning ih =>
    cases text with
    | nil => simp [dropStart?]
    | cons c text =>
      by_cases same : b = c
      · simp [dropStart?, same, ih]
      · simp [dropStart?, same, Ne.symm same]

/-- The string after the given beginning, if it starts with it. -/
def afterStart? (beginning text : String) : Option String :=
  (dropStart? beginning.toList text.toList).map String.ofList

/-- The text before and after the first occurrence of a character, if it occurs. -/
def splitAtFirst? (mark : Char) (text : List Char) : Option (List Char × List Char) :=
  match text.dropWhile (· ≠ mark) with
  | [] => none
  | _ :: after => some (text.takeWhile (· ≠ mark), after)

/-- The pieces between the occurrences of a character. -/
def splitAll (mark : Char) : List Char → List (List Char)
  | [] => [[]]
  | c :: rest =>
    if c = mark then [] :: splitAll mark rest
    else
      match splitAll mark rest with
      | [] => [[c]]
      | piece :: later => (c :: piece) :: later

end Shadeloom.Text
