/-!
# Blank characters

The blanks are the characters of the Unicode property White_Space. Trimming removes them from
both ends of a text; it never makes a text longer, and the ends of a trimmed text are not blank.
-/
namespace Shadeloom.Text

/-- The characters of the Unicode property White_Space. -/
def isBlank (c : Char) : Bool :=
  let point := c.toNat
  (0x09 ≤ point && point ≤ 0x0D) || point = 0x20 || point = 0x85 || point = 0xA0 ||
    point = 0x1680 || (0x2000 ≤ point && point ≤ 0x200A) || point = 0x2028 || point = 0x2029 ||
    point = 0x202F || point = 0x205F || point = 0x3000

/-- The text without the blanks on its left. -/
def trimLeft (text : List Char) : List Char :=
  text.dropWhile isBlank

/-- The text without the blanks on its right. -/
def trimRight (text : List Char) : List Char :=
  (text.reverse.dropWhile isBlank).reverse

/-- The text without the blanks at its ends. -/
def trim (text : List Char) : List Char :=
  trimRight (trimLeft text)

/-- Trimming of a string. -/
def trimString (text : String) : String :=
  String.ofList (trim text.toList)

/-- Trimming on the left only removes characters. -/
theorem length_trimLeft_le (text : List Char) : (trimLeft text).length ≤ text.length :=
  (List.dropWhile_sublist _).length_le

/-- Trimming on the right only removes characters. -/
theorem length_trimRight_le (text : List Char) : (trimRight text).length ≤ text.length := by
  have short : (text.reverse.dropWhile isBlank).length ≤ text.reverse.length :=
    (List.dropWhile_sublist _).length_le
  simpa [trimRight] using short

/-- Trimming only removes characters. -/
theorem length_trim_le (text : List Char) : (trim text).length ≤ text.length :=
  Nat.le_trans (length_trimRight_le _) (length_trimLeft_le _)

/-- A text that ends in no blank keeps its right end. -/
theorem trimRight_append_singleton (text : List Char) {c : Char} (solid : isBlank c = false) :
    trimRight (text ++ [c]) = text ++ [c] := by
  simp [trimRight, solid]

/-- A text that starts with no blank keeps its left end. -/
theorem trimLeft_cons (text : List Char) {c : Char} (solid : isBlank c = false) :
    trimLeft (c :: text) = c :: text := by
  simp [trimLeft, solid]

end Shadeloom.Text
