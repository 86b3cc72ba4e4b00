import Mathlib
import Shadeloom.Expr.Variable
/-!
# Suffixes of variables

A variable is written as its name, its default in braces and its subscript in brackets, and what is
written so is taken apart into the same variable. Any other text is taken apart as well: the first
braces and the first brackets may then be cut out of what is no written variable, but no character is
lost or made up, and the only ones that are left out of the parts are the brackets of the suffixes.
-/
namespace Shadeloom

namespace Source

/-- The text before and after the first occurrence of a character. -/
theorem splitAtFirst?_append {mark : Char} {before : List Char} (absent : mark ∉ before)
    (after : List Char) :
    Text.splitAtFirst? mark (before ++ mark :: after) = some (before, after) := by
  have other : ∀ c ∈ before, decide (c ≠ mark) = true := fun c mem =>
    decide_eq_true fun same => absent (same ▸ mem)
  unfold Text.splitAtFirst?
  rw [List.dropWhile_append_of_pos other, List.takeWhile_append_of_pos other]
  simp

/-- Where a character does not occur there is nothing to split. -/
theorem splitAtFirst?_eq_none {mark : Char} {text : List Char} (absent : mark ∉ text) :
    Text.splitAtFirst? mark text = none := by
  have other : ∀ c ∈ text, decide (c ≠ mark) = true := fun c mem =>
    decide_eq_true fun same => absent (same ▸ mem)
  unfold Text.splitAtFirst?
  rw [List.dropWhile_eq_nil_iff.2 other]

/-- A text that is split at a character is what is before it, the character, and what is after it. -/
theorem eq_of_splitAtFirst? {mark : Char} {text before after : List Char}
    (split : Text.splitAtFirst? mark text = some (before, after)) :
    text = before ++ mark :: after := by
  by_cases present : mark ∈ text
  · obtain ⟨start, rest, absent, shape⟩ := List.eq_append_cons_of_mem present
    rw [absent, splitAtFirst?_append shape] at split
    cases split
    exact absent
  · rw [splitAtFirst?_eq_none present] at split
    cases split

section Variables

variable {name : List Char}

/-- The default of a variable is split off. -/
theorem splitDefault_text (absent : '{' ∉ name ∧ '}' ∉ name) {fallback subscript : Option String}
    (fallback_ : ∀ text, fallback = some text → '}' ∉ text.toList)
    (subscript_ : ∀ text, subscript = some text → '{' ∉ text.toList) :
    Variable.splitDefault (name ++ ((Variable.suffixText '{' '}' fallback).toList ++
        (Variable.suffixText '[' ']' subscript).toList)) =
      (name ++ (Variable.suffixText '[' ']' subscript).toList, fallback.map String.toList) := by
  have suffix : '{' ∉ (Variable.suffixText '[' ']' subscript).toList := by
    cases subscript with
    | none => exact List.not_mem_nil
    | some text => simpa [Variable.suffixText] using subscript_ text rfl
  cases fallback with
  | none =>
    have none' : Variable.enclosed? '{' '}' (name ++ (Variable.suffixText '[' ']' subscript).toList) =
        none := by
      unfold Variable.enclosed?
      rw [splitAtFirst?_eq_none fun mem => (List.mem_append.1 mem).elim absent.1 suffix]
    show Variable.splitDefault (name ++ (Variable.suffixText '[' ']' subscript).toList) = _
    unfold Variable.splitDefault
    rw [none']
    rfl
  | some default =>
    have shape : name ++ ((Variable.suffixText '{' '}' (some default)).toList ++
        (Variable.suffixText '[' ']' subscript).toList) =
        name ++ '{' :: (default.toList ++ '}' :: (Variable.suffixText '[' ']' subscript).toList) := by
      simp [Variable.suffixText]
    have found : Variable.enclosed? '{' '}' (name ++ '{' :: (default.toList ++
        '}' :: (Variable.suffixText '[' ']' subscript).toList)) =
        some (name, default.toList, (Variable.suffixText '[' ']' subscript).toList) := by
      unfold Variable.enclosed?
      rw [splitAtFirst?_append absent.1]
      dsimp only
      rw [splitAtFirst?_append (fallback_ default rfl), if_neg (by simpa using absent.2)]
      rfl
    unfold Variable.splitDefault
    rw [shape, found]
    cases subscript with
    | none => simp [Variable.suffixText]
    | some text => simp [Variable.suffixText]

/-- The subscript of a variable is split off. -/
theorem splitSubscript_text (absent : '[' ∉ name ∧ ']' ∉ name) {subscript : Option String}
    (subscript_ : ∀ text, subscript = some text → ']' ∉ text.toList) :
    Variable.splitSubscript (name ++ (Variable.suffixText '[' ']' subscript).toList) =
      (name, subscript.map String.toList) := by
  unfold Variable.splitSubscript Variable.enclosed?
  cases subscript with
  | none =>
    have shape : name ++ (Variable.suffixText '[' ']' none).toList = name := by
      simp [Variable.suffixText]
    rw [shape, splitAtFirst?_eq_none absent.1]
    rfl
  | some text =>
    have shape : name ++ (Variable.suffixText '[' ']' (some text)).toList =
        name ++ '[' :: (text.toList ++ ']' :: []) := by simp [Variable.suffixText]
    rw [shape, splitAtFirst?_append absent.1]
    dsimp only
    rw [splitAtFirst?_append (subscript_ text rfl), if_neg (by simpa using absent.2)]
    rfl

end Variables

end Source

namespace Variable

open Source

/-- Whether the text of a variable shows where its suffixes begin and end: no bracket of a suffix
occurs in the name, none of a default in the default, and none at all in the subscript. -/
structure ShowsSuffixes (v : Variable) : Prop where
  name : ∀ c ∈ ['[', ']', '{', '}'], c ∉ v.name.toList
  fallback : ∀ text, v.fallback = some text → ∀ c ∈ ['{', '}'], c ∉ text.toList
  subscript : ∀ text, v.subscript = some text → ∀ c ∈ ['[', ']', '{', '}'], c ∉ text.toList

/-- The characters of a variable that is written. -/
theorem toList_text (v : Variable) : v.text.toList = v.name.toList ++
    ((suffixText '{' '}' v.fallback).toList ++ (suffixText '[' ']' v.subscript).toList) := by
  rw [text, String.toList_append, String.toList_append, List.append_assoc]

/-- A variable whose text shows where its suffixes begin and end is read from it. -/
theorem ShowsSuffixes.ofString_text {v : Variable} (shows : v.ShowsSuffixes) :
    ofString v.text = v := by
  unfold ofString ofChars
  rw [toList_text, splitDefault_text ⟨shows.name _ (by decide), shows.name _ (by decide)⟩
    (fun text here => shows.fallback text here _ (by decide))
    fun text here => shows.subscript text here _ (by decide)]
  dsimp only
  rw [splitSubscript_text ⟨shows.name _ (by decide), shows.name _ (by decide)⟩
    fun text here => shows.subscript text here _ (by decide)]
  obtain ⟨name, fallback, subscript⟩ := v
  simp [Function.comp_def]

/-- The characters of a suffix in its brackets. -/
theorem toList_suffixText (opening closing : Char) (inside : Option (List Char)) :
    (suffixText opening closing (inside.map String.ofList)).toList =
      (inside.map fun text => opening :: (text ++ [closing])).getD [] := by
  cases inside <;> simp [suffixText]

/-- A text with marks in order is what is before them, between them and after them. -/
theorem eq_of_enclosed? {opening closing : Char} {text before inside after : List Char}
    (enclosed : enclosed? opening closing text = some (before, inside, after)) :
    text = before ++ opening :: (inside ++ closing :: after) := by
  unfold enclosed? at enclosed
  split at enclosed
  · cases enclosed
  · rename_i start rest opened
    split at enclosed
    · cases enclosed
    · obtain ⟨⟨middle, last⟩, closed, same⟩ := Option.map_eq_some_iff.1 enclosed
      cases same
      rw [eq_of_splitAtFirst? opened, eq_of_splitAtFirst? closed]

/-- A text without its default, and the default in its braces, are the text up to the order of the
characters: the default may have stood before a subscript. -/
theorem splitDefault_perm (text : List Char) :
    ((splitDefault text).1 ++ ((splitDefault text).2.map fun inside =>
      '{' :: (inside ++ ['}'])).getD []).Perm text := by
  unfold splitDefault
  split
  · rename_i before inside enclosed
    rw [eq_of_enclosed? enclosed]
    exact .refl _
  · rename_i before inside after enclosed
    rw [eq_of_enclosed? enclosed, Option.map_some, Option.getD_some, List.append_assoc]
    refine List.Perm.append_left before ?_
    have swapped : (('[' :: after) ++ '{' :: (inside ++ ['}'])).Perm
        (('{' :: (inside ++ ['}'])) ++ '[' :: after) := List.perm_append_comm
    simpa using swapped
  · simp

/-- A text without its subscript, and then the subscript in its brackets, are the text. -/
theorem splitSubscript_append (text : List Char) :
    (splitSubscript text).1 ++ ((splitSubscript text).2.map fun inside =>
      '[' :: (inside ++ [']'])).getD [] = text := by
  unfold splitSubscript
  split
  · rename_i before inside enclosed
    rw [eq_of_enclosed? enclosed]
    rfl
  · simp

/-- The variable that a text is has the characters of the text in its own text. -/
theorem text_ofChars_perm (text : List Char) : (ofChars text).text.toList.Perm text := by
  have subscript := splitSubscript_append (splitDefault text).1
  have fallback := splitDefault_perm text
  unfold ofChars
  rw [toList_text, toList_suffixText, toList_suffixText, String.toList_ofList]
  calc (splitSubscript (splitDefault text).1).1 ++
        (((splitDefault text).2.map fun inside => '{' :: (inside ++ ['}'])).getD [] ++
          ((splitSubscript (splitDefault text).1).2.map fun inside =>
            '[' :: (inside ++ [']'])).getD [])
      |>.Perm ((splitSubscript (splitDefault text).1).1 ++
        (((splitSubscript (splitDefault text).1).2.map fun inside =>
            '[' :: (inside ++ [']'])).getD [] ++
          ((splitDefault text).2.map fun inside => '{' :: (inside ++ ['}'])).getD [])) :=
        .append_left _ List.perm_append_comm
    _ |>.Perm ((splitDefault text).1 ++
          ((splitDefault text).2.map fun inside => '{' :: (inside ++ ['}'])).getD []) := by
        rw [← List.append_assoc, subscript]
    _ |>.Perm text := fallback

/-- The sizes of the parts of a variable together, with two more for the brackets of each suffix. -/
def extent (size : String → Nat) (v : Variable) : Nat :=
  size v.name + (v.fallback.map fun text => size text + 2).getD 0 +
    (v.subscript.map fun text => size text + 2).getD 0

/-- The sizes of the parts of a variable make up the size of its text, in whatever way texts are
measured that adds up and gives brackets the size one. -/
theorem extent_eq {size : String → Nat} (append : ∀ a b, size (a ++ b) = size a + size b)
    (bracket : ∀ c ∈ ['[', ']', '{', '}'], size (String.ofList [c]) = 1) (v : Variable) :
    v.extent size = size v.text := by
  have nothing : size "" = 0 := by
    have twice := append "" ""
    rw [String.append_empty] at twice
    omega
  have suffix (opening closing : Char) (opens : opening ∈ ['[', ']', '{', '}'])
      (closes : closing ∈ ['[', ']', '{', '}']) (inside : Option String) :
      size (suffixText opening closing inside) =
        (inside.map fun text => size text + 2).getD 0 := by
    cases inside with
    | none => exact nothing
    | some text =>
      have parts : suffixText opening closing (some text) =
          String.ofList [opening] ++ text ++ String.ofList [closing] := by
        rw [← String.toList_inj]
        simp [suffixText]
      rw [parts, append, append, bracket opening opens, bracket closing closes, Option.map_some,
        Option.getD_some]
      omega
  rw [text, append, append, suffix '{' '}' (by decide) (by decide),
    suffix '[' ']' (by decide) (by decide)]
  rfl

/-- Texts with the same characters have as many bytes. -/
theorem utf8Len_perm {a b : List Char} (perm : a.Perm b) : String.utf8Len a = String.utf8Len b := by
  induction perm with
  | nil => rfl
  | cons c _ ih => rw [String.utf8Len_cons, String.utf8Len_cons, ih]
  | swap c d rest => simp only [String.utf8Len_cons]; omega
  | trans _ _ first second => exact first.trans second

/-- A variable whose text shows its suffixes is read from that text, and the variable that any text
is has all characters of the text in its parts, except the brackets of its suffixes: their sizes
together, and two for each suffix, are the size of the text, in characters and in bytes. -/
theorem ofString_restores_and_accounts :
    (∀ v : Variable, v.ShowsSuffixes → ofString v.text = v) ∧
      ∀ text : String, (ofString text).text.toList.Perm text.toList ∧
        (ofString text).extent String.length = text.length ∧
        (ofString text).extent String.utf8ByteSize = text.utf8ByteSize := by
  refine ⟨fun v shows => shows.ofString_text, fun text => ?_⟩
  have perm : (ofString text).text.toList.Perm text.toList := text_ofChars_perm text.toList
  refine ⟨perm, ?_, ?_⟩
  · rw [extent_eq String.length_append (by simp), ← String.length_toList, perm.length_eq,
      String.length_toList]
  · have bytes (word : String) : word.utf8ByteSize = String.utf8Len word.toList := by
      rw [← String.utf8ByteSize_ofList, String.ofList_toList]
    have bracket : ∀ c ∈ ['[', ']', '{', '}'], (String.ofList [c]).utf8ByteSize = 1 := by
      simp only [List.forall_mem_cons, String.utf8ByteSize_ofList]
      exact ⟨rfl, rfl, rfl, rfl, nofun⟩
    rw [extent_eq (fun _ _ => String.utf8ByteSize_append) bracket, bytes, bytes, utf8Len_perm perm]

/-- A default may hold square brackets, and what is left of a text after its first braces are cut out
may have brackets that were apart. -/
theorem ofString_restores_and_accounts_brackets :
    ShowsSuffixes ⟨"v", some "1[2]", some "x"⟩ ∧ ofString "v{1[2]}[x]" = ⟨"v", some "1[2]", some "x"⟩ ∧
      ofString "a[b{c}[d]" = ⟨"a", some "c", some "b[d"⟩ ∧
      (ofString "a[b{c}[d]").extent String.length = "a[b{c}[d]".length := by
  have shows : ShowsSuffixes ⟨"v", some "1[2]", some "x"⟩ :=
    ⟨by simp, by simp, by simp⟩
  exact ⟨shows, ofString_restores_and_accounts.1 _ shows, by decide +kernel,
    (ofString_restores_and_accounts.2 _).2.1⟩

end Variable

end Shadeloom
