import Mathlib
import Shadeloom.Proofs.Source.Writing
/-!
# Blanks at the ends of a text

A text is trimmed when it neither starts nor ends with a blank. Blanks that are put around a text
make no difference to what is left when it is trimmed.
-/
namespace Shadeloom.Text

open Source (IsBlank)

variable {text before after : List Char}

/-- Blanks on the left make no difference to trimming. -/
theorem trim_append_left (blank : IsBlank before) (text : List Char) :
    trim (before ++ text) = trim text := by
  unfold trim trimLeft
  rw [List.dropWhile_append_of_pos blank]

/-- Blanks on the right make no difference to trimming. -/
theorem trim_append_right (blank : IsBlank after) (text : List Char) :
    trim (text ++ after) = trim text := by
  have turned : ∀ c ∈ after.reverse, isBlank c = true := fun c mem =>
    blank c (List.mem_reverse.1 mem)
  have gone : after.dropWhile isBlank = [] := List.dropWhile_eq_nil_iff.2 blank
  unfold trim trimLeft trimRight
  rw [List.dropWhile_append]
  split
  · rename_i none
    rw [gone, List.isEmpty_iff.1 none]
  · rw [List.reverse_append, List.dropWhile_append_of_pos turned]

/-- A text that neither starts nor ends with a blank stays when it is trimmed. -/
theorem trim_eq_self (first : ∀ c ∈ text.head?, isBlank c = false)
    (last : ∀ c ∈ text.getLast?, isBlank c = false) : trim text = text := by
  rcases List.eq_nil_or_concat' text with rfl | ⟨start, c, rfl⟩
  · rfl
  · have left : trimLeft (start ++ [c]) = start ++ [c] := by
      obtain ⟨d, rest, shape⟩ := List.exists_cons_of_ne_nil (List.concat_ne_nil c start)
      rw [shape] at first ⊢
      exact trimLeft_cons rest (first d rfl)
    rw [trim, left, trimRight_append_singleton start (last c (by simp))]

/-- Trimming leaves the left of a trimmed text alone. -/
theorem trimLeft_of_trim (trimmed : trim text = text) : trimLeft text = text := by
  refine (List.dropWhile_sublist _).eq_of_length_le ?_
  have short := length_trimRight_le (trimLeft text)
  rwa [← trim, trimmed] at short

/-- A trimmed text starts with no blank. -/
theorem not_blank_of_head? (trimmed : trim text = text) {c : Char} (first : c ∈ text.head?) :
    isBlank c = false := by
  by_contra blank
  rw [Bool.not_eq_false] at blank
  obtain ⟨rest, rfl⟩ := List.head?_eq_some_iff.1 first
  have left := trimLeft_of_trim trimmed
  rw [trimLeft, List.dropWhile_cons, if_pos blank] at left
  have short := (List.dropWhile_sublist (p := isBlank) (l := rest)).length_le
  rw [left, List.length_cons] at short
  omega

/-- A trimmed text ends with no blank. -/
theorem not_blank_of_getLast? (trimmed : trim text = text) {c : Char} (last : c ∈ text.getLast?) :
    isBlank c = false := by
  by_contra blank
  rw [Bool.not_eq_false] at blank
  obtain ⟨start, rfl⟩ := List.getLast?_eq_some_iff.1 last
  have right := trimmed
  rw [trim, trimLeft_of_trim trimmed, trimRight, List.reverse_append, List.reverse_singleton,
    List.singleton_append, List.dropWhile_cons, if_pos blank] at right
  have short := (List.dropWhile_sublist (p := isBlank) (l := start.reverse)).length_le
  rw [← List.length_reverse, right, List.length_append, List.length_reverse,
    List.length_singleton] at short
  omega

/-- A text is what is left when it is trimmed, with blanks on both sides. -/
theorem exists_blanks (text : List Char) : ∃ before after, IsBlank before ∧ IsBlank after ∧
    text = before ++ (trim text ++ after) := by
  refine ⟨text.takeWhile isBlank, ((trimLeft text).reverse.takeWhile isBlank).reverse,
    fun c mem => List.mem_takeWhile_imp mem,
    fun c mem => List.mem_takeWhile_imp (List.mem_reverse.1 mem), ?_⟩
  have right : trim text ++ ((trimLeft text).reverse.takeWhile isBlank).reverse =
      trimLeft text := by
    rw [trim, trimRight, ← List.reverse_append, List.takeWhile_append_dropWhile,
      List.reverse_reverse]
  rw [right, trimLeft, List.takeWhile_append_dropWhile]

/-- A trimmed text stays when it is trimmed again. -/
theorem trim_trim (text : List Char) : trim (trim text) = trim text := by
  obtain ⟨before, after, blank, blank', shape⟩ := exists_blanks text
  conv_rhs => rw [shape]
  rw [trim_append_left blank, trim_append_right blank']

end Shadeloom.Text
