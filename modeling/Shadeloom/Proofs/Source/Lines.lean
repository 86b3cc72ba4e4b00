import Mathlib
import Shadeloom.Proofs.Source.Blanks
import Shadeloom.Source.Statements
/-!
# Lines and statements

A text that is put together from lines falls into these lines again. So the statements of a text are
the lines that are neither blank nor comments, and a chain of statements is put together from left to
right, with commas where there are none.
-/
namespace Shadeloom

namespace Text

variable {line : List Char}

/-- The first line of a text that goes on after a line feed, of which only a carriage return is
lost. -/
theorem exists_lines_append (single : '\n' ∉ line) (rest : List Char) :
    ∃ first, lines (line ++ '\n' :: rest) = first :: lines rest ∧
      (line = first ∨ line = first ++ ['\r']) := by
  induction line with
  | nil => exact ⟨[], rfl, .inl rfl⟩
  | cons c later ih =>
    rw [List.mem_cons, not_or] at single
    obtain ⟨first, split, ends⟩ := ih single.2
    by_cases last : c = '\r' ∧ later = []
    · obtain ⟨rfl, rfl⟩ := last
      exact ⟨[], rfl, .inr rfl⟩
    · have whole : lines (c :: (later ++ '\n' :: rest)) = (c :: first) :: lines rest := by
        rw [lines.eq_4 c _ (Ne.symm single.1), split]
        rintro more rfl same
        cases later with
        | nil => exact last ⟨rfl, rfl⟩
        | cons d more' =>
          rw [List.cons_append, List.cons.injEq] at same
          exact single.2 (same.1 ▸ List.mem_cons_self)
      refine ⟨c :: first, whole, ?_⟩
      rcases ends with rfl | rfl
      · exact .inl rfl
      · exact .inr rfl

/-- A text without line feeds is one line. -/
theorem lines_of_single (single : '\n' ∉ line) (nonempty : line ≠ []) : lines line = [line] := by
  induction line with
  | nil => exact absurd rfl nonempty
  | cons c later ih =>
    rw [List.mem_cons, not_or] at single
    have unbroken : ∀ more, c = '\r' → later = '\n' :: more → False := by
      rintro more rfl rfl
      exact single.2 List.mem_cons_self
    rw [lines.eq_4 c later (Ne.symm single.1) unbroken]
    cases later with
    | nil => rfl
    | cons d more => rw [ih single.2 (List.cons_ne_nil d more)]

/-- The lines of a text hold no line feeds. -/
theorem not_mem_of_mem_lines {text line : List Char} (mem : line ∈ lines text) : '\n' ∉ line := by
  fun_induction lines text generalizing line with
  | case1 => cases mem
  | case2 rest ih =>
    rcases List.mem_cons.1 mem with rfl | mem
    · exact List.not_mem_nil
    · exact ih mem
  | case3 rest ih =>
    rcases List.mem_cons.1 mem with rfl | mem
    · exact List.not_mem_nil
    · exact ih mem
  | case4 c rest other _ none ih =>
    rw [List.mem_singleton.1 mem, List.mem_singleton]
    exact Ne.symm other
  | case5 c rest other _ first later split ih =>
    rw [split] at ih
    rcases List.mem_cons.1 mem with rfl | mem
    · rw [List.mem_cons, not_or]
      exact ⟨Ne.symm other, ih List.mem_cons_self⟩
    · exact ih (List.mem_cons_of_mem _ mem)

end Text

namespace Source

/-- Whether a line without blanks at its ends is a statement. -/
abbrev isStatement (line : List Char) : Bool :=
  line ≠ [] && line.head? ≠ some '#'

/-- The statements of a text are those of its first line and those of the rest. -/
theorem statementLines_first {line : List Char} (single : '\n' ∉ line) (rest : List Char) :
    statementLines (line ++ '\n' :: rest) =
      [Text.trim line].filter isStatement ++ statementLines rest := by
  obtain ⟨first, split, ends⟩ := Text.exists_lines_append single rest
  have same : Text.trim first = Text.trim line := by
    rcases ends with rfl | rfl
    · rfl
    · have blank : IsBlank ['\r'] := fun c mem => by
        rw [List.mem_singleton.1 mem]
        decide
      exact (Text.trim_append_right blank first).symm
  unfold statementLines
  rw [split, List.map_cons, same, ← List.filter_append, List.singleton_append]

/-- The statements of a line. -/
theorem statementLines_single {line : List Char} (single : '\n' ∉ line) :
    statementLines line = [Text.trim line].filter isStatement := by
  by_cases empty : line = []
  · subst empty
    rfl
  · unfold statementLines
    rw [Text.lines_of_single single empty, List.map_singleton]

/-- The statements of a text of lines are those of the lines that are statements. -/
theorem statementLines_join {lines : List (List Char)} (single : ∀ line ∈ lines, '\n' ∉ line) :
    statementLines (Text.join ['\n'] lines) = (lines.map Text.trim).filter isStatement := by
  fun_induction Text.join ['\n'] lines with
  | case1 => rfl
  | case2 line => exact statementLines_single (single line (by simp))
  | case3 line rest _ ih =>
    rw [List.append_assoc, List.singleton_append, statementLines_first (single line (by simp)),
      ih fun other mem => single other (by simp [mem]), List.map_cons, ← List.filter_append,
      List.singleton_append]

/-- The statements of two texts, one after the other. -/
theorem statementLines_append (first rest : List Char) :
    statementLines (first ++ '\n' :: rest) = statementLines first ++ statementLines rest := by
  by_cases several : '\n' ∈ first
  · obtain ⟨line, later, rfl, single⟩ := List.eq_append_cons_of_mem several
    rw [List.append_assoc, List.cons_append, statementLines_first single,
      statementLines_first single, statementLines_append later rest, List.append_assoc]
  · rw [statementLines_first several, statementLines_single several]
termination_by first.length
decreasing_by simp +arith [*]

/-- Whether a line is a statement as it stands. -/
def IsStatementLine (line : List Char) : Prop :=
  '\n' ∉ line ∧ Text.trim line = line ∧ isStatement line = true

/-- A line that is a statement is not empty. -/
theorem IsStatementLine.ne_nil {line : List Char} (statement : IsStatementLine line) : line ≠ [] := by
  rintro rfl
  cases statement.2.2

/-- The statements of a text are lines that are statements as they stand. -/
theorem isStatementLine_of_mem {text line : List Char} (mem : line ∈ statementLines text) :
    IsStatementLine line := by
  obtain ⟨mem, statement⟩ := List.mem_filter.1 mem
  obtain ⟨raw, raw_, rfl⟩ := List.mem_map.1 mem
  have single : '\n' ∉ Text.trim raw := fun inside => by
    obtain ⟨before, after, -, -, shape⟩ := Text.exists_blanks raw
    refine Text.not_mem_of_mem_lines raw_ ?_
    rw [shape]
    simp [inside]
  exact ⟨single, Text.trim_trim raw, statement⟩

/-- Lines that are statements as they stand are the statements of a text of these lines. -/
theorem statementLines_join_of_statements {lines : List (List Char)}
    (each : ∀ line ∈ lines, IsStatementLine line) :
    statementLines (Text.join ['\n'] lines) = lines := by
  have trimmed : lines.map Text.trim = lines :=
    (List.map_congr_left fun line mem => (each line mem).2.1).trans (List.map_id lines)
  rw [statementLines_join fun line mem => (each line mem).1, trimmed, List.filter_eq_self]
  exact fun line mem => (each line mem).2.2

end Source

end Shadeloom
