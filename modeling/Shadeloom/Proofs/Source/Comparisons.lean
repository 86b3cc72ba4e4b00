import Mathlib
import Shadeloom.Proofs.Source.Blanks
import Shadeloom.Proofs.Source.RoundTrip
/-!
# Comparisons that are sugar

Equality and the inequalities that are not strict are written with two characters, and are read as
what they stand for. Brackets around the sides hide all that is written in them, so this holds of any
two balanced texts: the comparison is read as its expansion would be if it were written out.
-/
namespace Shadeloom.Source

variable {left right text : List Char}

/-- The outline of a balanced text in brackets. -/
theorem Outline.inBrackets (balanced : Brackets.closed.scan text = some .closed) :
    Outline 5 ('(' :: (text ++ [')'])) :=
  @Outline.bracketed text [] nofun balanced

/-- The text of a numeral of one digit. -/
theorem Outline.digit {c : Char} (digit : c.isDigit = true) : Outline 5 [c] := by
  simpa using Outline.numeral (.whole ⟨List.cons_ne_nil c [], by simpa using digit⟩) .none

/-- A text that stands for itself and can be written is trimmed. -/
theorem Outline.trim_eq {level : Nat} (outline : Outline level text) : Text.trim text = text := by
  simpa using outline.trim_padded isBlank_nil isBlank_nil

/-- A numeral of one digit is read as itself. -/
theorem parseChars_digit {c : Char} (digit : c.isDigit = true) :
    parseChars [c] = .value ⟨String.ofList [c]⟩ := by
  have written : Written 5 (.value ⟨String.ofList ([c] ++ [])⟩) ([c] ++ []) :=
    .numeral (.whole ⟨List.cons_ne_nil c [], by simpa using digit⟩) .none
  simpa using written.parseChars_padded isBlank_nil isBlank_nil

/-- A balanced text in brackets is read as the text. -/
theorem parseChars_inBrackets (balanced : Brackets.closed.scan text = some .closed) :
    parseChars ('(' :: (text ++ [')'])) = parseChars text := by
  apply parseChars_of_bracketed
  rw [(Outline.inBrackets balanced).trim_eq]
  exact @ofChars_bracketed [] text List.not_mem_nil balanced (.inl rfl)

/-- Two texts with an operator between them that is no looser are read by their sides. -/
theorem parseChars_binaryText {op : BinaryOp} (operator : op ≠ .assign)
    (first : Outline op.leftLevel left) (second : Outline op.rightLevel right) :
    parseChars (binaryText op left [] [] right) =
      .binary op (parseChars left) (parseChars right) := by
  have whole := Outline.binary op operator isBlank_nil isBlank_nil first second
  have form := ofChars_binaryText operator isBlank_nil isBlank_nil first second
  rw [List.append_nil, List.nil_append] at form
  apply parseChars_of_operation
  rw [whole.trim_eq, form]

/-- A function of one argument that can be called is read as its application. -/
theorem parseChars_callText {name : String} (named : name.toList.all Variable.isNameChar = true)
    (nonempty : name.toList ≠ []) (callable : Function.isCallable name = true)
    (balanced : Brackets.closed.scan text = some .closed) :
    parseChars (callText name text) = Expr.application name (parseChars text) := by
  have called : Function.isCallable (String.ofList name.toList) = true := by
    rwa [String.ofList_toList]
  have read := parseChars_call (List.all_eq_true.1 named) nonempty called balanced isBlank_nil
    isBlank_nil
  rwa [List.nil_append, List.append_nil, String.ofList_toList] at read

section Doubled

variable {mark : Char} (marked : isComparison mark = true) (first : Outline 2 left)
  (second : Outline 1 right)
include marked first second

/-- Two texts with a comparison of two characters between them are balanced and show no comma. -/
theorem quiet_doubled : Cut.Quiet isComma (left ++ mark :: '=' :: right) := by
  have operator := isOperator_of_isComparison mark marked
  have middle : Cut.Quiet isComma [mark, '='] := by
    apply Cut.quiet_of_unmarked
    intro c mem
    rcases List.mem_cons.1 mem with rfl | mem
    · refine ⟨?_, (not_special_of_operator (by simpa using operator)).1⟩
      simp only [Bool.or_eq_true, decide_eq_true_eq] at marked
      rcases marked with (rfl | rfl) | rfl <;> rfl
    · rw [List.mem_singleton.1 mem]
      decide
  exact (first.commas (by omega)).append (middle.append (second.commas le_rfl))

/-- Two texts with a comparison of two characters between them fall apart there. -/
theorem ofChars_doubled : Form.ofChars (left ++ mark :: '=' :: right) =
    Form.ofComparison ⟨left.reverse, mark, '=' :: right⟩ := by
  have operator := isOperator_of_isComparison mark marked
  obtain ⟨plain, -, unnamed⟩ := not_special_of_operator (by simpa using operator)
  have quiet := quiet_doubled marked first second
  have splits (isMark : Char → Bool) : Cut.splits isMark (left ++ mark :: '=' :: right) =
      Cut.closedCuts isMark .closed [] (left ++ mark :: '=' :: right) :=
    if_pos (Brackets.isBalanced_iff.2 quiet.balanced)
  have enclosed : Form.enclosed? (left ++ mark :: '=' :: right) = none := by
    refine first.apart mark _ unnamed ?_
    rintro rfl
    exact absurd operator (by decide)
  have comma : Form.atComma? (left ++ mark :: '=' :: right) = none := by
    unfold Form.atComma?
    rw [splits, quiet.uncut]
    rfl
  have comparison : Form.atComparison? (left ++ mark :: '=' :: right) =
      some (Form.ofComparison ⟨left.reverse, mark, '=' :: right⟩) := by
    unfold Form.atComparison?
    rw [splits, (first.comparisons le_rfl).closedCuts_append,
      Cut.closedCuts_cons_of_mark marked plain, List.append_nil,
      find?_nonempty (List.cons_ne_nil _ _), Option.map_some]
  unfold Form.ofChars
  rw [if_neg (by simp), enclosed, comma, comparison]
  rfl

omit marked in
/-- Two texts with a comparison of two characters between them are trimmed. -/
theorem trim_doubled : Text.trim (left ++ mark :: '=' :: right) = left ++ mark :: '=' :: right := by
  obtain ⟨c, rest, rfl, solid, -⟩ := first.first
  obtain ⟨start, d, rfl, solid', -⟩ := second.last
  apply Text.trim_eq_self
  · rintro _ ⟨⟩
    exact solid
  · intro e ends
    have shape : (c :: rest) ++ mark :: '=' :: (start ++ [d]) =
        ((c :: rest) ++ mark :: '=' :: start) ++ [d] := by simp
    rw [shape, List.getLast?_concat] at ends
    cases ends
    exact solid'

end Doubled

section Sides

variable (first : Outline 2 left) (second : Outline 1 right)
include first second

/-- An equality is read as the equality of what its sides are read as. -/
theorem parseChars_equal :
    parseChars (left ++ '=' :: '=' :: right) = Expr.equality (parseChars left) (parseChars right) := by
  apply parseChars_of_equal
  rw [trim_doubled first second, ofChars_doubled rfl first second]
  simp [Form.ofComparison, Cut.left]

/-- An inequality from below is read as that of what its sides are read as. -/
theorem parseChars_atLeast :
    parseChars (left ++ '>' :: '=' :: right) = Expr.atLeast (parseChars left) (parseChars right) := by
  apply parseChars_of_atLeast
  rw [trim_doubled first second, ofChars_doubled rfl first second]
  simp [Form.ofComparison, Cut.left]

/-- An inequality from above is read as that of what its sides are read as. -/
theorem parseChars_atMost :
    parseChars (left ++ '<' :: '=' :: right) = Expr.atMost (parseChars left) (parseChars right) := by
  apply parseChars_of_atMost
  rw [trim_doubled first second, ofChars_doubled rfl first second]
  simp [Form.ofComparison, Cut.left]

end Sides

section Expansions

variable (first : Outline 5 left) (second : Outline 5 right)
include first second

/-- The expansion of an equality is read as the equality. -/
theorem parseChars_equality : parseChars (callText "not" (binaryText .gt
      (callText "abs" (binaryText .sub left [] [] right)) [] [] ['0'])) =
    Expr.equality (parseChars left) (parseChars right) := by
  have left' := first.of_le (show BinaryOp.sub.leftLevel ≤ 5 by decide)
  have right' := second.of_le (show BinaryOp.sub.rightLevel ≤ 5 by decide)
  have difference := Outline.binary .sub (by decide) isBlank_nil isBlank_nil left' right'
  have distance : Outline 5 (callText "abs" (binaryText .sub left [] [] right)) :=
    .bracketed (List.all_eq_true.1 (by decide +kernel)) difference.balanced
  have distance' := distance.of_le (show BinaryOp.gt.leftLevel ≤ 5 by decide)
  have zero : Outline BinaryOp.gt.rightLevel ['0'] := (Outline.digit rfl).of_le (by decide)
  have differs := Outline.binary .gt (by decide) isBlank_nil isBlank_nil distance' zero
  rw [parseChars_callText (by decide +kernel) (by decide) (by decide +kernel) differs.balanced,
    parseChars_binaryText (by decide) distance' zero,
    parseChars_callText (by decide +kernel) (by decide) (by decide +kernel) difference.balanced,
    parseChars_binaryText (by decide) left' right', parseChars_digit rfl]
  rfl

/-- One minus a strict comparison in brackets is read as that. -/
theorem parseChars_opposite {op : BinaryOp} (comparison : op = .lt ∨ op = .gt) :
    parseChars (binaryText .sub ['1'] [] [] ('(' :: (binaryText op left [] [] right ++ [')']))) =
      .binary .sub (Expr.numeral "1") (.binary op (parseChars left) (parseChars right)) := by
  have levels : op.leftLevel ≤ 5 ∧ op.rightLevel ≤ 5 ∧ op ≠ .assign := by
    rcases comparison with rfl | rfl <;> decide
  have left' := first.of_le levels.1
  have right' := second.of_le levels.2.1
  have strict := Outline.binary op levels.2.2 isBlank_nil isBlank_nil left' right'
  have one : Outline BinaryOp.sub.leftLevel ['1'] := (Outline.digit rfl).of_le (by decide)
  have bracketed : Outline BinaryOp.sub.rightLevel ('(' :: (binaryText op left [] [] right ++ [')'])) :=
    (Outline.inBrackets strict.balanced).of_le (by decide)
  rw [parseChars_binaryText (by decide) one bracketed, parseChars_inBrackets strict.balanced,
    parseChars_binaryText levels.2.2 left' right', parseChars_digit rfl]
  rfl

end Expansions

/-- A comparison of two characters between any balanced texts in brackets is read as its expansion
would be, if this were written out with the same texts in brackets. -/
theorem parse_comparison_sugar (left right : String) (balanced : isBalanced left = true)
    (balanced' : isBalanced right = true) :
    parse ("(" ++ left ++ ")==(" ++ right ++ ")") =
        parse ("not(abs((" ++ left ++ ")-(" ++ right ++ "))>0)") ∧
      parse ("(" ++ left ++ ")>=(" ++ right ++ ")") =
        parse ("1-((" ++ left ++ ")<(" ++ right ++ "))") ∧
      parse ("(" ++ left ++ ")<=(" ++ right ++ ")") =
        parse ("1-((" ++ left ++ ")>(" ++ right ++ "))") := by
  have first := Outline.inBrackets (Brackets.isBalanced_iff.1 balanced)
  have second := Outline.inBrackets (Brackets.isBalanced_iff.1 balanced')
  have first' : Outline 2 _ := first.of_le (by omega)
  have second' : Outline 1 _ := second.of_le (by omega)
  have equal := (parseChars_equal first' second').trans (parseChars_equality first second).symm
  have atLeast := (parseChars_atLeast first' second').trans
    (parseChars_opposite first second (.inl rfl)).symm
  have atMost := (parseChars_atMost first' second').trans
    (parseChars_opposite first second (.inr rfl)).symm
  simp only [binaryText, callText, BinaryOp.symbol] at equal atLeast atMost
  refine ⟨?_, ?_, ?_⟩
  · simpa [parse, String.toList_append] using equal
  · simpa [parse, String.toList_append] using atLeast
  · simpa [parse, String.toList_append] using atMost

/-- Commas, quotes, brackets in quotes and comparisons in the sides make no difference. -/
theorem parse_comparison_sugar_of_comparisons :
    isBalanced "a>=b, [c]" = true ∧ isBalanced "\"(\" == -x" = true ∧
      parse "(a>=b, [c])==(\"(\" == -x)" = parse "not(abs((a>=b, [c])-(\"(\" == -x))>0)" ∧
        parse "(a>=b, [c])>=(\"(\" == -x)" = parse "1-((a>=b, [c])<(\"(\" == -x))" ∧
          parse "(a>=b, [c])<=(\"(\" == -x)" = parse "1-((a>=b, [c])>(\"(\" == -x))" := by
  have balanced : isBalanced "a>=b, [c]" = true := by decide +kernel
  have balanced' : isBalanced "\"(\" == -x" = true := by decide +kernel
  exact ⟨balanced, balanced', parse_comparison_sugar _ _ balanced balanced'⟩

end Shadeloom.Source
