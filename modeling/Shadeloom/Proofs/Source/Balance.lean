import Mathlib
import Shadeloom.Proofs.Source.Blanks
import Shadeloom.Proofs.Source.Cuts
import Shadeloom.Proofs.Source.Parsing
import Shadeloom.Proofs.Source.Suffixes
/-!
# Balance under division

Reading divides a text by its form and goes on with the pieces. A balanced text is divided at
operators that stand outside of all brackets and quotes, its pieces are balanced again and shorter,
and put together with the operator or the brackets between them they are the text. So every text that
reading comes to, down to the atoms, is balanced, and it comes to an end.
-/
namespace Shadeloom

namespace Form

/-- The text that a form divides: the pieces with the operator or the brackets of the form. -/
def text : Form → List Char
  | blank => []
  | bracketed interior => '(' :: (interior ++ [')'])
  | call name interior => name ++ '(' :: (interior ++ [')'])
  | equal left right => left ++ '=' :: '=' :: right
  | atLeast left right => left ++ '>' :: '=' :: right
  | atMost left right => left ++ '<' :: '=' :: right
  | operation op left right => left ++ (op.symbol.toList ++ right)
  | negated rest => '-' :: rest
  | unsigned rest => '+' :: rest
  | atom text => text

/-- The operator at which a form divides a text, after the text before it. -/
def operator? : Form → Option (List Char × List Char)
  | equal left _ => some (left, ['=', '='])
  | atLeast left _ => some (left, ['>', '='])
  | atMost left _ => some (left, ['<', '='])
  | operation op left _ => some (left, op.symbol.toList)
  | negated _ => some ([], ['-'])
  | unsigned _ => some ([], ['+'])
  | _ => none

/-- The tree of a form whose pieces are read as the trees. -/
def tree : Form → List Expr → Expr
  | bracketed _, [inner] => inner
  | call name _, [inner] => Expr.application (String.ofList name) inner
  | equal _ _, [a, b] => Expr.equality a b
  | atLeast _ _, [a, b] => Expr.atLeast a b
  | atMost _ _, [a, b] => Expr.atMost a b
  | operation op _ _, [a, b] => .binary op a b
  | negated _, [a] => .binary .sub (Expr.numeral "0.0") a
  | unsigned _, [a] => a
  | atom text, _ => Source.atom text
  | _, _ => .empty

/-- Whether a form divides a text into balanced pieces at an operator outside of brackets. -/
structure Divides (form : Form) (text : List Char) : Prop where
  whole : form.text = text
  balanced : ∀ piece ∈ form.pieces, Brackets.isBalanced piece = true
  /-- Nothing is open before any character of the operator. -/
  outside : ∀ left symbol, form.operator? = some (left, symbol) → left ++ symbol <+: text ∧
    ∀ before c after, symbol = before ++ c :: after →
      Brackets.isBalanced (left ++ before) = true

section

variable {text : List Char} {form : Form}

/-- Characters that are no brackets and no quotes do not change whether a text is balanced. -/
theorem isBalanced_append_plain {left plain : List Char} (balanced : Brackets.isBalanced left = true)
    (operators : ∀ c ∈ plain, c ∈ Source.operators) :
    Brackets.isBalanced (left ++ plain) = true := by
  rw [Brackets.isBalanced_append balanced, Brackets.isBalanced_iff]
  exact Brackets.scan_plain (fun c mem => (Source.not_special_of_operator (operators c mem)).1) _

/-- A form divides a text at an operator behind a balanced text. -/
theorem Divides.of_operator {left symbol : List Char} (whole : form.text = text)
    (operator : form.operator? = some (left, symbol)) (start : left ++ symbol <+: text)
    (balanced : Brackets.isBalanced left = true) (operators : ∀ c ∈ symbol, c ∈ Source.operators)
    (pieces : ∀ piece ∈ form.pieces, Brackets.isBalanced piece = true) : form.Divides text where
  whole := whole
  balanced := pieces
  outside left' symbol' here := by
    rw [operator] at here
    cases here
    refine ⟨start, fun before c after shape => isBalanced_append_plain balanced fun d mem => ?_⟩
    exact operators d (shape ▸ List.mem_append_left _ mem)

/-- An operation divides a text at its operator, between balanced texts. -/
theorem divides_operation {op : BinaryOp} {left right : List Char}
    (whole : left ++ (op.symbol.toList ++ right) = text)
    (balanced : Brackets.isBalanced left = true) (balanced' : Brackets.isBalanced right = true) :
    (operation op left right).Divides text :=
  .of_operator whole rfl ⟨right, by rw [List.append_assoc, whole]⟩ balanced
    (Source.symbol_operators op) (by simp [pieces, balanced, balanced'])

/-- A balanced text that starts with an operator is balanced without it. -/
theorem isBalanced_of_operator {c : Char} {rest : List Char} (operator : c ∈ Source.operators)
    (balanced : Brackets.isBalanced (c :: rest) = true) : Brackets.isBalanced rest = true := by
  rw [Brackets.isBalanced_iff, Brackets.scan,
    Brackets.step_plain (Source.not_special_of_operator operator).1] at balanced
  exact Brackets.isBalanced_iff.2 balanced

/-- Brackets around the whole text divide it. -/
theorem enclosed?_divides (found : enclosed? text = some form) : form.Divides text := by
  unfold enclosed? at found
  split at found
  · rename_i last
    split at found
    · cases found
    · rename_i name rest first
      have shape := Source.eq_of_splitAtFirst? first
      have closing : rest = rest.dropLast ++ [')'] := by
        have last' : rest.getLast? = some ')' := by
          rw [shape, List.getLast?_append, List.getLast?_cons] at last
          cases rest with
          | nil => cases last
          | cons c later => simpa [List.getLast?_cons] using last
        exact (List.dropLast_append_getLast? ')' last').symm
      split at found
      · rename_i test
        simp only [Bool.and_eq_true] at test
        cases found
        split
        · rename_i bare
          refine ⟨?_, by simp [pieces, test.2], fun _ _ here => by cases here⟩
          rw [shape, bare]
          exact congrArg ('(' :: ·) closing.symm
        · refine ⟨?_, by simp [pieces, test.2], fun _ _ here => by cases here⟩
          rw [shape]
          exact congrArg (name ++ '(' :: ·) closing.symm
      · cases found
  · cases found

/-- A comma divides a text. -/
theorem atComma?_divides (found : atComma? text = some form) : form.Divides text := by
  obtain ⟨cut, hit, rfl⟩ := Option.map_eq_some_iff.1 found
  obtain ⟨shape, mark, left, right⟩ := Cut.of_mem_splits (List.mem_of_find?_eq_some hit)
  refine divides_operation ?_ left right
  rw [shape, of_decide_eq_true mark]
  rfl

/-- A comparison or `=` divides a text, with a `=` directly after it or without. -/
theorem atComparison?_divides (found : atComparison? text = some form) : form.Divides text := by
  obtain ⟨cut, hit, rfl⟩ := Option.map_eq_some_iff.1 found
  obtain ⟨shape, mark, left, right⟩ := Cut.of_mem_splits (List.mem_of_find?_eq_some hit)
  have double (c : Char) (rest : List Char) (same : cut.mark = c) (equals : cut.right = '=' :: rest) :
      cut.left ++ c :: '=' :: rest = text ∧ Brackets.isBalanced rest = true := by
    rw [equals] at right
    exact ⟨by rw [shape, same, equals], isBalanced_of_operator (by simp [Source.operators]) right⟩
  have start (c : Char) (rest : List Char) (whole : cut.left ++ c :: '=' :: rest = text) :
      cut.left ++ [c, '='] <+: text := ⟨rest, by rw [← whole, List.append_assoc]; rfl⟩
  unfold ofComparison
  split
  · rename_i rest same equals
    obtain ⟨whole, balanced⟩ := double '=' rest same equals
    exact .of_operator whole rfl (start _ _ whole) left (by simp [Source.operators])
      (by simp [pieces, left, balanced])
  · rename_i rest same equals
    obtain ⟨whole, balanced⟩ := double '>' rest same equals
    exact .of_operator whole rfl (start _ _ whole) left (by simp [Source.operators])
      (by simp [pieces, left, balanced])
  · rename_i rest same equals
    obtain ⟨whole, balanced⟩ := double '<' rest same equals
    exact .of_operator whole rfl (start _ _ whole) left (by simp [Source.operators])
      (by simp [pieces, left, balanced])
  · rename_i same _
    exact divides_operation (by rw [shape, same]; rfl) left right
  · rename_i same _
    exact divides_operation (by rw [shape, same]; rfl) left right
  · rename_i above below _ _ _
    refine divides_operation ?_ left right
    have equals : cut.mark = '=' := by
      simp only [Bool.or_eq_true, decide_eq_true_eq] at mark
      rcases mark with (equals | greater) | less
      · exact equals
      · exact (above greater).elim
      · exact (below less).elim
    rw [shape, equals]
    rfl

/-- A sign between operands divides a text. -/
theorem atSign?_divides (found : atSign? text = some form) : form.Divides text := by
  obtain ⟨cut, hit, rfl⟩ := Option.map_eq_some_iff.1 found
  obtain ⟨shape, mark, left, right⟩ :=
    Cut.of_mem_splits (List.mem_reverse.1 (List.mem_of_find?_eq_some hit))
  refine divides_operation ?_ left right
  rw [shape]
  split
  · rename_i plus
    rw [plus]
    rfl
  · rename_i other
    have minus : cut.mark = '-' := by simpa [other] using mark
    rw [minus]
    rfl

/-- A sign at the start divides a balanced text. -/
theorem leadingSign?_divides (balanced : Brackets.isBalanced text = true)
    (found : leadingSign? text = some form) : form.Divides text := by
  have rest (c : Char) (later : List Char) (operator : c ∈ Source.operators)
      (shape : text = c :: later) : Brackets.isBalanced later = true :=
    isBalanced_of_operator operator (shape ▸ balanced)
  unfold leadingSign? at found
  split at found
  · rename_i later
    cases found
    exact .of_operator rfl rfl ⟨later, rfl⟩ rfl (by simp [Source.operators])
      (by simpa [pieces] using rest '-' later (by simp [Source.operators]) rfl)
  · rename_i later
    cases found
    exact .of_operator rfl rfl ⟨later, rfl⟩ rfl (by simp [Source.operators])
      (by simpa [pieces] using rest '+' later (by simp [Source.operators]) rfl)
  · cases found

/-- A `*` or `/` divides a text. -/
theorem atProduct?_divides (found : atProduct? text = some form) : form.Divides text := by
  obtain ⟨cut, mem, rfl⟩ := of_ofProducts found
  obtain ⟨shape, mark, left, right⟩ := Cut.of_mem_splits (List.mem_reverse.1 mem)
  refine divides_operation ?_ left right
  rw [shape]
  split
  · rename_i star
    rw [star]
    rfl
  · rename_i other
    have slash : cut.mark = '/' := by simpa [other] using mark
    rw [slash]
    rfl

/-- A `**` divides a text. -/
theorem atPower?_divides (found : atPower? text = some form) : form.Divides text := by
  obtain ⟨cut, mem, rest, second, rfl⟩ := of_ofPowers found
  obtain ⟨shape, mark, left, right⟩ := Cut.of_mem_splits mem
  rw [second] at right
  refine divides_operation ?_ left (isBalanced_of_operator (by simp [Source.operators]) right)
  rw [shape, second, of_decide_eq_true mark]
  rfl

/-- A balanced text is divided by its form. -/
theorem ofChars_divides (balanced : Brackets.isBalanced text = true) :
    (ofChars text).Divides text := by
  unfold ofChars
  split
  · rename_i nothing
    exact ⟨nothing.symm, nofun, nofun⟩
  · simp only [Option.orElse_eq_orElse, Option.orElse_eq_or]
    cases found : (enclosed? text).or ((atComma? text).or ((atComparison? text).or
        ((atSign? text).or ((leadingSign? text).or ((atProduct? text).or (atPower? text)))))) with
    | none => exact ⟨rfl, nofun, nofun⟩
    | some form =>
      simp only [Option.or_eq_some_iff] at found
      rcases found with here | ⟨-, here | ⟨-, here | ⟨-, here | ⟨-, here | ⟨-, here | ⟨-, here⟩⟩⟩⟩⟩⟩
      · exact enclosed?_divides here
      · exact atComma?_divides here
      · exact atComparison?_divides here
      · exact atSign?_divides here
      · exact leadingSign?_divides balanced here
      · exact atProduct?_divides here
      · exact atPower?_divides here

end

end Form

namespace Source

variable {text piece : List Char}

/-- Whether a text is one that the reading of another text goes on with. -/
def GoesOnWith (text piece : List Char) : Prop :=
  piece ∈ (Form.ofChars (Text.trim text)).pieces

/-- A text is read by its form from what its pieces are read as, and from nothing else. -/
theorem parseChars_eq_tree (text : List Char) :
    parseChars text = (Form.ofChars (Text.trim text)).tree
      ((Form.ofChars (Text.trim text)).pieces.map parseChars) := by
  cases form : Form.ofChars (Text.trim text) with
  | blank => rw [parseChars_of_blank form]; rfl
  | bracketed interior => rw [parseChars_of_bracketed form]; rfl
  | call name interior => rw [parseChars_of_call form]; rfl
  | equal left right => rw [parseChars_of_equal form]; rfl
  | atLeast left right => rw [parseChars_of_atLeast form]; rfl
  | atMost left right => rw [parseChars_of_atMost form]; rfl
  | operation op left right => rw [parseChars_of_operation form]; rfl
  | negated rest => rw [parseChars_of_negated form]; rfl
  | unsigned rest => rw [parseChars_of_unsigned form]; rfl
  | atom word => rw [parseChars_of_atom form]; rfl

/-- Trimming does not change whether a text is balanced. -/
theorem isBalanced_trim (text : List Char) :
    Brackets.isBalanced (Text.trim text) = Brackets.isBalanced text := by
  obtain ⟨before, after, blank, blank', shape⟩ := Text.exists_blanks text
  have plain {blanks : List Char} (blank : IsBlank blanks) (state : Brackets) :
      state.scan blanks = some state :=
    Brackets.scan_plain (fun c mem => (not_special_of_isBlank (blank c mem)).1) state
  conv_rhs => rw [shape]
  unfold Brackets.isBalanced
  rw [Brackets.scan_append_of (plain blank _), Brackets.scan_append]
  cases Brackets.closed.scan (Text.trim text) with
  | none => rfl
  | some state => rw [Option.bind_some, plain blank']

/-- What reading goes on with is shorter than the trimmed text. -/
theorem GoesOnWith.shorter (next : GoesOnWith text piece) :
    piece.length < (Text.trim text).length :=
  Form.length_lt_of_mem_pieces next

/-- Reading comes to an end: from no text it goes on for ever. -/
theorem goesOnWith_wellFounded : WellFounded fun piece text => GoesOnWith text piece :=
  Subrelation.wf (fun next => Nat.lt_of_lt_of_le next.shorter (Text.length_trim_le _))
    (measure List.length).wf

/-- What reading goes on with after a balanced text is balanced. -/
theorem GoesOnWith.isBalanced (next : GoesOnWith text piece)
    (balanced : Brackets.isBalanced text = true) : Brackets.isBalanced piece = true :=
  (Form.ofChars_divides ((isBalanced_trim text).trans balanced)).balanced piece next

/-- Every text that the reading of a balanced text comes to is balanced. -/
theorem isBalanced_of_goesOnWith (balanced : Brackets.isBalanced text = true)
    (reached : Relation.ReflTransGen GoesOnWith text piece) :
    Brackets.isBalanced piece = true := by
  induction reached with
  | refl => exact balanced
  | tail _ next ih => exact next.isBalanced ih

/-- A balanced beginning makes no difference to whether a text is balanced. A text is read from what
the pieces are read as into which its form divides it, and reading does not go on for ever. If a
source is balanced, so is every text that reading comes to; it is divided, trimmed, into balanced and
shorter pieces at an operator that stands outside of all brackets and quotes, and an atom is all of
it. -/
theorem parse_divides :
    (∀ a b : String, isBalanced a = true → isBalanced (a ++ b) = isBalanced b) ∧
      (∀ text, parseChars text = (Form.ofChars (Text.trim text)).tree
        ((Form.ofChars (Text.trim text)).pieces.map parseChars)) ∧
      (WellFounded fun piece text => GoesOnWith text piece) ∧
      ∀ source : String, isBalanced source = true →
        ∀ text, Relation.ReflTransGen GoesOnWith source.toList text →
          Brackets.isBalanced text = true ∧ Brackets.isBalanced (Text.trim text) = true ∧
            (Form.ofChars (Text.trim text)).Divides (Text.trim text) ∧
            (∀ piece, GoesOnWith text piece → piece.length < (Text.trim text).length) ∧
            ∀ word, Form.ofChars (Text.trim text) = .atom word → word = Text.trim text := by
  refine ⟨fun a b balanced => ?_, parseChars_eq_tree, goesOnWith_wellFounded,
    fun source balanced text reached => ?_⟩
  · unfold isBalanced
    rw [String.toList_append, Brackets.isBalanced_append balanced]
  · have here := isBalanced_of_goesOnWith balanced reached
    have trimmed := (isBalanced_trim text).trans here
    have divides := Form.ofChars_divides trimmed
    exact ⟨here, trimmed, divides, fun piece next => next.shorter, fun word atom => by
      rw [← divides.whole, atom]; rfl⟩

/-- Reading comes from a product to the sum in its brackets, which is divided at the sign outside of
the quotes. -/
theorem parse_divides_sum_in_product :
    isBalanced "a*(b+\"-\")" = true ∧
      Relation.ReflTransGen GoesOnWith "a*(b+\"-\")".toList "b+\"-\"".toList ∧
      Form.ofChars (Text.trim "b+\"-\"".toList) = .operation .add ['b'] ['"', '-', '"'] ∧
      (Form.operation .add ['b'] ['"', '-', '"']).Divides "b+\"-\"".toList := by
  have balanced : isBalanced "a*(b+\"-\")" = true := by decide +kernel
  have reached : Relation.ReflTransGen GoesOnWith "a*(b+\"-\")".toList "b+\"-\"".toList := by
    have product : GoesOnWith "a*(b+\"-\")".toList "(b+\"-\")".toList := by
      unfold GoesOnWith
      decide +kernel
    have bracketed : GoesOnWith "(b+\"-\")".toList "b+\"-\"".toList := by
      unfold GoesOnWith
      decide +kernel
    exact (Relation.ReflTransGen.single product).tail bracketed
  have form : Form.ofChars (Text.trim "b+\"-\"".toList) = .operation .add ['b'] ['"', '-', '"'] := by
    decide +kernel
  have trimmed : Text.trim "b+\"-\"".toList = "b+\"-\"".toList := by decide +kernel
  have divides := (parse_divides.2.2.2 _ balanced _ reached).2.2.1
  rw [form, trimmed] at divides
  exact ⟨balanced, reached, form, divides⟩

end Source

end Shadeloom
