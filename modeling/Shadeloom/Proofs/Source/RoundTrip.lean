import Mathlib
import Shadeloom.Proofs.Expr.Parts
import Shadeloom.Proofs.Source.Outlines
import Shadeloom.Proofs.Source.Parsing
/-!
# Reading what is written

A written tree is read as the tree that it is. The outline of its text tells that the loosest operator
that the text shows is the one that it was put together with, and where it stands.
-/
namespace Shadeloom.Source

namespace Outline

variable {level : Nat} {text : List Char}

/-- Written trees have characters. -/
theorem ne_nil (outline : Outline level text) : text ≠ [] := by
  obtain ⟨c, rest, rfl, -⟩ := outline.first
  exact List.cons_ne_nil c rest

/-- Blanks around a written tree are trimmed away. -/
theorem trim_padded (outline : Outline level text) {before after : List Char}
    (before_ : IsBlank before) (after_ : IsBlank after) :
    Text.trim (before ++ (text ++ after)) = text := by
  have left : Text.trimLeft (before ++ (text ++ after)) = text ++ after := by
    obtain ⟨c, rest, rfl, solid, -⟩ := outline.first
    unfold Text.trimLeft
    rw [List.dropWhile_append_of_pos before_, List.cons_append, List.dropWhile_cons, solid]
    rfl
  have right : Text.trimRight (text ++ after) = text := by
    obtain ⟨rest, c, rfl, solid, -⟩ := outline.last
    have turned : ∀ d ∈ after.reverse, Text.isBlank d = true := fun d mem =>
      after_ d (List.mem_reverse.1 mem)
    unfold Text.trimRight
    rw [List.reverse_append, List.dropWhile_append_of_pos turned, List.reverse_append,
      List.reverse_singleton, List.singleton_append, List.dropWhile_cons, solid]
    simp
  rw [Text.trim, left, right]

/-- The places between balanced texts in a balanced text are those where everything is closed. -/
theorem splits_eq (outline : Outline level text) (isMark : Char → Bool) :
    Cut.splits isMark text = Cut.closedCuts isMark .closed [] text :=
  if_pos (Brackets.isBalanced_iff.2 outline.balanced)

/-- A written tree that is no chain shows no comma. -/
theorem atComma?_eq_none (outline : Outline level text) (least : 1 ≤ level) :
    Form.atComma? text = none := by
  unfold Form.atComma?
  rw [outline.splits_eq, (outline.commas least).uncut]
  rfl

/-- A written sum shows no comparison. -/
theorem atComparison?_eq_none (outline : Outline level text) (least : 2 ≤ level) :
    Form.atComparison? text = none := by
  unfold Form.atComparison?
  rw [outline.splits_eq, (outline.comparisons least).uncut]
  rfl

/-- The signs that a written product shows are not between operands. -/
theorem atSign?_eq_none (outline : Outline level text) (least : 3 ≤ level) :
    Form.atSign? text = none := by
  unfold Form.atSign?
  rw [outline.splits_eq, Option.map_eq_none_iff, List.find?_eq_none]
  intro cut mem
  have exponent := outline.signs least [] fresh_nil cut (List.mem_reverse.1 mem)
  simp [Form.isBetweenOperands, exponent]

/-- A written tree starts with no sign. -/
theorem leadingSign?_eq_none (outline : Outline level text) : Form.leadingSign? text = none := by
  obtain ⟨c, rest, rfl, -, other⟩ := outline.first
  unfold Form.leadingSign?
  split
  · simp_all
  · simp_all
  · rfl

/-- A written power shows no stars but halves of powers. -/
theorem atProduct?_eq_none (outline : Outline level text) (least : 4 ≤ level) :
    Form.atProduct? text = none := by
  have passed := outline.products least [] []
  rw [List.append_nil] at passed
  unfold Form.atProduct?
  rw [outline.splits_eq]
  exact passed

/-- What stands for itself shows no powers. -/
theorem atPower?_eq_none (outline : Outline level text) (least : 5 ≤ level) :
    Form.atPower? text = none := by
  unfold Form.atPower?
  rw [outline.splits_eq, ((outline.powers least).of_fewer isProduct_of_isStar).uncut]
  rfl

end Outline

section Operators

variable {op : BinaryOp} {left before after right : List Char}

/-- No brackets go around two written trees with an operator between them. -/
theorem enclosed?_binaryText {level : Nat} (first : Outline level left) (before_ : IsBlank before) :
    Form.enclosed? (binaryText op left before after right) = none := by
  obtain ⟨c, rest, shape, unnamed, other⟩ := Outline.gap_first op before_ after
  rw [binaryText, shape, List.cons_append]
  exact first.apart c _ unnamed other

/-- The text before the place of an operator. -/
theorem left_binaryText (c : Char) :
    Cut.left ⟨before.reverse ++ (left.reverse ++ []), c, right⟩ = left ++ before := by
  simp [Cut.left]

/-- A written tree with blanks before it has characters. -/
theorem padded_ne_nil {level : Nat} (second : Outline level right) (after : List Char) :
    after ++ right ≠ [] :=
  fun empty => second.ne_nil (List.append_eq_nil_iff.1 empty).2

/-- The first place with a text after it is taken. -/
theorem find?_nonempty {cut : Cut} (nonempty : cut.right ≠ []) (later : List Cut) :
    (cut :: later).find? (fun cut => cut.right ≠ []) = some cut :=
  List.find?_cons_of_pos (decide_eq_true nonempty)

/-- A chain is cut at its first comma. -/
theorem atComma?_binaryText (first : Outline 1 left) (second : Outline 0 right)
    (before_ : IsBlank before) (after_ : IsBlank after) :
    Form.atComma? (binaryText .comma left before after right) =
      some (.operation .comma (left ++ before) (after ++ right)) := by
  have whole := Outline.binary .comma (by decide) before_ after_ first second
  unfold Form.atComma?
  rw [whole.splits_eq, Outline.closedCuts_binary (c := ',') isOperator_of_isComma rfl rfl before_
    after_ first.balanced, (first.commas (by omega)).uncut, List.map_nil, List.nil_append,
    find?_nonempty (padded_ne_nil second after), Option.map_some, left_binaryText]

/-- No sign of an assignment comes after blanks before a written tree. -/
theorem padded_head {level : Nat} (second : Outline level right) (after_ : IsBlank after)
    (rest : List Char) : after ++ right ≠ '=' :: rest := by
  intro same
  cases after with
  | nil =>
    obtain ⟨c, later, rfl, -, other⟩ := second.first
    cases same
    exact other (by decide)
  | cons c later =>
    cases same
    exact absurd (after_ '=' (by simp)) (by decide)

/-- A comparison is cut at its first operator. -/
theorem atComparison?_binaryText {c : Char} (symbol : op.symbol.toList = [c])
    (comparison : op = .gt ∧ c = '>' ∨ op = .lt ∧ c = '<') (first : Outline 2 left)
    (second : Outline 1 right) (before_ : IsBlank before) (after_ : IsBlank after)
    (whole : Outline 1 (binaryText op left before after right)) :
    Form.atComparison? (binaryText op left before after right) =
      some (.operation op (left ++ before) (after ++ right)) := by
  have marked : isComparison c = true := by
    rcases comparison with ⟨-, rfl⟩ | ⟨-, rfl⟩ <;> rfl
  have other := padded_head second after_
  unfold Form.atComparison?
  rw [whole.splits_eq, Outline.closedCuts_binary isOperator_of_isComparison symbol marked before_
    after_ first.balanced, (first.comparisons (by omega)).uncut, List.map_nil, List.nil_append,
    find?_nonempty (padded_ne_nil second after), Option.map_some, Form.ofComparison]
  dsimp only
  rw [left_binaryText]
  rcases comparison with ⟨rfl, rfl⟩ | ⟨rfl, rfl⟩ <;> split <;> simp_all

/-- A written tree with blanks after it is an operand. -/
theorem isBetweenOperands_padded {level : Nat} (first : Outline level left)
    (before_ : IsBlank before) (c : Char) (rest : List Char) :
    Form.isBetweenOperands ⟨before.reverse ++ (left.reverse ++ []), c, rest⟩ = true := by
  have turned : ∀ d ∈ before.reverse, Text.isBlank d = true := fun d mem =>
    before_ d (List.mem_reverse.1 mem)
  have operator : Form.comesAfterOperator ⟨before.reverse ++ (left.reverse ++ []), c, rest⟩ =
      false := by
    obtain ⟨start, last, rfl, solid, other⟩ := first.last
    simp only [List.mem_cons, List.not_mem_nil, or_false, not_or] at other
    unfold Form.comesAfterOperator
    simp [List.dropWhile_append_of_pos turned, solid, other]
  have exponent : Form.comesAfterExponentMark ⟨before.reverse ++ (left.reverse ++ []), c, rest⟩ =
      false := by
    cases shape : before.reverse with
    | nil => exact first.finished [] c rest fresh_nil
    | cons d later =>
      have blank : Text.isBlank d = true := turned d (by simp [shape])
      apply not_comesAfterExponentMark_of_last
      constructor <;> rintro rfl <;> exact absurd blank (by decide)
  have nonempty : before.reverse ++ (left.reverse ++ []) ≠ [] := by
    simp [first.ne_nil]
  unfold Form.isBetweenOperands
  rw [operator, exponent, decide_eq_true nonempty]
  rfl

/-- A sum is cut at its last sign between operands. -/
theorem atSign?_binaryText {c : Char} (symbol : op.symbol.toList = [c])
    (sum : op = .add ∧ c = '+' ∨ op = .sub ∧ c = '-') (first : Outline 2 left)
    (second : Outline 3 right) (before_ : IsBlank before) (after_ : IsBlank after)
    (whole : Outline 2 (binaryText op left before after right)) :
    Form.atSign? (binaryText op left before after right) =
      some (.operation op (left ++ before) (after ++ right)) := by
  have marked : isSign c = true := by
    rcases sum with ⟨-, rfl⟩ | ⟨-, rfl⟩ <;> rfl
  have fresh : Fresh (after.reverse ++ c :: (before.reverse ++ (left.reverse ++ []))) := by
    have gap := Outline.gap_fresh op after_ (before.reverse ++ (left.reverse ++ []))
    rw [symbol, List.reverse_append, List.append_assoc] at gap
    exact gap
  -- the signs of the right side belong to exponents
  have later : ((Cut.closedCuts isSign .closed
      (after.reverse ++ c :: (before.reverse ++ (left.reverse ++ []))) right).reverse.find?
        Form.isBetweenOperands) = none := by
    rw [List.find?_eq_none]
    intro cut mem
    have exponent := second.signs (by omega) _ fresh cut (List.mem_reverse.1 mem)
    simp [Form.isBetweenOperands, exponent]
  unfold Form.atSign?
  rw [whole.splits_eq, Outline.closedCuts_binary isOperator_of_isSign symbol marked before_ after_
    first.balanced, List.reverse_append, List.reverse_cons, List.append_assoc, List.find?_append,
    later, Option.none_or, List.singleton_append,
    List.find?_cons_of_pos (isBetweenOperands_padded first before_ _ _), Option.map_some,
    left_binaryText]
  rcases sum with ⟨rfl, rfl⟩ | ⟨rfl, rfl⟩ <;> rfl

/-- A written tree with blanks after it does not end in a star. -/
theorem not_isSecondStar_padded {level : Nat} (first : Outline level left)
    (before_ : IsBlank before) (c : Char) (rest : List Char) :
    Form.isSecondStar ⟨before.reverse ++ (left.reverse ++ []), c, rest⟩ = false := by
  have head : (before.reverse ++ (left.reverse ++ [])).head? ≠ some '*' := by
    cases shape : before.reverse with
    | nil =>
      obtain ⟨start, last, rfl, -, other⟩ := first.last
      simp only [List.mem_cons, List.not_mem_nil, or_false, not_or] at other
      simp [other.1]
    | cons d later =>
      have blank : Text.isBlank d = true := before_ d (List.mem_reverse.1 (by simp [shape]))
      rintro same
      cases same
      exact absurd blank (by decide)
  show (decide (c = '*') && decide ((before.reverse ++ (left.reverse ++ [])).head? = some '*')) = false
  rw [decide_eq_false head, Bool.and_false]

/-- The first place that is not a half of `**` is taken. -/
theorem ofProducts_cons {cut : Cut} (single : Form.isSecondStar cut = false) (later : List Cut) :
    Form.ofProducts (cut :: later) = some (Form.ofProducts.ofProduct cut) := by
  have test : ¬ Form.isSecondStar cut = true := by rw [single]; decide
  cases later with
  | nil => exact if_neg test
  | cons => exact if_neg test

/-- A product is cut at its last operator. -/
theorem atProduct?_binaryText {c : Char} (symbol : op.symbol.toList = [c])
    (product : op = .mul ∧ c = '*' ∨ op = .div ∧ c = '/') (first : Outline 3 left)
    (second : Outline 4 right) (before_ : IsBlank before) (after_ : IsBlank after)
    (whole : Outline 3 (binaryText op left before after right)) :
    Form.atProduct? (binaryText op left before after right) =
      some (.operation op (left ++ before) (after ++ right)) := by
  have marked : isProduct c = true := by
    rcases product with ⟨-, rfl⟩ | ⟨-, rfl⟩ <;> rfl
  have taken : Form.ofProducts.ofProduct
      ⟨before.reverse ++ (left.reverse ++ []), c, after ++ right⟩ =
        .operation op (left ++ before) (after ++ right) := by
    unfold Form.ofProducts.ofProduct
    rw [left_binaryText]
    rcases product with ⟨rfl, rfl⟩ | ⟨rfl, rfl⟩ <;> rfl
  unfold Form.atProduct?
  rw [whole.splits_eq, Outline.closedCuts_binary isOperator_of_isProduct symbol marked before_ after_
    first.balanced, List.reverse_append, List.reverse_cons, List.append_assoc,
    second.products (by omega), List.singleton_append,
    ofProducts_cons (not_isSecondStar_padded first before_ _ _), taken]

/-- A power is cut at its first operator. -/
theorem atPower?_binaryText (first : Outline 5 left) (second : Outline 4 right)
    (before_ : IsBlank before) (after_ : IsBlank after) :
    Form.atPower? (binaryText .pow left before after right) =
      some (.operation .pow (left ++ before) (after ++ right)) := by
  have whole := Outline.binary .pow (by decide) before_ after_ first second
  have quiet := (first.powers (by omega)).of_fewer isProduct_of_isStar
  have fewer : ∀ c, isStar c = true → isOperator c = true := fun c mark =>
    isOperator_of_isProduct c (isProduct_of_isStar c mark)
  unfold Form.atPower?
  rw [whole.splits_eq, Outline.closedCuts_power fewer rfl before_ after_ quiet]
  simp [Form.ofPowers, Cut.left]

/-- Two written trees with an operator between them are cut at the operator. -/
theorem ofChars_binaryText (operator : op ≠ .assign) (before_ : IsBlank before)
    (after_ : IsBlank after) (first : Outline op.leftLevel left)
    (second : Outline op.rightLevel right) :
    Form.ofChars (binaryText op left before after right) =
      .operation op (left ++ before) (after ++ right) := by
  have whole := Outline.binary op operator before_ after_ first second
  have enclosed : Form.enclosed? (binaryText op left before after right) = none :=
    enclosed?_binaryText first before_
  have sign := whole.leadingSign?_eq_none
  unfold Form.ofChars
  rw [if_neg whole.ne_nil, enclosed]
  cases op with
  | assign => exact absurd rfl operator
  | comma =>
    rw [atComma?_binaryText first second before_ after_]
    rfl
  | gt =>
    rw [whole.atComma?_eq_none (by decide),
      atComparison?_binaryText (c := '>') rfl (by decide) first second before_ after_ whole]
    rfl
  | lt =>
    rw [whole.atComma?_eq_none (by decide),
      atComparison?_binaryText (c := '<') rfl (by decide) first second before_ after_ whole]
    rfl
  | add =>
    rw [whole.atComma?_eq_none (by decide), whole.atComparison?_eq_none (by decide),
      atSign?_binaryText (c := '+') rfl (by decide) first second before_ after_ whole]
    rfl
  | sub =>
    rw [whole.atComma?_eq_none (by decide), whole.atComparison?_eq_none (by decide),
      atSign?_binaryText (c := '-') rfl (by decide) first second before_ after_ whole]
    rfl
  | mul =>
    rw [whole.atComma?_eq_none (by decide), whole.atComparison?_eq_none (by decide),
      whole.atSign?_eq_none (by decide), sign,
      atProduct?_binaryText (c := '*') rfl (by decide) first second before_ after_ whole]
    rfl
  | div =>
    rw [whole.atComma?_eq_none (by decide), whole.atComparison?_eq_none (by decide),
      whole.atSign?_eq_none (by decide), sign,
      atProduct?_binaryText (c := '/') rfl (by decide) first second before_ after_ whole]
    rfl
  | pow =>
    rw [whole.atComma?_eq_none (by decide), whole.atComparison?_eq_none (by decide),
      whole.atSign?_eq_none (by decide), sign, whole.atProduct?_eq_none (by decide),
      atPower?_binaryText first second before_ after_]
    rfl

end Operators

/-- A text that ends in no bracket is an atom if it shows no operators. -/
theorem Outline.ofChars_eq_atom {text : List Char} (outline : Outline 5 text)
    (unclosed : text.getLast? ≠ some ')') : Form.ofChars text = .atom text := by
  unfold Form.ofChars Form.enclosed?
  rw [if_neg outline.ne_nil, if_neg unclosed, outline.atComma?_eq_none (by decide),
    outline.atComparison?_eq_none (by decide), outline.atSign?_eq_none (by decide),
    outline.leadingSign?_eq_none, outline.atProduct?_eq_none (by decide),
    outline.atPower?_eq_none (by decide)]
  rfl

/-- A name with brackets after it is enclosed. -/
theorem ofChars_bracketed {name text : List Char} (absent : '(' ∉ name)
    (balanced : Brackets.closed.scan text = some .closed)
    (callable : name = [] ∨ Function.isCallable (String.ofList name) = true) :
    Form.ofChars (name ++ '(' :: (text ++ [')'])) =
      if name = [] then .bracketed text else .call name text := by
  have last : (name ++ '(' :: (text ++ [')'])).getLast? = some ')' := by
    rw [← List.cons_append, ← List.append_assoc, List.getLast?_concat]
  have calls : (decide (name = []) || Function.isCallable (String.ofList name)) = true := by
    simpa using callable
  unfold Form.ofChars Form.enclosed?
  rw [if_neg (by simp), if_pos last, splitAtFirst?_append absent]
  dsimp only
  rw [List.dropLast_concat, calls, Brackets.isBalanced_iff.2 balanced]
  rfl

/-- The text of a variable is read as the variable. -/
theorem ofChars_text {v : Variable} (writable : IsWritable v) :
    Variable.ofChars v.text.toList = v := by
  have absent : ∀ c ∈ ['{', '}', '[', ']'], c ∉ v.name.toList := by
    intro c special mem
    have named := (isNameChar_of_isWordChar (writable.name.all_isWordChar c mem)).1
    apply Variable.plain_of_isNameChar named
    simp only [List.mem_cons, List.not_mem_nil, or_false] at special ⊢
    tauto
  unfold Variable.ofChars
  rw [Variable.toList_text, splitDefault_text ⟨absent _ (by decide), absent _ (by decide)⟩
    (fun text here mem => writable.fallback text here '}' mem (by decide))
    fun text here mem => writable.subscript text here '{' mem (by decide)]
  dsimp only
  rw [splitSubscript_text ⟨absent _ (by decide), absent _ (by decide)⟩
    fun text here mem => writable.subscript text here ']' mem (by decide)]
  obtain ⟨name, fallback, subscript⟩ := v
  simp [Function.comp_def]

/-- The text of a variable does not end in a round bracket. -/
theorem getLast?_text {v : Variable} (writable : IsWritable v) :
    v.text.toList.getLast? ≠ some ')' := by
  rw [Variable.toList_text]
  rcases Outline.suffixes_cases v.fallback v.subscript with none | ⟨opening, middle, closing, some,
    -, closes⟩
  · intro last
    rw [none, List.append_nil] at last
    have word := writable.name.all_isWordChar ')' (List.mem_of_getLast? last)
    exact absurd word (by decide)
  · rw [some, ← List.cons_append, ← List.append_assoc, List.getLast?_concat]
    simp only [List.mem_cons, List.not_mem_nil, or_false] at closes
    rcases closes with rfl | rfl <;> decide

/-- What starts with no point is a value by its first character. -/
theorem isValueAtom_cons {c : Char} (point : c ≠ '.') (rest : List Char) :
    isValueAtom (c :: rest) = (c.isDigit || decide (c = '"')) := by
  unfold isValueAtom
  split <;> simp_all

/-- What starts with an identifier is no value. -/
theorem IsIdentifier.not_isValueAtom {name : List Char} (identifier : IsIdentifier name)
    (rest : List Char) : isValueAtom (name ++ rest) = false := by
  cases identifier with
  | @shown c later letter _ =>
    have point : c ≠ '.' := by
      rintro rfl
      cases letter
    have quote : c ≠ '"' := by
      rintro rfl
      cases letter
    rw [List.cons_append, isValueAtom_cons point, Text.not_digit_of_alphabetic letter,
      decide_eq_false quote]
    rfl
  | hidden _ _ => rfl

/-- A variable is read as itself. -/
theorem parseChars_variable {v : Variable} (writable : IsWritable v) {before after : List Char}
    (before_ : IsBlank before) (after_ : IsBlank after) :
    parseChars (before ++ (v.text.toList ++ after)) = .var v := by
  have outline := Outline.of_writable writable
  have other : isValueAtom v.text.toList = false := by
    rw [Variable.toList_text]
    exact writable.name.not_isValueAtom _
  have form : Form.ofChars (Text.trim (before ++ (v.text.toList ++ after))) =
      .atom v.text.toList := by
    rw [outline.trim_padded before_ after_]
    exact outline.ofChars_eq_atom (getLast?_text writable)
  rw [parseChars_of_atom form, atom, other, ofChars_text writable]
  rfl

/-- A value atom that shows no operators but signs is read as itself. -/
theorem parseChars_value {text : List Char} (outline : Outline 5 text)
    (value : isValueAtom text = true) (unclosed : text.getLast? ≠ some ')') {before after : List Char}
    (before_ : IsBlank before) (after_ : IsBlank after) :
    parseChars (before ++ (text ++ after)) = .value ⟨String.ofList text⟩ := by
  have form : Form.ofChars (Text.trim (before ++ (text ++ after))) = .atom text := by
    rw [outline.trim_padded before_ after_]
    exact outline.ofChars_eq_atom unclosed
  rw [parseChars_of_atom form, atom, value]
  rfl

/-- A numeral is a value. -/
theorem IsMantissa.isValueAtom {mantissa : List Char} (decimal : IsMantissa mantissa)
    (rest : List Char) : isValueAtom (mantissa ++ rest) = true := by
  -- the first character is a digit unless nothing stands before the point
  have digits : ∀ text : List Char, text ≠ [] → text.all Char.isDigit = true → ∀ later,
      Source.isValueAtom (text ++ later) = true := by
    intro text nonempty all later
    obtain ⟨c, others, rfl⟩ := List.exists_cons_of_ne_nil nonempty
    have digit := List.all_eq_true.1 all c (by simp)
    have point : c ≠ '.' := by
      rintro rfl
      cases digit
    rw [List.cons_append, isValueAtom_cons point, digit]
    rfl
  cases decimal with
  | whole whole => exact digits _ whole.1 whole.2 rest
  | @fraction whole decimals whole_ fraction =>
    by_cases empty : whole = []
    · subst empty
      obtain ⟨c, others, rfl⟩ := List.exists_cons_of_ne_nil fraction.1
      exact List.all_eq_true.1 fraction.2 c (by simp)
    · rw [List.append_assoc]
      exact digits whole empty whole_ _

/-- The names of sugar have no colon. -/
theorem colon_of_sugar : (sugarNames.all fun name => ':' ∉ name.toList) = true := by
  decide

/-- The names of calls that stay calls are no sugar. -/
theorem IsCallName.plain {name : String} (call : IsCallName name) : name ∉ sugarNames := by
  cases call with
  | listed _ _ plain => exact plain
  | group _ =>
    intro sugar
    have colon := List.all_eq_true.1 colon_of_sugar _ sugar
    simp at colon

/-- Only sugar is expanded. -/
theorem expand?_eq_none {name : String} (plain : name ∉ sugarNames) (args : List Expr) :
    Expr.expand? name args = none := by
  simp only [sugarNames, List.mem_cons, List.not_mem_nil, or_false, not_or] at plain
  unfold Expr.expand?
  split
  · rfl
  · unfold Expr.expandUnary?
    split <;> simp_all
  · unfold Expr.expandBinary?
    split <;> simp_all
  · unfold Expr.expandMany?
    split <;> simp_all

/-- The call of `combine` is read as the vector of its components. -/
theorem application_combine {x : Expr} {y z : Option Expr} (ordered : y = none → z = none)
    (single : ∀ e ∈ Expr.components x y z, ∀ lhs rhs, e ≠ .binary .comma lhs rhs) :
    Expr.application "combine" (.chain (Expr.components x y z)) = .combine x y z := by
  unfold Expr.application
  rw [Expr.arguments_chain (by simp [Expr.components]) fun last ends =>
    single last (List.mem_of_getLast? ends)]
  cases y with
  | none =>
    rw [ordered rfl]
    rfl
  | some y =>
    cases z with
    | none => rfl
    | some z => rfl

/-- What can be called is read with the brackets after it as its application. -/
theorem parseChars_call {name text : List Char} (named : ∀ c ∈ name, Variable.isNameChar c = true)
    (nonempty : name ≠ []) (callable : Function.isCallable (String.ofList name) = true)
    (balanced : Brackets.closed.scan text = some .closed) {before after : List Char}
    (before_ : IsBlank before) (after_ : IsBlank after) :
    parseChars (before ++ ((name ++ '(' :: (text ++ [')'])) ++ after)) =
      Expr.application (String.ofList name) (parseChars text) := by
  have absent : '(' ∉ name := fun mem => absurd (named _ mem) (by decide)
  have form : Form.ofChars (Text.trim (before ++ ((name ++ '(' :: (text ++ [')'])) ++ after))) =
      .call name text := by
    rw [(Outline.bracketed named balanced).trim_padded before_ after_,
      ofChars_bracketed absent balanced (.inr callable), if_neg nonempty]
  exact parseChars_of_call form

/-- A written tree with blanks around it is read as the tree. -/
theorem Written.parseChars_padded {level : Nat} {e : Expr} {text : List Char}
    (written : Written level e text) {before after : List Char} (before_ : IsBlank before)
    (after_ : IsBlank after) : parseChars (before ++ (text ++ after)) = e := by
  induction written generalizing before after with
  | var writable => exact parseChars_variable writable before_ after_
  | numeral decimal power =>
    refine parseChars_value (.numeral decimal power) (decimal.isValueAtom _) ?_ before_ after_
    obtain ⟨-, rest, c, ending, digit⟩ := Outline.ends_numeral decimal power
    rw [ending, List.getLast?_concat]
    rintro same
    cases same
    cases digit
  | @quoted text inside =>
    refine parseChars_value (.quoted inside) rfl ?_ before_ after_
    rw [← List.cons_append, List.getLast?_concat]
    decide
  | @call name args text callable arguments ih =>
    have interior : parseChars text = args := by
      simpa using ih isBlank_nil isBlank_nil
    have called : Function.isCallable (String.ofList name.toList) = true := by
      rw [String.ofList_toList]
      exact callable.isCallable
    rw [callText, parseChars_call callable.named callable.ne_nil called arguments.outline.balanced
      before_ after_, String.ofList_toList, interior, Expr.application, expand?_eq_none callable.plain]
    rfl
  | @combine x y z text ordered single arguments ih =>
    have interior : parseChars text = .chain (Expr.components x y z) := by
      simpa using ih isBlank_nil isBlank_nil
    have named : ("combine".toList.all Variable.isNameChar) = true := by decide +kernel
    rw [callText, parseChars_call (List.all_eq_true.1 named) (by decide) (by decide +kernel)
      arguments.outline.balanced before_ after_, String.ofList_toList, interior]
    exact application_combine ordered single
  | @bracketed e text inside ih =>
    have outline := (Written.bracketed inside).outline
    have form : Form.ofChars (Text.trim (before ++ (('(' :: (text ++ [')'])) ++ after))) =
        .bracketed text := by
      rw [outline.trim_padded before_ after_]
      exact @ofChars_bracketed [] text List.not_mem_nil inside.outline.balanced (.inl rfl)
    rw [parseChars_of_bracketed form]
    simpa using ih isBlank_nil isBlank_nil
  | @binary op lhs rhs left gap gap' right operator first second blank blank' ihl ihr =>
    have outline := (Written.binary operator first second blank blank').outline
    have form : Form.ofChars (Text.trim (before ++ (binaryText op left gap gap' right ++ after))) =
        .operation op (left ++ gap) (gap' ++ right) := by
      rw [outline.trim_padded before_ after_]
      exact ofChars_binaryText operator blank blank' first.outline second.outline
    rw [parseChars_of_operation form]
    have lhs' : parseChars (left ++ gap) = lhs := ihl isBlank_nil blank
    have rhs' : parseChars (gap' ++ right) = rhs := by
      simpa using ihr blank' isBlank_nil
    rw [lhs', rhs']
  | looser _ _ ih => exact ih before_ after_

/-- Reading a written tree gives the tree back. -/
theorem parse_written {level : Nat} {e : Expr} {text : List Char} (written : Written level e text) :
    parse (String.ofList text) = e := by
  have read := written.parseChars_padded isBlank_nil isBlank_nil
  rw [List.nil_append, List.append_nil] at read
  rw [parse, String.toList_ofList]
  exact read

/-- A variable of one letter is written as the letter. -/
theorem written_letter {c : Char} (letter : Text.isAlphabetic c = true) :
    Written 5 (.var (.plain (String.ofList [c]))) [c] := by
  have name : IsIdentifier (String.ofList [c]).toList := by
    rw [String.toList_ofList]
    exact .shown letter rfl
  have text : (Variable.plain (String.ofList [c])).text.toList = [c] := by
    rw [Variable.toList_text]
    simp [Variable.plain, Variable.suffixText]
  have written : Written 5 (.var (.plain (String.ofList [c]))) _ :=
    .var ⟨name, fun text given => absurd given.symm (Option.some_ne_none text),
      fun text given => absurd given.symm (Option.some_ne_none text)⟩
  rwa [text] at written

/-- A difference with a power on its right needs no brackets. -/
theorem parse_written_difference :
    Written 2 (.binary .sub (.var (.plain "a")) (.binary .pow (.var (.plain "b")) (.numeral "2")))
        "a - b**2".toList ∧
      parse "a - b**2" =
        .binary .sub (.var (.plain "a")) (.binary .pow (.var (.plain "b")) (.numeral "2")) := by
  have a : Written 5 (.var (.plain "a")) ['a'] := written_letter (by decide)
  have b : Written 5 (.var (.plain "b")) ['b'] := written_letter (by decide)
  have two : Written 5 (.value ⟨String.ofList (['2'] ++ [])⟩) (['2'] ++ []) :=
    .numeral (.whole ⟨by decide, by decide⟩) .none
  have blank : IsBlank [' '] := by
    intro c mem
    rw [List.mem_singleton.1 mem]
    decide
  have power : Written BinaryOp.pow.level (.binary .pow (.var (.plain "b")) (.numeral "2"))
      (binaryText .pow ['b'] [] [] ['2']) :=
    .binary (by decide) b (.looser (by decide) two) isBlank_nil isBlank_nil
  have written : Written BinaryOp.sub.level
      (.binary .sub (.var (.plain "a")) (.binary .pow (.var (.plain "b")) (.numeral "2")))
      (binaryText .sub ['a'] [' '] [' '] (binaryText .pow ['b'] [] [] ['2'])) :=
    .binary (by decide) (.looser (by decide) a) (.looser (by decide) power) blank blank
  exact ⟨written, parse_written written⟩

end Shadeloom.Source
