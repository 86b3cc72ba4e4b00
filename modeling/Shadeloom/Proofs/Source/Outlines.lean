import Mathlib
import Shadeloom.Proofs.Source.Words
/-!
# Outlines of written trees

What reading needs to know of a written tree: how its text starts and ends, and which operators it
shows outside of brackets and quotes. A written tree of a level shows none of the operators that are
looser than the level, and the signs that it shows then belong to exponents.
-/
namespace Shadeloom.Source

/-- What is known of the text of a tree that is written at a level. -/
structure Outline (level : Nat) (text : List Char) : Prop where
  balanced : Brackets.closed.scan text = some .closed
  /-- No brackets go around the text and what is written after it. -/
  apart : ∀ c rest, Variable.isNameChar c = false → c ≠ '(' →
    Form.enclosed? (text ++ c :: rest) = none
  first : ∃ c rest, text = c :: rest ∧ Text.isBlank c = false ∧ c ∉ ['=', '+', '-']
  last : ∃ rest c, text = rest ++ [c] ∧ Text.isBlank c = false ∧ c ∉ ['*', '/', '(', '+', '-']
  /-- A sign that is written after the text is not the sign of an exponent. -/
  finished : ∀ read mark right, Fresh read →
    Form.comesAfterExponentMark ⟨text.reverse ++ read, mark, right⟩ = false
  commas : 1 ≤ level → Cut.Quiet isComma text
  comparisons : 2 ≤ level → Cut.Quiet isComparison text
  signs : 3 ≤ level → ∀ read, Fresh read → ∀ cut ∈ Cut.closedCuts isSign .closed read text,
    Form.comesAfterExponentMark cut = true
  /-- Stars that are halves of powers are passed over. -/
  products : 4 ≤ level → ∀ read earlier,
    Form.ofProducts ((Cut.closedCuts isProduct .closed read text).reverse ++ earlier) =
      Form.ofProducts earlier
  powers : 5 ≤ level → Cut.Quiet isProduct text

namespace Outline

variable {level level' : Nat} {text : List Char}

/-- What is known at a level is known at looser ones. -/
theorem of_le (outline : Outline level' text) (le : level ≤ level') : Outline level text where
  balanced := outline.balanced
  apart := outline.apart
  first := outline.first
  last := outline.last
  finished := outline.finished
  commas least := outline.commas (Nat.le_trans least le)
  comparisons least := outline.comparisons (Nat.le_trans least le)
  signs least := outline.signs (Nat.le_trans least le)
  products least := outline.products (Nat.le_trans least le)
  powers least := outline.powers (Nat.le_trans least le)

/-- What is known of a text that shows no operators at all. -/
theorem of_quiet (quiet : Cut.Quiet isOperator text)
    (apart : ∀ c rest, Variable.isNameChar c = false → c ≠ '(' →
      Form.enclosed? (text ++ c :: rest) = none)
    (first : ∃ c rest, text = c :: rest ∧ Text.isBlank c = false ∧ c ∉ ['=', '+', '-'])
    (last : ∃ rest c, text = rest ++ [c] ∧ Text.isBlank c = false ∧ c ∉ ['*', '/', '(', '+', '-'])
    (finished : ∀ read mark right, Fresh read →
      Form.comesAfterExponentMark ⟨text.reverse ++ read, mark, right⟩ = false) :
    Outline level text where
  balanced := quiet.balanced
  apart := apart
  first := first
  last := last
  finished := finished
  commas _ := quiet.of_fewer isOperator_of_isComma
  comparisons _ := quiet.of_fewer isOperator_of_isComparison
  signs _ read _ cut mem := by
    rw [(quiet.of_fewer isOperator_of_isSign).uncut] at mem
    cases mem
  products _ read earlier := by
    rw [(quiet.of_fewer isOperator_of_isProduct).uncut]
    rfl
  powers _ := quiet.of_fewer isOperator_of_isProduct

/-- A text that ends in a closing bracket or a quote is finished. -/
theorem finished_of_closing {c : Char} (closing : c ∈ [')', ']', '}', '"']) (start : List Char)
    (read right : List Char) (mark : Char) :
    Form.comesAfterExponentMark ⟨(start ++ [c]).reverse ++ read, mark, right⟩ = false := by
  rw [List.reverse_append]
  apply not_comesAfterExponentMark_of_last
  simp only [List.mem_cons, List.not_mem_nil, or_false] at closing
  rcases closing with rfl | rfl | rfl | rfl <;> decide

/-- The outline of a text in quotes. -/
theorem quoted (inside : '"' ∉ text) : Outline 5 ('"' :: (text ++ ['"'])) := by
  apply of_quiet (Cut.quiet_quoted inside)
  · intro c rest _ _
    rw [List.cons_append]
    exact enclosed?_eq_none ['"'] (by decide) (by decide)
      (not_isCallable_of_first (by decide)) _
  · exact ⟨'"', text ++ ['"'], rfl, by decide, by decide⟩
  · exact ⟨'"' :: text, '"', rfl, by decide, by decide⟩
  · intro read mark right _
    exact finished_of_closing (by decide) ('"' :: text) read right mark

/-- The outline of a name with brackets after it. -/
theorem bracketed {name : List Char} (named : ∀ c ∈ name, Variable.isNameChar c = true)
    (balanced : Brackets.closed.scan text = some .closed) :
    Outline 5 (name ++ '(' :: (text ++ [')'])) := by
  have absent : '(' ∉ name := fun mem => absurd (named _ mem) (by decide)
  apply of_quiet ((quiet_of_isNameChar (fun _ => id) named).append (Cut.quiet_bracketed balanced))
  · intro c rest _ _
    exact enclosed?_of_bracketed absent balanced c rest
  · cases name with
    | nil => exact ⟨'(', text ++ [')'], rfl, by decide, by decide⟩
    | cons c rest =>
      have facts := Variable.not_special_of_isNameChar (named c (by simp))
      refine ⟨c, rest ++ '(' :: (text ++ [')']), rfl, facts.1, fun mem => facts.2 ?_⟩
      simp only [List.mem_cons, List.not_mem_nil, or_false] at mem ⊢
      tauto
  · exact ⟨name ++ '(' :: text, ')', by simp, by decide, by decide⟩
  · intro read mark right _
    have shape : name ++ '(' :: (text ++ [')']) = (name ++ '(' :: text) ++ [')'] := by simp
    rw [shape]
    exact finished_of_closing (by decide) (name ++ '(' :: text) read right mark

/-- The text of a suffix shows no operators. -/
theorem quiet_suffix {opening closing : Char} (marks : opening = '{' ∧ closing = '}' ∨
      opening = '[' ∧ closing = ']') (suffix : Option String)
    (plain : ∀ text, suffix = some text → IsPlain text.toList) :
    Cut.Quiet isOperator (Variable.suffixText opening closing suffix).toList := by
  cases suffix with
  | none => exact Cut.quiet_of_unmarked nofun
  | some text =>
    rw [Variable.suffixText, String.toList_ofList]
    have inside := plain text rfl
    rcases marks with ⟨rfl, rfl⟩ | ⟨rfl, rfl⟩
    · exact Cut.quiet_enclosed ⟨0, 0, 1, false⟩ rfl (by decide)
        (fun c mem => Brackets.step_plain (inside c mem) _) rfl
    · exact Cut.quiet_enclosed ⟨0, 1, 0, false⟩ rfl (by decide)
        (fun c mem => Brackets.step_plain (inside c mem) _) rfl

/-- The suffixes of a variable are nothing, or they stand between brackets. -/
theorem suffixes_cases (fallback subscript : Option String) :
    (Variable.suffixText '{' '}' fallback).toList ++
        (Variable.suffixText '[' ']' subscript).toList = [] ∨
      ∃ opening middle closing, (Variable.suffixText '{' '}' fallback).toList ++
          (Variable.suffixText '[' ']' subscript).toList = opening :: (middle ++ [closing]) ∧
        opening ∈ ['{', '['] ∧ closing ∈ [']', '}'] := by
  cases fallback with
  | none =>
    cases subscript with
    | none => exact .inl rfl
    | some text => exact .inr ⟨'[', text.toList, ']', by simp [Variable.suffixText], by decide,
        by decide⟩
  | some default =>
    cases subscript with
    | none => exact .inr ⟨'{', default.toList, '}', by simp [Variable.suffixText], by decide,
        by decide⟩
    | some text => exact .inr ⟨'{', default.toList ++ '}' :: '[' :: text.toList, ']',
        by simp [Variable.suffixText], by decide, by decide⟩

/-- The outline of an identifier with suffixes after it. -/
theorem word {name suffixes : List Char} (identifier : IsIdentifier name)
    (quiet : Cut.Quiet isOperator suffixes)
    (shape : suffixes = [] ∨ ∃ opening middle closing,
      suffixes = opening :: (middle ++ [closing]) ∧ opening ∈ ['{', '['] ∧ closing ∈ [']', '}']) :
    Outline 5 (name ++ suffixes) := by
  have named : ∀ c ∈ name, Variable.isNameChar c = true := fun c mem =>
    (isNameChar_of_isWordChar (identifier.all_isWordChar c mem)).1
  apply of_quiet ((quiet_of_isNameChar (fun _ => id) named).append quiet)
  case apart =>
    intro c rest unnamed other
    rcases shape with rfl | ⟨opening, middle, closing, rfl, opens, -⟩
    · rw [List.append_nil]
      exact identifier.enclosed?_eq_none unnamed other rest
    · have strange : Variable.isNameChar opening = false ∧ opening ≠ '(' := by
        simp only [List.mem_cons, List.not_mem_nil, or_false] at opens
        rcases opens with rfl | rfl <;> decide
      rw [List.append_assoc, List.cons_append]
      exact identifier.enclosed?_eq_none strange.1 strange.2 _
  case first =>
    obtain ⟨c, rest, rfl⟩ := List.exists_cons_of_ne_nil identifier.ne_nil
    have facts := Variable.not_special_of_isNameChar (named c (by simp))
    refine ⟨c, rest ++ suffixes, rfl, facts.1, fun mem => facts.2 ?_⟩
    simp only [List.mem_cons, List.not_mem_nil, or_false] at mem ⊢
    tauto
  case last =>
    rcases shape with rfl | ⟨opening, middle, closing, rfl, -, closes⟩
    · obtain ⟨rest, c, rfl⟩ := (List.eq_nil_or_concat' name).resolve_left identifier.ne_nil
      have facts := Variable.not_special_of_isNameChar (named c (by simp))
      refine ⟨rest, c, by simp, facts.1, fun mem => facts.2 ?_⟩
      simp only [List.mem_cons, List.not_mem_nil, or_false] at mem ⊢
      tauto
    · refine ⟨name ++ opening :: middle, closing, by simp, ?_⟩
      simp only [List.mem_cons, List.not_mem_nil, or_false] at closes
      rcases closes with rfl | rfl <;> decide
  case finished =>
    intro read mark right fresh
    rcases shape with rfl | ⟨opening, middle, closing, rfl, -, closes⟩
    · rw [List.append_nil]
      exact identifier.not_comesAfterExponentMark fresh mark right
    · have last : name ++ opening :: (middle ++ [closing]) =
          (name ++ opening :: middle) ++ [closing] := by simp
      rw [last]
      refine finished_of_closing ?_ _ read right mark
      exact List.mem_cons_of_mem _ (List.mem_append_left ['"'] closes)

/-- The outline of a variable. -/
theorem of_writable {v : Variable} (writable : IsWritable v) : Outline 5 v.text.toList := by
  rw [Variable.toList_text]
  exact word writable.name
    ((quiet_suffix (.inl ⟨rfl, rfl⟩) v.fallback writable.fallback).append
      (quiet_suffix (.inr ⟨rfl, rfl⟩) v.subscript writable.subscript))
    (suffixes_cases v.fallback v.subscript)

section Numerals

variable {mantissa exponent : List Char}

/-- A numeral shows no operators but signs. -/
theorem quiet_numeral (decimal : IsMantissa mantissa) (power : IsExponent exponent)
    {isMark : Char → Bool} (fewer : ∀ c, isMark c = true → isOperator c = true)
    (unsigned : isMark '+' = false ∧ isMark '-' = false) :
    Cut.Quiet isMark (mantissa ++ exponent) := by
  have named : Cut.Quiet isMark mantissa :=
    quiet_of_isNameChar fewer fun c mem => isNameChar_of_numeric (decimal.numeric c mem)
  apply named.append
  apply Cut.quiet_of_unmarked
  intro c mem
  rcases power.chars c mem with name | rfl | rfl
  · exact unmarked_of_isNameChar fewer name
  · exact ⟨unsigned.1, by decide⟩
  · exact ⟨unsigned.2, by decide⟩

/-- The sign of a numeral is the sign of its exponent. -/
theorem signs_numeral (decimal : IsMantissa mantissa) (power : IsExponent exponent)
    {read : List Char} (fresh : Fresh read) :
    ∀ cut ∈ Cut.closedCuts isSign .closed read (mantissa ++ exponent),
      Form.comesAfterExponentMark cut = true := by
  have named : ∀ c ∈ mantissa, Variable.isNameChar c = true := fun c mem =>
    isNameChar_of_numeric (decimal.numeric c mem)
  cases power with
  | none =>
    rw [List.append_nil, (quiet_of_isNameChar isOperator_of_isSign named).uncut]
    nofun
  | @some letter sign digits marked signed number =>
    have start : Cut.Quiet isSign (mantissa ++ [letter]) := by
      apply quiet_of_isNameChar isOperator_of_isSign
      intro c mem
      rcases List.mem_append.1 mem with mem | mem
      · exact named c mem
      · rw [List.mem_singleton.1 mem]
        rcases marked with rfl | rfl <;> decide
    have rest : Cut.Quiet isSign digits := quiet_of_isNameChar isOperator_of_isSign fun c mem =>
      (isNameChar_of_isWordChar (isWordChar_of_isDigit (List.all_eq_true.1 number.2 c mem))).1
    -- the only cut is at the sign, if there is one
    have signCut : ∀ c, isSign c = true → ∀ cut ∈ Cut.closedCuts isSign .closed
        ((mantissa ++ [letter]).reverse ++ read) (c :: digits),
        Form.comesAfterExponentMark cut = true := by
      intro c sign cut mem
      have plain : c ∉ ['"', '(', '[', '{', ')', ']', '}'] :=
        (not_special_of_operator (by simpa using isOperator_of_isSign c sign)).1
      rw [Cut.closedCuts_cons_of_mark sign plain, rest.uncut, List.mem_singleton] at mem
      rw [mem, List.reverse_append, List.append_assoc]
      exact decimal.comesAfterExponentMark marked fresh c digits
    have shape : mantissa ++ letter :: (sign ++ digits) =
        (mantissa ++ [letter]) ++ (sign ++ digits) := by simp
    rw [shape, start.closedCuts_append]
    rcases signed with rfl | rfl | rfl
    · rw [List.nil_append, rest.uncut]
      nofun
    · exact signCut '+' rfl
    · exact signCut '-' rfl

/-- A numeral starts with a digit or a point and ends in a digit. -/
theorem ends_numeral (decimal : IsMantissa mantissa) (power : IsExponent exponent) :
    (∃ c rest, mantissa ++ exponent = c :: rest ∧ (c.isDigit || decide (c = '.')) = true) ∧
      ∃ rest c, mantissa ++ exponent = rest ++ [c] ∧ c.isDigit = true := by
  obtain ⟨start, last, shape, digit⟩ := decimal.exists_last
  constructor
  · cases mantissa with
    | nil => simp at shape
    | cons c rest => exact ⟨c, rest ++ exponent, rfl, decimal.numeric c (by simp)⟩
  · rcases power.exists_last with rfl | ⟨rest, c, rfl, digit⟩
    · exact ⟨start, last, by simpa using shape, digit⟩
    · exact ⟨mantissa ++ rest, c, by simp, digit⟩

/-- The outline of a numeral. -/
theorem numeral (decimal : IsMantissa mantissa) (power : IsExponent exponent) :
    Outline 5 (mantissa ++ exponent) := by
  obtain ⟨⟨first, later, start, numeric⟩, ⟨earlier, last, ending, digit⟩⟩ :=
    ends_numeral decimal power
  have firstFacts := Variable.not_special_of_isNameChar (isNameChar_of_numeric numeric)
  have lastFacts := Variable.not_special_of_isNameChar
    (isNameChar_of_isWordChar (isWordChar_of_isDigit digit)).1
  have commas := quiet_numeral decimal power isOperator_of_isComma (by decide)
  have products := quiet_numeral decimal power isOperator_of_isProduct (by decide)
  constructor
  case balanced => exact commas.balanced
  case apart =>
    intro c rest _ _
    rw [start, List.cons_append]
    apply enclosed?_eq_none [first] (by simp)
    · rw [List.mem_singleton]
      rintro rfl
      cases numeric
    · exact not_isCallable_of_first (not_isAlpha_of_numeric numeric)
  case first =>
    refine ⟨first, later, start, firstFacts.1, fun mem => firstFacts.2 ?_⟩
    simp only [List.mem_cons, List.not_mem_nil, or_false] at mem ⊢
    tauto
  case last =>
    refine ⟨earlier, last, ending, lastFacts.1, fun mem => lastFacts.2 ?_⟩
    simp only [List.mem_cons, List.not_mem_nil, or_false] at mem ⊢
    tauto
  case finished =>
    intro read mark right _
    have other : last ≠ 'e' ∧ last ≠ 'E' := by
      constructor <;> rintro rfl <;> cases digit
    rw [ending, List.reverse_append]
    exact not_comesAfterExponentMark_of_last other _ right mark
  case commas => exact fun _ => commas
  case comparisons => exact fun _ => quiet_numeral decimal power isOperator_of_isComparison (by decide)
  case signs => exact fun _ read fresh => signs_numeral decimal power fresh
  case products =>
    intro _ read earlier
    rw [products.uncut]
    rfl
  case powers => exact fun _ => products

end Numerals

section Operators

variable {op : BinaryOp} {left before after right read : List Char}

/-- The characters of operators are no characters of names. -/
theorem unnamed_of_symbol (op : BinaryOp) :
    ∃ c rest, op.symbol.toList = c :: rest ∧ Variable.isNameChar c = false ∧ c ≠ '(' := by
  cases op <;> exact ⟨_, _, rfl, by decide, by decide⟩

/-- Blanks and an operator start with no character of a name and with no round bracket. -/
theorem gap_first (op : BinaryOp) (blank : IsBlank before) (after : List Char) : ∃ c rest,
    before ++ (op.symbol.toList ++ after) = c :: rest ∧ Variable.isNameChar c = false ∧ c ≠ '(' := by
  cases before with
  | nil =>
    obtain ⟨c, rest, symbol, unnamed, other⟩ := unnamed_of_symbol op
    exact ⟨c, rest ++ after, by rw [symbol]; rfl, unnamed, other⟩
  | cons c rest =>
    have facts := not_special_of_isBlank (blank c (by simp))
    refine ⟨c, rest ++ (op.symbol.toList ++ after), rfl, facts.2.2, ?_⟩
    rintro rfl
    exact facts.1 (by decide)

/-- What is read after an operator and blanks is fresh. -/
theorem gap_fresh (op : BinaryOp) (blank : IsBlank after) (read : List Char) :
    Fresh ((op.symbol.toList ++ after).reverse ++ read) := by
  rw [List.reverse_append, List.append_assoc]
  cases turned : after.reverse with
  | nil =>
    cases op <;> exact fresh_cons (by decide) _
  | cons c rest =>
    have mem : c ∈ after := List.mem_reverse.1 (turned ▸ List.mem_cons_self)
    exact fresh_cons (not_special_of_isBlank (blank c mem)).2.2 _

/-- Blanks and an operator with other marks show none of the marks. -/
theorem quiet_gap (op : BinaryOp) {isMark : Char → Bool} (fewer : ∀ c, isMark c = true → isOperator c = true)
    (before_ : IsBlank before) (after_ : IsBlank after)
    (unmarked : (op.symbol.toList.all fun c => !isMark c) = true) :
    Cut.Quiet isMark (before ++ (op.symbol.toList ++ after)) := by
  have symbol : Cut.Quiet isMark op.symbol.toList := by
    apply Cut.quiet_of_unmarked
    intro c mem
    constructor
    · simpa using List.all_eq_true.1 unmarked c mem
    · exact (not_special_of_operator (symbol_operators op c mem)).1
  exact (quiet_of_isBlank fewer before_).append (symbol.append (quiet_of_isBlank fewer after_))

/-- Two texts with an operator between them show none of the marks that they all do not show. -/
theorem quiet_binary {isMark : Char → Bool} (fewer : ∀ c, isMark c = true → isOperator c = true)
    (before_ : IsBlank before) (after_ : IsBlank after)
    (unmarked : (op.symbol.toList.all fun c => !isMark c) = true)
    (first : Cut.Quiet isMark left) (second : Cut.Quiet isMark right) :
    Cut.Quiet isMark (binaryText op left before after right) :=
  first.append ((quiet_gap op fewer before_ after_ unmarked).append second)

/-- The signs in two texts with an operator between them that is no sign. -/
theorem signs_binary (before_ : IsBlank before) (after_ : IsBlank after)
    (unsigned : (op.symbol.toList.all fun c => !isSign c) = true)
    (first : Outline 3 left) (second : Outline 3 right) (fresh : Fresh read) :
    ∀ cut ∈ Cut.closedCuts isSign .closed read (binaryText op left before after right),
      Form.comesAfterExponentMark cut = true := by
  intro cut mem
  have gap := quiet_gap op isOperator_of_isSign before_ after_ unsigned
  rw [binaryText, Cut.closedCuts_append first.balanced, gap.closedCuts_append] at mem
  rcases List.mem_append.1 mem with mem | mem
  · obtain ⟨cut', mem', rfl⟩ := List.mem_map.1 mem
    exact first.signs (by omega) read fresh cut' mem'
  · refine second.signs (by omega) _ ?_ cut mem
    rw [List.reverse_append, List.append_assoc]
    exact gap_fresh op after_ _

/-- The cuts of two texts with an operator of one marked character between them. -/
theorem closedCuts_binary {isMark : Char → Bool} (fewer : ∀ c, isMark c = true → isOperator c = true)
    {c : Char} (symbol : op.symbol.toList = [c]) (marked : isMark c = true)
    (before_ : IsBlank before) (after_ : IsBlank after)
    (balanced : Brackets.closed.scan left = some .closed) :
    Cut.closedCuts isMark .closed read (binaryText op left before after right) =
      (Cut.closedCuts isMark .closed read left).map
          (Cut.extend · ((before ++ (op.symbol.toList ++ after)) ++ right)) ++
        ⟨before.reverse ++ (left.reverse ++ read), c, after ++ right⟩ ::
          Cut.closedCuts isMark .closed
            (after.reverse ++ c :: (before.reverse ++ (left.reverse ++ read))) right := by
  have plain : c ∉ ['"', '(', '[', '{', ')', ']', '}'] :=
    (not_special_of_operator (by simpa using fewer c marked)).1
  have shape : (before ++ (op.symbol.toList ++ after)) ++ right = before ++ c :: (after ++ right) := by
    simp [symbol]
  rw [binaryText, Cut.closedCuts_append balanced, shape, (quiet_of_isBlank fewer before_).closedCuts_append,
    Cut.closedCuts_cons_of_mark marked plain, (quiet_of_isBlank fewer after_).closedCuts_append]

/-- The cuts of two texts with the sign of a power between them. -/
theorem closedCuts_power {isMark : Char → Bool} (fewer : ∀ c, isMark c = true → isOperator c = true)
    (marked : isMark '*' = true) (before_ : IsBlank before) (after_ : IsBlank after)
    (first : Cut.Quiet isMark left) :
    Cut.closedCuts isMark .closed read (binaryText .pow left before after right) =
      ⟨before.reverse ++ (left.reverse ++ read), '*', '*' :: (after ++ right)⟩ ::
        ⟨'*' :: (before.reverse ++ (left.reverse ++ read)), '*', after ++ right⟩ ::
          Cut.closedCuts isMark .closed
            (after.reverse ++ '*' :: '*' :: (before.reverse ++ (left.reverse ++ read))) right := by
  have shape : (before ++ (BinaryOp.pow.symbol.toList ++ after)) ++ right =
      before ++ '*' :: '*' :: (after ++ right) := by simp [BinaryOp.symbol]
  rw [binaryText, shape, first.closedCuts_append, (quiet_of_isBlank fewer before_).closedCuts_append,
    Cut.closedCuts_cons_of_mark marked (by decide), Cut.closedCuts_cons_of_mark marked (by decide),
    (quiet_of_isBlank fewer after_).closedCuts_append]

/-- The stars of a power are passed over. -/
theorem products_power (before_ : IsBlank before) (after_ : IsBlank after)
    (first : Outline 5 left) (second : Outline 4 right) (earlier : List Cut) :
    Form.ofProducts ((Cut.closedCuts isProduct .closed read
        (binaryText .pow left before after right)).reverse ++ earlier) = Form.ofProducts earlier := by
  rw [closedCuts_power isOperator_of_isProduct rfl before_ after_ (first.powers (by omega)),
    List.reverse_cons, List.reverse_cons, List.append_assoc, List.append_assoc,
    second.products (by omega)]
  rfl

/-- The outline of two texts with an operator between them. -/
theorem binary (op : BinaryOp) (operator : op ≠ .assign) (before_ : IsBlank before) (after_ : IsBlank after)
    (first : Outline op.leftLevel left) (second : Outline op.rightLevel right) :
    Outline op.level (binaryText op left before after right) := by
  have here := first.of_le op.level_le.1
  have there := second.of_le op.level_le.2
  constructor
  case balanced =>
    have gap : Cut.Quiet (fun _ => false) (before ++ (op.symbol.toList ++ after)) :=
      quiet_gap op nofun before_ after_ (by simp)
    rw [binaryText, Brackets.scan_append_of first.balanced, Brackets.scan_append_of gap.balanced]
    exact second.balanced
  case apart =>
    intro c rest _ _
    obtain ⟨d, later, shape, unnamed, other⟩ := gap_first op before_ after
    rw [binaryText, shape, List.append_assoc, List.cons_append]
    exact first.apart d _ unnamed other
  case first =>
    obtain ⟨c, rest, rfl, facts⟩ := first.first
    exact ⟨c, _, rfl, facts⟩
  case last =>
    obtain ⟨rest, c, rfl, facts⟩ := second.last
    exact ⟨binaryText op left before after rest, c, by simp [binaryText], facts⟩
  case finished =>
    intro read mark rest _
    rw [binaryText, List.reverse_append, List.reverse_append, List.append_assoc, List.append_assoc]
    apply second.finished
    rw [List.reverse_append, List.append_assoc]
    exact gap_fresh op after_ _
  case commas =>
    intro least
    exact quiet_binary isOperator_of_isComma before_ after_ (by cases op <;> simp_all +decide)
      (here.commas least) (there.commas least)
  case comparisons =>
    intro least
    exact quiet_binary isOperator_of_isComparison before_ after_ (by cases op <;> simp_all +decide)
      (here.comparisons least) (there.comparisons least)
  case signs =>
    intro least read fresh
    exact signs_binary before_ after_ (by cases op <;> simp_all +decide) (here.of_le least)
      (there.of_le least) fresh
  case products =>
    intro least read earlier
    cases op <;> first | exact absurd least (by decide) | skip
    exact products_power before_ after_ first second earlier
  case powers =>
    intro least
    exact absurd least (by cases op <;> decide)

end Operators

end Outline

/-- What is known of the text of a written tree. -/
theorem Written.outline {level : Nat} {e : Expr} {text : List Char} (written : Written level e text) :
    Outline level text := by
  induction written with
  | var writable => exact .of_writable writable
  | numeral decimal power => exact .numeral decimal power
  | quoted inside => exact .quoted inside
  | call callable _ ih => exact .bracketed callable.named ih.balanced
  | combine _ _ _ ih =>
    have named : ("combine".toList.all Variable.isNameChar) = true := by decide +kernel
    exact .bracketed (List.all_eq_true.1 named) ih.balanced
  | bracketed _ ih => exact @Outline.bracketed _ [] nofun ih.balanced
  | binary operator _ _ blank blank' first second => exact .binary _ operator blank blank' first second
  | looser le _ ih => exact ih.of_le le

end Shadeloom.Source
