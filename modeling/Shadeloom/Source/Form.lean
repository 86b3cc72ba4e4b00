import Shadeloom.Expr.Basic
import Shadeloom.Function
import Shadeloom.Source.Brackets
import Shadeloom.Text.Letters
/-!
# How a text falls apart

The loosest operator of a text that stands outside all brackets decides its form. From loose to
tight: brackets around the whole text, the first comma, the first comparison or `=`, the last sign
between operands, a leading sign, the last `*` or `/`, the first `**`; what has none of these is
an atom. A place counts only if the text on both of its sides is balanced. The pieces of a form
are shorter than the text, and they are balanced if the text is.
-/
namespace Shadeloom

/-- A place in a text: the text before it, last character first, the character there, and the text
after it. -/
structure Cut where
  before : List Char
  mark : Char
  right : List Char
  deriving Repr, DecidableEq

namespace Cut

/-- The text before a place. -/
def left (cut : Cut) : List Char :=
  cut.before.reverse

/-- The places of marked characters, themselves no brackets, at which everything is closed, first
to last. The state is that of the text read so far, which is kept last character first. -/
def closedCuts (isMark : Char → Bool) : Brackets → List Char → List Char → List Cut
  | _, _, [] => []
  | state, read, c :: rest =>
    let later :=
      match state.step c with
      | none => []
      | some next => closedCuts isMark next (c :: read) rest
    if isMark c && state = Brackets.closed && state.step c = some state then
      ⟨read, c, rest⟩ :: later
    else later

/-- The places of marked characters between two balanced texts, first to last. -/
def splits (isMark : Char → Bool) (text : List Char) : List Cut :=
  if Brackets.isBalanced text then closedCuts isMark Brackets.closed [] text else []

/-- A place where everything is closed cuts the text, and the text before it is balanced. -/
theorem of_mem_closedCuts {isMark : Char → Bool} {state : Brackets} {read text : List Char}
    {cut : Cut} (read_state : Brackets.closed.scan read.reverse = some state)
    (mem : cut ∈ closedCuts isMark state read text) :
    read.reverse ++ text = cut.left ++ cut.mark :: cut.right ∧ isMark cut.mark = true ∧
      Brackets.isBalanced cut.left = true ∧
      Brackets.closed.step cut.mark = some Brackets.closed := by
  induction text generalizing state read with
  | nil => simp [closedCuts] at mem
  | cons c rest ih =>
    have tail : ∀ {cuts}, cuts = (match state.step c with
        | none => []
        | some next => closedCuts isMark next (c :: read) rest) → cut ∈ cuts →
        read.reverse ++ c :: rest = cut.left ++ cut.mark :: cut.right ∧ isMark cut.mark = true ∧
          Brackets.isBalanced cut.left = true ∧
          Brackets.closed.step cut.mark = some Brackets.closed := by
      intro cuts defn here
      subst defn
      split at here
      · simp at here
      · rename_i next step
        have scanned : Brackets.closed.scan (c :: read).reverse = some next := by
          simp [Brackets.scan_append, read_state, Brackets.scan, step]
        simpa using ih scanned here
    simp only [closedCuts] at mem
    split at mem
    · rename_i test
      simp only [Bool.and_eq_true, decide_eq_true_eq] at test
      rcases List.mem_cons.1 mem with first | later
      · subst first
        obtain ⟨⟨marked, here⟩, plain⟩ := test
        subst here
        exact ⟨rfl, marked, Brackets.isBalanced_iff.2 read_state, plain⟩
      · exact tail rfl later
    · exact tail rfl mem

/-- A split cuts the text at a marked character between balanced texts. -/
theorem of_mem_splits {isMark : Char → Bool} {text : List Char} {cut : Cut}
    (mem : cut ∈ splits isMark text) :
    text = cut.left ++ cut.mark :: cut.right ∧ isMark cut.mark = true ∧
      Brackets.isBalanced cut.left = true ∧ Brackets.isBalanced cut.right = true := by
  have start : Brackets.closed.scan ([] : List Char).reverse = some Brackets.closed := rfl
  unfold splits at mem
  split at mem
  · rename_i balanced
    obtain ⟨shape, mark, left, plain⟩ := of_mem_closedCuts start mem
    rw [List.reverse_nil, List.nil_append] at shape
    refine ⟨shape, mark, left, ?_⟩
    rw [shape, Brackets.isBalanced_append left, Brackets.isBalanced_iff, Brackets.scan, plain]
      at balanced
    exact Brackets.isBalanced_iff.2 balanced
  · simp at mem

end Cut

/-- The form of a text that is not blank at its ends. -/
inductive Form where
  | blank
  | bracketed (interior : List Char)
  | call (name interior : List Char)
  | equal (left right : List Char)
  | atLeast (left right : List Char)
  | atMost (left right : List Char)
  | operation (op : BinaryOp) (left right : List Char)
  | negated (rest : List Char)
  | unsigned (rest : List Char)
  | atom (text : List Char)
  deriving Repr, DecidableEq

namespace Form

/-- The texts that a form leaves to be read. -/
def pieces : Form → List (List Char)
  | blank => []
  | bracketed interior => [interior]
  | call _ interior => [interior]
  | equal left right => [left, right]
  | atLeast left right => [left, right]
  | atMost left right => [left, right]
  | operation _ left right => [left, right]
  | negated rest => [rest]
  | unsigned rest => [rest]
  | atom _ => []

/-- Brackets around the whole text, alone or after a callable name. -/
def enclosed? (text : List Char) : Option Form :=
  if text.getLast? = some ')' then
    match Text.splitAtFirst? '(' text with
    | none => none
    | some (name, rest) =>
      if (name = [] || Function.isCallable (String.ofList name)) &&
          Brackets.isBalanced rest.dropLast then
        some (if name = [] then bracketed rest.dropLast else call name rest.dropLast)
      else none
  else none

/-- The first comma that is not the last character. -/
def atComma? (text : List Char) : Option Form :=
  ((Cut.splits (· = ',') text).find? fun cut => cut.right ≠ []).map fun cut =>
    operation .comma cut.left cut.right

/-- The form of a text at a comparison or `=`, which takes a `=` directly after it along. -/
def ofComparison (cut : Cut) : Form :=
  match cut.mark, cut.right with
  | '=', '=' :: right => equal cut.left right
  | '>', '=' :: right => atLeast cut.left right
  | '<', '=' :: right => atMost cut.left right
  | '>', right => operation .gt cut.left right
  | '<', right => operation .lt cut.left right
  | _, right => operation .assign cut.left right

/-- The first comparison or `=` that is not the last character. -/
def atComparison? (text : List Char) : Option Form :=
  ((Cut.splits (fun c => c = '=' || c = '>' || c = '<') text).find? fun cut =>
    cut.right ≠ []).map ofComparison

/-- Whether the text before a place ends in an operator that still waits for its right operand. -/
def comesAfterOperator (cut : Cut) : Bool :=
  match cut.before.dropWhile Text.isBlank with
  | c :: _ => c = '*' || c = '/' || c = '(' || c = '+' || c = '-'
  | [] => false

/-- Whether the text before a place ends in a numeral with an exponent mark, such as `2e`, which is
not the end of a name. -/
def comesAfterExponentMark (cut : Cut) : Bool :=
  match cut.before with
  | mark :: before =>
    (mark = 'e' || mark = 'E') &&
      ((before.takeWhile fun c => c.isDigit || c = '.').any Char.isDigit) &&
      match before.dropWhile fun c => c.isDigit || c = '.' with
      | [] => true
      | c :: _ => !(Text.isAlphanumeric c || c = '_')
  | [] => false

/-- Whether a sign stands between two operands. -/
def isBetweenOperands (cut : Cut) : Bool :=
  cut.before ≠ [] && !comesAfterOperator cut && !comesAfterExponentMark cut

/-- The last sign between two operands. -/
def atSign? (text : List Char) : Option Form :=
  ((Cut.splits (fun c => c = '+' || c = '-') text).reverse.find? isBetweenOperands).map fun cut =>
    operation (if cut.mark = '+' then .add else .sub) cut.left cut.right

/-- A sign at the start. -/
def leadingSign? : List Char → Option Form
  | '-' :: rest => some (negated rest)
  | '+' :: rest => some (unsigned rest)
  | _ => none

/-- Whether a place is the second half of `**`. -/
def isSecondStar (cut : Cut) : Bool :=
  cut.mark = '*' && cut.before.head? = some '*'

/-- The form at the first of the places that is not a half of `**`; the places are those of `*`
and `/`, last to first. -/
def ofProducts : List Cut → Option Form
  | [] => none
  | [cut] => if isSecondStar cut then none else some (ofProduct cut)
  | cut :: _ :: rest => if isSecondStar cut then ofProducts rest else some (ofProduct cut)
where
  /-- The form at a `*` or `/`. -/
  ofProduct (cut : Cut) : Form :=
    operation (if cut.mark = '*' then .mul else .div) cut.left cut.right

/-- The last `*` or `/`. -/
def atProduct? (text : List Char) : Option Form :=
  ofProducts (Cut.splits (fun c => c = '*' || c = '/') text).reverse

/-- The form at the first of the places that begins `**`. -/
def ofPowers : List Cut → Option Form
  | [] => none
  | cut :: rest =>
    match cut.right with
    | '*' :: right => some (operation .pow cut.left right)
    | _ => ofPowers rest

/-- The first `**`. -/
def atPower? (text : List Char) : Option Form :=
  ofPowers (Cut.splits (· = '*') text)

/-- The form of a text that is not blank at its ends. -/
def ofChars (text : List Char) : Form :=
  if text = [] then blank
  else
    (enclosed? text <|> atComma? text <|> atComparison? text <|> atSign? text <|>
      leadingSign? text <|> atProduct? text <|> atPower? text).getD (atom text)

/-- The pieces at a cut are shorter than the text. -/
theorem length_lt_of_split {isMark : Char → Bool} {text : List Char} {cut : Cut}
    (mem : cut ∈ Cut.splits isMark text) :
    cut.left.length < text.length ∧ cut.right.length < text.length := by
  obtain ⟨shape, _⟩ := Cut.of_mem_splits mem
  have := congrArg List.length shape
  simp only [List.length_append, List.length_cons] at this
  omega

/-- Taking the text after the first occurrence of a character makes a text shorter. -/
theorem length_lt_of_splitAtFirst? {mark : Char} {text before after : List Char}
    (found : Text.splitAtFirst? mark text = some (before, after)) :
    after.length < text.length := by
  unfold Text.splitAtFirst? at found
  have whole : (text.dropWhile fun c => decide (c ≠ mark)).length ≤ text.length :=
    (List.dropWhile_sublist _).length_le
  split at found
  · simp at found
  · rename_i c rest shape
    simp only [Option.some.injEq, Prod.mk.injEq] at found
    rw [shape, found.2, List.length_cons] at whole
    omega

/-- The interior of enclosing brackets is shorter than the text. -/
theorem enclosed?_shorter {text : List Char} {form : Form} (found : enclosed? text = some form) :
    ∀ piece ∈ form.pieces, piece.length < text.length := by
  unfold enclosed? at found
  split at found
  · split at found
    · simp at found
    · rename_i name rest first
      have short := length_lt_of_splitAtFirst? first
      split at found
      · simp only [Option.some.injEq] at found
        subst found
        intro piece mem
        split at mem <;> simp only [pieces, List.mem_singleton] at mem <;> subst mem <;>
          simp only [List.length_dropLast] <;> omega
      · simp at found
  · simp at found

/-- The sides of a comma are shorter than the text. -/
theorem atComma?_shorter {text : List Char} {form : Form} (found : atComma? text = some form) :
    ∀ piece ∈ form.pieces, piece.length < text.length := by
  obtain ⟨cut, hit, rfl⟩ := Option.map_eq_some_iff.1 found
  have short := length_lt_of_split (List.mem_of_find?_eq_some hit)
  simp only [pieces, List.mem_cons, List.not_mem_nil, or_false]
  rintro piece (rfl | rfl)
  · exact short.1
  · exact short.2

/-- The sides of a comparison are no longer than the texts before and after its first character. -/
theorem ofComparison_pieces (cut : Cut) :
    ∀ piece ∈ (ofComparison cut).pieces,
      piece.length ≤ cut.left.length ∨ piece.length ≤ cut.right.length := by
  intro piece mem
  unfold ofComparison at mem
  split at mem <;> simp only [pieces, List.mem_cons, List.not_mem_nil, or_false] at mem <;>
    rcases mem with rfl | rfl <;> simp_all

/-- The sides of a comparison are shorter than the text. -/
theorem atComparison?_shorter {text : List Char} {form : Form}
    (found : atComparison? text = some form) :
    ∀ piece ∈ form.pieces, piece.length < text.length := by
  obtain ⟨cut, hit, rfl⟩ := Option.map_eq_some_iff.1 found
  have short := length_lt_of_split (List.mem_of_find?_eq_some hit)
  intro piece mem
  rcases ofComparison_pieces cut piece mem with left | right <;> omega

/-- The sides of a sign are shorter than the text. -/
theorem atSign?_shorter {text : List Char} {form : Form} (found : atSign? text = some form) :
    ∀ piece ∈ form.pieces, piece.length < text.length := by
  obtain ⟨cut, hit, rfl⟩ := Option.map_eq_some_iff.1 found
  have mem := List.mem_of_find?_eq_some hit
  have short := length_lt_of_split (List.mem_reverse.1 mem)
  simp only [pieces, List.mem_cons, List.not_mem_nil, or_false]
  rintro piece (rfl | rfl)
  · exact short.1
  · exact short.2

/-- What follows a leading sign is shorter than the text. -/
theorem leadingSign?_shorter {text : List Char} {form : Form}
    (found : leadingSign? text = some form) :
    ∀ piece ∈ form.pieces, piece.length < text.length := by
  unfold leadingSign? at found
  split at found
  · cases found; simp [pieces]
  · cases found; simp [pieces]
  · simp at found

/-- A form at `*` or `/` is the form at one of the places. -/
theorem of_ofProducts {cuts : List Cut} {form : Form} (found : ofProducts cuts = some form) :
    ∃ cut ∈ cuts, form = ofProducts.ofProduct cut := by
  fun_induction ofProducts cuts with
  | case1 => simp at found
  | case2 cut _ => simp at found
  | case3 cut _ => exact ⟨cut, by simp, (Option.some.inj found).symm⟩
  | case4 cut next rest _ ih =>
    obtain ⟨hit, mem, shape⟩ := ih found
    exact ⟨hit, by simp [mem], shape⟩
  | case5 cut next rest _ => exact ⟨cut, by simp, (Option.some.inj found).symm⟩

/-- The sides of a `*` or `/` are shorter than the text. -/
theorem atProduct?_shorter {text : List Char} {form : Form}
    (found : atProduct? text = some form) :
    ∀ piece ∈ form.pieces, piece.length < text.length := by
  obtain ⟨cut, mem, rfl⟩ := of_ofProducts found
  have short := length_lt_of_split (List.mem_reverse.1 mem)
  simp only [ofProducts.ofProduct, pieces, List.mem_cons, List.not_mem_nil, or_false]
  rintro piece (rfl | rfl)
  · exact short.1
  · exact short.2

/-- A form at `**` is the form at one of the places. -/
theorem of_ofPowers {cuts : List Cut} {form : Form} (found : ofPowers cuts = some form) :
    ∃ cut ∈ cuts, ∃ right, cut.right = '*' :: right ∧ form = operation .pow cut.left right := by
  induction cuts with
  | nil => simp [ofPowers] at found
  | cons cut rest ih =>
    unfold ofPowers at found
    split at found
    · rename_i right shape
      exact ⟨cut, by simp, right, shape, (Option.some.inj found).symm⟩
    · obtain ⟨hit, mem, right, shape, eq⟩ := ih found
      exact ⟨hit, by simp [mem], right, shape, eq⟩

/-- The sides of a `**` are shorter than the text. -/
theorem atPower?_shorter {text : List Char} {form : Form} (found : atPower? text = some form) :
    ∀ piece ∈ form.pieces, piece.length < text.length := by
  obtain ⟨cut, mem, right, shape, rfl⟩ := of_ofPowers found
  have short := length_lt_of_split mem
  rw [shape] at short
  simp only [List.length_cons] at short
  simp only [pieces, List.mem_cons, List.not_mem_nil, or_false]
  rintro piece (rfl | rfl)
  · exact short.1
  · omega

/-- Every piece of a form is shorter than the text. -/
theorem length_lt_of_mem_pieces {text piece : List Char} (mem : piece ∈ (ofChars text).pieces) :
    piece.length < text.length := by
  unfold ofChars at mem
  split at mem
  · simp [pieces] at mem
  · simp only [Option.orElse_eq_orElse, Option.orElse_eq_or] at mem
    cases enclosed : enclosed? text with
    | some form => simp only [enclosed, Option.some_or, Option.getD_some] at mem
                   exact enclosed?_shorter enclosed piece mem
    | none =>
    cases comma : atComma? text with
    | some form => simp only [enclosed, comma, Option.none_or, Option.some_or,
                     Option.getD_some] at mem
                   exact atComma?_shorter comma piece mem
    | none =>
    cases comparison : atComparison? text with
    | some form => simp only [enclosed, comma, comparison, Option.none_or, Option.some_or,
                     Option.getD_some] at mem
                   exact atComparison?_shorter comparison piece mem
    | none =>
    cases sign : atSign? text with
    | some form => simp only [enclosed, comma, comparison, sign, Option.none_or, Option.some_or,
                     Option.getD_some] at mem
                   exact atSign?_shorter sign piece mem
    | none =>
    cases leading : leadingSign? text with
    | some form => simp only [enclosed, comma, comparison, sign, leading, Option.none_or,
                     Option.some_or, Option.getD_some] at mem
                   exact leadingSign?_shorter leading piece mem
    | none =>
    cases product : atProduct? text with
    | some form => simp only [enclosed, comma, comparison, sign, leading, product,
                     Option.none_or, Option.some_or, Option.getD_some] at mem
                   exact atProduct?_shorter product piece mem
    | none =>
    cases power : atPower? text with
    | some form => simp only [enclosed, comma, comparison, sign, leading, product, power,
                     Option.none_or, Option.getD_some] at mem
                   exact atPower?_shorter power piece mem
    | none => simp [enclosed, comma, comparison, sign, leading, product, power, pieces] at mem

end Form

end Shadeloom
