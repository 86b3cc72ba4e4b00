import Mathlib
import Shadeloom.Proofs.Source.Suffixes
import Shadeloom.Proofs.Source.Writing
/-!
# Words of written trees

What the words of a written tree do not look like: a word is no operator, an identifier does not end
in the mark of an exponent, and only the name of a call can be called.
-/
namespace Shadeloom.Source

/-- Whether a character is a comma. -/
abbrev isComma (c : Char) : Bool := c = ','

/-- Whether a character starts a comparison or is the sign of an assignment. -/
abbrev isComparison (c : Char) : Bool := c = '=' || c = '>' || c = '<'

/-- Whether a character is a sign. -/
abbrev isSign (c : Char) : Bool := c = '+' || c = '-'

/-- Whether a character is a star or a slash. -/
abbrev isProduct (c : Char) : Bool := c = '*' || c = '/'

/-- Whether a character is a star. -/
abbrev isStar (c : Char) : Bool := c = '*'

/-- Whether a character belongs to an operator. -/
abbrev isOperator (c : Char) : Bool := c ∈ operators

/-- Commas belong to operators. -/
theorem isOperator_of_isComma (c : Char) (mark : isComma c = true) : isOperator c = true := by
  simp only [decide_eq_true_eq] at mark
  subst mark
  decide

/-- Comparisons belong to operators. -/
theorem isOperator_of_isComparison (c : Char) (mark : isComparison c = true) :
    isOperator c = true := by
  simp only [Bool.or_eq_true, decide_eq_true_eq] at mark
  rcases mark with (rfl | rfl) | rfl <;> decide

/-- Signs belong to operators. -/
theorem isOperator_of_isSign (c : Char) (mark : isSign c = true) : isOperator c = true := by
  simp only [Bool.or_eq_true, decide_eq_true_eq] at mark
  rcases mark with rfl | rfl <;> decide

/-- Stars and slashes belong to operators. -/
theorem isOperator_of_isProduct (c : Char) (mark : isProduct c = true) : isOperator c = true := by
  simp only [Bool.or_eq_true, decide_eq_true_eq] at mark
  rcases mark with rfl | rfl <;> decide

/-- Stars are stars or slashes. -/
theorem isProduct_of_isStar (c : Char) (mark : isStar c = true) : isProduct c = true := by
  simp only [decide_eq_true_eq] at mark
  subst mark
  decide

section Quiet

variable {isMark : Char → Bool} (fewer : ∀ c, isMark c = true → isOperator c = true)
include fewer

/-- Blanks are no marks of operators and no brackets. -/
theorem unmarked_of_isBlank {c : Char} (blank : Text.isBlank c = true) :
    isMark c = false ∧ c ∉ ['"', '(', '[', '{', ')', ']', '}'] := by
  have facts := not_special_of_isBlank blank
  constructor
  · by_contra marked
    rw [Bool.not_eq_false] at marked
    exact facts.2.1 (by simpa using fewer c marked)
  · exact facts.1

/-- Characters of names are no marks of operators and no brackets. -/
theorem unmarked_of_isNameChar {c : Char} (named : Variable.isNameChar c = true) :
    isMark c = false ∧ c ∉ ['"', '(', '[', '{', ')', ']', '}'] := by
  constructor
  · by_contra marked
    rw [Bool.not_eq_false] at marked
    have unnamed := (not_special_of_operator (by simpa using fewer c marked)).2.2
    rw [named] at unnamed
    cases unnamed
  · exact Variable.plain_of_isNameChar named

/-- Blanks are quiet for the marks of operators. -/
theorem quiet_of_isBlank {text : List Char} (blank : IsBlank text) : Cut.Quiet isMark text :=
  Cut.quiet_of_unmarked fun c mem => unmarked_of_isBlank fewer (blank c mem)

/-- Characters of names are quiet for the marks of operators. -/
theorem quiet_of_isNameChar {text : List Char}
    (named : ∀ c ∈ text, Variable.isNameChar c = true) : Cut.Quiet isMark text :=
  Cut.quiet_of_unmarked fun c mem => unmarked_of_isNameChar fewer (named c mem)

end Quiet

/-- Whether a text that was read does not end in a character of an identifier. -/
def Fresh (read : List Char) : Prop :=
  ∀ c ∈ read.head?, isWordChar c = false

/-- Nothing was read. -/
theorem fresh_nil : Fresh [] := nofun

/-- What ends in no character of a name is fresh. -/
theorem fresh_cons {c : Char} (unnamed : Variable.isNameChar c = false) (read : List Char) :
    Fresh (c :: read) := by
  intro other last
  cases last
  by_contra word
  rw [Bool.not_eq_false] at word
  rw [(isNameChar_of_isWordChar word).1] at unnamed
  cases unnamed

/-- Digits are characters of identifiers. -/
theorem isWordChar_of_isDigit {c : Char} (digit : c.isDigit = true) : isWordChar c = true := by
  simp [isWordChar, Text.alphanumeric_of_digit digit]

/-- No digits and points stand at the end of what is fresh. -/
theorem Fresh.takeWhile_eq {read : List Char} (fresh : Fresh read) :
    (read.takeWhile fun c => c.isDigit || c = '.') = [] ∧
      (read.dropWhile fun c => c.isDigit || c = '.') = read := by
  cases read with
  | nil => exact ⟨rfl, rfl⟩
  | cons c rest =>
    have strange := fresh c rfl
    have no : (c.isDigit || decide (c = '.')) = false := by
      by_contra numeric
      rw [Bool.not_eq_false, Bool.or_eq_true, decide_eq_true_eq] at numeric
      rcases numeric with digit | rfl
      · rw [isWordChar_of_isDigit digit] at strange
        cases strange
      · cases strange
    constructor
    · rw [List.takeWhile_cons, no]
      rfl
    · rw [List.dropWhile_cons, no]
      rfl

/-- A text that ends in no exponent mark is none. -/
theorem not_comesAfterExponentMark_of_last {c : Char} (last : c ≠ 'e' ∧ c ≠ 'E')
    (read right : List Char) (mark : Char) :
    Form.comesAfterExponentMark ⟨c :: read, mark, right⟩ = false := by
  unfold Form.comesAfterExponentMark
  simp [last.1, last.2]

/-- An identifier has characters. -/
theorem IsIdentifier.ne_nil {name : List Char} (identifier : IsIdentifier name) : name ≠ [] := by
  cases identifier <;> exact List.cons_ne_nil _ _

/-- Before the digits and points at the end of an identifier a letter or an underscore stands. -/
theorem dropWhile_word {c : Char} (letter : Text.isAlphabetic c = true) (read : List Char)
    {word : List Char} (wordy : ∀ d ∈ word, isWordChar d = true) :
    ∃ d rest, ((word ++ c :: read).dropWhile fun d => d.isDigit || d = '.') = d :: rest ∧
      (Text.isAlphanumeric d || d = '_') = true := by
  induction word with
  | nil =>
    have point : c ≠ '.' := by
      rintro rfl
      cases letter
    refine ⟨c, read, ?_, by simp [Text.isAlphanumeric, letter]⟩
    simp [Text.not_digit_of_alphabetic letter, point]
  | cons d rest ih =>
    by_cases numeric : (d.isDigit || decide (d = '.')) = true
    · rw [List.cons_append, List.dropWhile_cons, if_pos numeric]
      exact ih fun other mem => wordy other (by simp [mem])
    · rw [List.cons_append, List.dropWhile_cons, if_neg numeric]
      refine ⟨d, rest ++ c :: read, rfl, ?_⟩
      have here := wordy d (by simp)
      simp only [isWordChar, Bool.or_eq_true, decide_eq_true_eq] at here numeric ⊢
      tauto

/-- A letter with characters of identifiers after it does not end in the mark of an exponent. -/
theorem not_comesAfterExponentMark_of_letter {c : Char} (letter : Text.isAlphabetic c = true)
    {word : List Char} (wordy : word.all isWordChar = true) {read : List Char}
    (apart : (read.takeWhile fun d => d.isDigit || d = '.') = []) (mark : Char)
    (right : List Char) :
    Form.comesAfterExponentMark ⟨word.reverse ++ c :: read, mark, right⟩ = false := by
  have turnedWordy : ∀ d ∈ word.reverse, isWordChar d = true := fun d mem =>
    List.all_eq_true.1 wordy d (List.mem_reverse.1 mem)
  unfold Form.comesAfterExponentMark
  cases turned : word.reverse with
  | nil => simp [apart]
  | cons last before =>
    rw [turned] at turnedWordy
    obtain ⟨d, later, shape, alphanumeric⟩ :=
      dropWhile_word letter read fun d mem => turnedWordy d (List.mem_cons_of_mem _ mem)
    simp only [List.cons_append, shape, alphanumeric, Bool.not_true, Bool.and_false]

/-- An identifier does not end in the mark of an exponent. -/
theorem IsIdentifier.not_comesAfterExponentMark {name : List Char} (identifier : IsIdentifier name)
    {read : List Char} (fresh : Fresh read) (mark : Char) (right : List Char) :
    Form.comesAfterExponentMark ⟨name.reverse ++ read, mark, right⟩ = false := by
  cases identifier with
  | shown letter word =>
    rw [List.reverse_cons, List.append_assoc]
    exact not_comesAfterExponentMark_of_letter letter word fresh.takeWhile_eq.1 mark right
  | hidden letter word =>
    rw [List.reverse_cons, List.reverse_cons, List.append_assoc, List.append_assoc]
    exact not_comesAfterExponentMark_of_letter letter word rfl mark right

/-- Digits end in a digit. -/
theorem IsDigits.exists_last {text : List Char} (digits : IsDigits text) :
    ∃ start c, text = start ++ [c] ∧ c.isDigit = true := by
  obtain ⟨start, c, rfl⟩ := (List.eq_nil_or_concat' text).resolve_left digits.1
  exact ⟨start, c, rfl, List.all_eq_true.1 digits.2 c (by simp)⟩

/-- The part of a numeral before its exponent is made of digits and points. -/
theorem IsMantissa.numeric {text : List Char} (decimal : IsMantissa text) :
    ∀ c ∈ text, (c.isDigit || decide (c = '.')) = true := by
  cases decimal with
  | whole whole =>
    intro c mem
    rw [List.all_eq_true.1 whole.2 c mem]
    rfl
  | fraction whole decimals =>
    intro c mem
    rcases List.mem_append.1 mem with mem | mem
    · rw [List.all_eq_true.1 whole c mem]
      rfl
    · rcases List.mem_cons.1 mem with rfl | mem
      · rfl
      · rw [List.all_eq_true.1 decimals.2 c mem]
        rfl

/-- The part of a numeral before its exponent ends in a digit. -/
theorem IsMantissa.exists_last {text : List Char} (decimal : IsMantissa text) :
    ∃ start c, text = start ++ [c] ∧ c.isDigit = true := by
  cases decimal with
  | whole whole => exact whole.exists_last
  | @fraction digits decimals _ fraction =>
    obtain ⟨start, c, rfl, digit⟩ := fraction.exists_last
    exact ⟨digits ++ '.' :: start, c, by simp, digit⟩

/-- An exponent is nothing, or it ends in a digit. -/
theorem IsExponent.exists_last {text : List Char} (power : IsExponent text) :
    text = [] ∨ ∃ start c, text = start ++ [c] ∧ c.isDigit = true := by
  cases power with
  | none => exact .inl rfl
  | @some mark sign digits _ _ number =>
    obtain ⟨start, c, rfl, digit⟩ := number.exists_last
    exact .inr ⟨mark :: (sign ++ start), c, by simp, digit⟩

/-- The characters of an exponent are signs, or they could stand in names. -/
theorem IsExponent.chars {text : List Char} (power : IsExponent text) :
    ∀ c ∈ text, Variable.isNameChar c = true ∨ c = '+' ∨ c = '-' := by
  cases power with
  | none => nofun
  | some marked signed number =>
    intro c mem
    rcases List.mem_cons.1 mem with rfl | mem
    · rcases marked with rfl | rfl <;> exact .inl (by decide)
    · rcases List.mem_append.1 mem with mem | mem
      · rcases signed with rfl | rfl | rfl
        · cases mem
        · exact .inr (.inl (List.mem_singleton.1 mem))
        · exact .inr (.inr (List.mem_singleton.1 mem))
      · have digit := List.all_eq_true.1 number.2 c mem
        exact .inl (isNameChar_of_isWordChar (isWordChar_of_isDigit digit)).1

/-- Digits and points could stand in names. -/
theorem isNameChar_of_numeric {c : Char} (numeric : (c.isDigit || decide (c = '.')) = true) :
    Variable.isNameChar c = true := by
  rw [Bool.or_eq_true, decide_eq_true_eq] at numeric
  rcases numeric with digit | rfl
  · exact (isNameChar_of_isWordChar (isWordChar_of_isDigit digit)).1
  · decide

/-- Digits and points are no letters. -/
theorem not_isAlpha_of_numeric {c : Char} (numeric : (c.isDigit || decide (c = '.')) = true) :
    c.isAlpha = false := by
  rw [Bool.or_eq_true, decide_eq_true_eq] at numeric
  rcases numeric with digit | rfl
  · by_contra letter
    rw [Bool.not_eq_false] at letter
    have low : 48 ≤ c.toNat ∧ c.toNat ≤ 57 := by
      simpa [Char.isDigit, UInt32.le_iff_toNat_le] using digit
    have high : 65 ≤ c.toNat ∧ c.toNat ≤ 90 ∨ 97 ≤ c.toNat ∧ c.toNat ≤ 122 := by
      simpa [Char.isAlpha, Char.isUpper, Char.isLower, UInt32.le_iff_toNat_le] using letter
    omega
  · decide

/-- After the part of a numeral before its exponent, a letter is the mark of an exponent. -/
theorem IsMantissa.comesAfterExponentMark {text : List Char} (decimal : IsMantissa text)
    {letter : Char} (marked : letter = 'e' ∨ letter = 'E') {read : List Char} (fresh : Fresh read)
    (mark : Char) (right : List Char) :
    Form.comesAfterExponentMark ⟨letter :: (text.reverse ++ read), mark, right⟩ = true := by
  have numeric : ∀ c ∈ text.reverse, (c.isDigit || decide (c = '.')) = true := fun c mem =>
    decimal.numeric c (List.mem_reverse.1 mem)
  have digit : (text.reverse.any Char.isDigit) = true := by
    obtain ⟨start, c, rfl, digit⟩ := decimal.exists_last
    simp [digit]
  unfold Form.comesAfterExponentMark
  dsimp only
  rw [List.takeWhile_append_of_pos numeric, List.dropWhile_append_of_pos numeric,
    fresh.takeWhile_eq.1, fresh.takeWhile_eq.2, List.append_nil, digit]
  have letterMark : (decide (letter = 'e') || decide (letter = 'E')) = true := by
    simpa using marked
  rw [letterMark]
  cases read with
  | nil => rfl
  | cons c rest =>
    have strange := fresh c rfl
    simp only [isWordChar, Bool.or_eq_false_iff] at strange
    simp [strange.1.1, strange.1.2]

/-- What starts with no letter cannot be called. -/
theorem not_isCallable_of_first {c : Char} (first : c.isAlpha = false) (rest : List Char) :
    Function.isCallable (String.ofList (c :: rest)) = false := by
  have other : 'f' ≠ c := by
    rintro rfl
    cases first
  have group : Function.calledGroup? (String.ofList (c :: rest)) = none := by
    unfold Function.calledGroup? Text.afterStart?
    rw [String.toList_ofList]
    show (if 'f' = c then Text.dropStart? ['n', ':'] rest else none).map String.ofList = none
    rw [if_neg other]
    rfl
  unfold Function.isCallable
  rw [group, String.toList_ofList]
  simp [first]

/-- The functions that can be called have names. -/
theorem isNameChar_of_listed : (Function.all.all fun entry =>
    !(entry.name.toList.head?.any Char.isAlpha) || entry.name.toList.all Variable.isNameChar) =
      true := by
  decide +kernel

/-- What can be called starts with a letter. -/
theorem first_of_isCallable {name : String} (callable : Function.isCallable name = true) :
    name.toList.head?.any Char.isAlpha = true := by
  cases shape : name.toList with
  | nil =>
    have empty : name = "" := by rw [← String.ofList_toList (s := name), shape, String.ofList_nil]
    rw [empty] at callable
    exact absurd callable (by decide)
  | cons c rest =>
    by_contra letter
    have first : c.isAlpha = false := by simpa using letter
    have uncallable := not_isCallable_of_first first rest
    rw [← shape, String.ofList_toList, callable] at uncallable
    cases uncallable

/-- The names of calls can be called. -/
theorem IsCallName.isCallable {name : String} (call : IsCallName name) :
    Function.isCallable name = true := by
  cases call with
  | listed _ callable _ => exact callable
  | @group name identifier =>
    have group : Function.calledGroup? (String.ofList ('f' :: 'n' :: ':' :: name)) =
        some (String.ofList name) := by
      unfold Function.calledGroup? Text.afterStart?
      rw [String.toList_ofList]
      rfl
    unfold Function.isCallable
    rw [group]
    simp [identifier.ne_nil]

/-- The names of calls have characters. -/
theorem IsCallName.ne_nil {name : String} (call : IsCallName name) : name.toList ≠ [] := by
  intro empty
  have first := first_of_isCallable call.isCallable
  rw [empty] at first
  cases first

/-- The names of calls are made of the characters of names. -/
theorem IsCallName.named {name : String} (call : IsCallName name) :
    ∀ c ∈ name.toList, Variable.isNameChar c = true := by
  cases call with
  | listed listed callable _ =>
    obtain ⟨entry, found⟩ := Option.isSome_iff_exists.1 listed
    have checked := List.all_eq_true.1 isNameChar_of_listed entry (Function.mem_of_find? found)
    rw [Function.name_of_find? found, first_of_isCallable callable, Bool.not_true, Bool.false_or]
      at checked
    exact List.all_eq_true.1 checked
  | @group name identifier =>
    have mark : (['f', 'n', ':'].all Variable.isNameChar) = true := by decide
    rw [String.toList_ofList]
    intro c mem
    rcases List.mem_append.1 (show c ∈ ['f', 'n', ':'] ++ name from mem) with mem | mem
    · exact List.all_eq_true.1 mark c mem
    · exact (isNameChar_of_isWordChar (identifier.all_isWordChar c mem)).1

/-- A text that is followed by what belongs to no name is not the start of what can be called, unless
it starts with the mark of group calls. -/
theorem not_isCallable_of_unnamed {start : List Char} (unmarked : ¬ ['f', 'n', ':'] <+: start)
    {c : Char} (unnamed : Variable.isNameChar c = false) (rest : List Char) :
    Function.isCallable (String.ofList (start ++ c :: rest)) = false := by
  have group : Function.calledGroup? (String.ofList (start ++ c :: rest)) = none := by
    unfold Function.calledGroup? Text.afterStart?
    rw [String.toList_ofList, Option.map_eq_none_iff]
    by_contra found
    obtain ⟨later, shape⟩ := Option.ne_none_iff_exists'.1 found
    have same : start ++ c :: rest = 'f' :: 'n' :: ':' :: later :=
      Text.dropStart?_eq_some_iff.1 shape
    -- what belongs to no name is none of the characters of the mark
    match start, unmarked, same with
    | [], _, same | [_], _, same | [_, _], _, same =>
      cases same
      cases unnamed
    | _ :: _ :: _ :: more, unmarked, same =>
      cases same
      exact unmarked ⟨more, rfl⟩
  unfold Function.isCallable
  rw [group]
  by_contra callable
  rw [Bool.not_eq_false, Bool.and_eq_true] at callable
  obtain ⟨entry, found⟩ := Option.isSome_iff_exists.1 callable.2
  have checked := List.all_eq_true.1 isNameChar_of_listed entry (Function.mem_of_find? found)
  rw [Function.name_of_find? found, callable.1, String.toList_ofList, Bool.not_true, Bool.false_or]
    at checked
  rw [List.all_eq_true.1 checked c (by simp)] at unnamed
  cases unnamed

/-- A word that is followed by what belongs to no name is not the start of what can be called. -/
theorem not_isCallable_of_word {word : List Char} (wordy : ∀ c ∈ word, isWordChar c = true)
    {c : Char} (unnamed : Variable.isNameChar c = false) (rest : List Char) :
    Function.isCallable (String.ofList (word ++ c :: rest)) = false := by
  refine not_isCallable_of_unnamed (fun marked => ?_) unnamed rest
  exact (isNameChar_of_isWordChar (wordy ':' (marked.subset (by simp)))).2 rfl

/-- The text before the first occurrence of a character goes on where it does not occur. -/
theorem splitAtFirst?_extends {mark : Char} {start text : List Char} (absent : mark ∉ start)
    {parts : List Char × List Char} (found : Text.splitAtFirst? mark (start ++ text) = some parts) :
    ∃ rest, parts.1 = start ++ rest := by
  have other : ∀ c ∈ start, decide (c ≠ mark) = true := fun c mem =>
    decide_eq_true fun same => absent (same ▸ mem)
  unfold Text.splitAtFirst? at found
  rw [List.takeWhile_append_of_pos other] at found
  split at found
  · cases found
  · cases found
    exact ⟨_, rfl⟩

/-- A text is not enclosed if no beginning of it that is as long as given can be called. -/
theorem enclosed?_eq_none (start : List Char) (nonempty : start ≠ []) (absent : '(' ∉ start)
    (uncalled : ∀ rest, Function.isCallable (String.ofList (start ++ rest)) = false)
    (text : List Char) : Form.enclosed? (start ++ text) = none := by
  unfold Form.enclosed?
  split
  · cases found : Text.splitAtFirst? '(' (start ++ text) with
    | none => rfl
    | some parts =>
      obtain ⟨rest, shape⟩ := splitAtFirst?_extends absent found
      have named : parts.1 ≠ [] := by simp [shape, nonempty]
      have no : (decide (parts.1 = []) || Function.isCallable (String.ofList parts.1)) = false := by
        rw [decide_eq_false named, shape, uncalled]
        rfl
      dsimp only
      rw [no, Bool.false_and]
      rfl
  · rfl

/-- An identifier and what follows it are not enclosed, if no name and no bracket goes on there. -/
theorem IsIdentifier.enclosed?_eq_none {name : List Char} (identifier : IsIdentifier name) {c : Char}
    (unnamed : Variable.isNameChar c = false) (other : c ≠ '(') (rest : List Char) :
    Form.enclosed? (name ++ c :: rest) = none := by
  have wordy := identifier.all_isWordChar
  have absent : '(' ∉ name := fun mem => absurd (wordy _ mem) (by decide)
  have shape : name ++ c :: rest = (name ++ [c]) ++ rest := by simp
  rw [shape]
  apply Source.enclosed?_eq_none (name ++ [c]) (by simp)
  · rw [List.mem_append, List.mem_singleton]
    exact fun mem => mem.elim absent fun same => other same.symm
  · intro later
    rw [List.append_assoc]
    exact not_isCallable_of_word wordy unnamed later

/-- A text that goes on after its last bracket is not enclosed. -/
theorem enclosed?_of_bracketed {name text : List Char} (absent : '(' ∉ name)
    (balanced : Brackets.closed.scan text = some .closed) (c : Char) (rest : List Char) :
    Form.enclosed? ((name ++ '(' :: (text ++ [')'])) ++ c :: rest) = none := by
  have shape : (name ++ '(' :: (text ++ [')'])) ++ c :: rest =
      name ++ '(' :: (text ++ ')' :: c :: rest) := by simp
  have short : (text ++ ')' :: c :: rest).dropLast = text ++ ')' :: (c :: rest).dropLast := by
    rw [List.dropLast_append_of_ne_nil (by simp), List.dropLast_cons_of_ne_nil (by simp)]
  unfold Form.enclosed?
  rw [shape, splitAtFirst?_append absent]
  dsimp only
  rw [short, Brackets.not_isBalanced_of_closing balanced, Bool.and_false]
  split <;> rfl

end Shadeloom.Source
