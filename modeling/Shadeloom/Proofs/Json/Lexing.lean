import Mathlib.Data.List.TakeDrop
import Mathlib.Data.List.TakeWhile
import Mathlib.Tactic.IntervalCases
import Shadeloom.Json.Printer
import Shadeloom.Json.Reader
/-!
# The tokens of a written value

The compact text of a value consists of the tokens that its parts are made of. The lexer finds
exactly these, whatever is written in strings, as long as each number in the value is read back as
it was written: whole numbers of 64 bits are, but not all doubles, since reading one rounds twice.
-/
namespace Shadeloom.Json

/-- Whether what is written for a number is read as this number. -/
def Rereads (number : Json) : Prop :=
  number? number.scalarText.toList = some number

mutual

/-- The numbers inside a value. -/
def numbers : Json → List Json
  | .int value => [.int value]
  | .float value => [.float value]
  | .arr items => itemNumbers items
  | .obj members => memberNumbers members
  | _ => []

/-- The numbers inside items. -/
def itemNumbers : List Json → List Json
  | [] => []
  | item :: rest => item.numbers ++ itemNumbers rest

/-- The numbers inside members. -/
def memberNumbers : List (String × Json) → List Json
  | [] => []
  | (_, value) :: rest => value.numbers ++ memberNumbers rest

end

mutual

/-- The tokens that a value is written with. -/
def tokensOf : Json → List Token
  | .str text => [.text (some text)]
  | .arr items => .openArray :: (itemTokens items ++ [.closeArray])
  | .obj members => .openObject :: (memberTokens members ++ [.closeObject])
  | value => [.scalar value]

/-- The tokens that items are written with. -/
def itemTokens : List Json → List Token
  | [] => []
  | [item] => item.tokensOf
  | item :: rest => item.tokensOf ++ .comma :: itemTokens rest

/-- The tokens that members are written with. -/
def memberTokens : List (String × Json) → List Token
  | [] => []
  | [(key, value)] => .text (some key) :: .colon :: value.tokensOf
  | (key, value) :: rest => .text (some key) :: .colon :: (value.tokensOf ++ .comma :: memberTokens rest)

end

/-- A value that is all there and in which containers are nested at most so deep. -/
inductive Nests : Nat → Json → Prop
  | null {depth : Nat} : Nests depth .null
  | bool {depth : Nat} (value : Bool) : Nests depth (.bool value)
  | int {depth : Nat} (value : Int) : Nests depth (.int value)
  | float {depth : Nat} (value : Float) : Nests depth (.float value)
  | str {depth : Nat} (text : String) : Nests depth (.str text)
  | arr {depth : Nat} {items : List Json} (inside : ∀ item ∈ items, Nests depth item) :
    Nests (depth + 1) (.arr items)
  | obj {depth : Nat} {members : List (String × Json)}
    (inside : ∀ member ∈ members, Nests depth member.2) : Nests (depth + 1) (.obj members)

/-- The numbers inside items are those inside one of them. -/
theorem mem_itemNumbers {number : Json} {items : List Json} :
    number ∈ itemNumbers items ↔ ∃ item ∈ items, number ∈ item.numbers := by
  induction items with
  | nil => simp [itemNumbers]
  | cons item rest ih => simp [itemNumbers, ih]

/-- The numbers inside members are those inside the value of one of them. -/
theorem mem_memberNumbers {number : Json} {members : List (String × Json)} :
    number ∈ memberNumbers members ↔ ∃ member ∈ members, number ∈ member.2.numbers := by
  induction members with
  | nil => simp [memberNumbers]
  | cons member rest ih => simp [memberNumbers, ih]

/-- A character that numbers are written with. -/
def isInNumber (c : Char) : Bool :=
  c.isDigit || c = '-' || c = '+' || c = '.' || c = 'e' || c = 'E'

/-- Digits are written with characters of numbers. -/
theorem isInNumber_of_isDigit {digits : List Char} (all : digits.all Char.isDigit = true) :
    ∀ c ∈ digits, isInNumber c = true := by
  intro c mem
  simp [isInNumber, List.all_eq_true.1 all c mem]

/-- An exponent is written with characters of numbers. -/
theorem isInNumber_of_exponent? {text : List Char} {exponent : Int}
    (read : Decimal.exponent? text = some exponent) : ∀ c ∈ text, isInNumber c = true := by
  unfold Decimal.exponent? at read
  split at read
  · simp
  · rename_i mark rest
    split at read
    · rename_i marked
      have here : isInNumber mark = true := by
        simp only [Bool.or_eq_true, decide_eq_true_eq] at marked
        rcases marked with rfl | rfl <;> rfl
      simp only [List.forall_mem_cons]
      refine ⟨here, ?_⟩
      split at read
      rename_i negative digits sign
      split at read
      · rename_i all
        simp only [Bool.and_eq_true] at all
        have inside := isInNumber_of_isDigit all.2
        split at sign <;> cases sign <;> simp_all [isInNumber]
      · cases read
    · cases read

/-- What is left after the leading digits of a text consists of characters of numbers if the whole
text is to. -/
theorem isInNumber_of_span {text : List Char}
    (left : ∀ c ∈ (text.span Char.isDigit).2, isInNumber c = true) :
    ∀ c ∈ text, isInNumber c = true := by
  rw [List.span_eq_takeWhile_dropWhile] at left
  rw [← List.takeWhile_append_dropWhile (p := Char.isDigit) (l := text)]
  simp only [List.forall_mem_append]
  exact ⟨isInNumber_of_isDigit List.all_takeWhile, left⟩

/-- A number is written with characters of numbers. -/
theorem isInNumber_of_number? {word : List Char} {value : Json}
    (read : number? word = some value) : ∀ c ∈ word, isInNumber c = true := by
  unfold number? at read
  split at read
  rename_i negative text sign
  have inside : ∀ c ∈ text, isInNumber c = true := by
    apply isInNumber_of_span
    split at read
    rename_i whole rest cut
    rw [cut]
    dsimp only at read ⊢
    split at read
    · split at read
      · simp
      · rename_i rest _
        simp only [List.forall_mem_cons]
        refine ⟨rfl, isInNumber_of_span ?_⟩
        split at read
        · cases read
        · obtain ⟨exponent, found, -⟩ := Option.map_eq_some_iff.1 read
          exact isInNumber_of_exponent? found
      · obtain ⟨exponent, found, -⟩ := Option.map_eq_some_iff.1 read
        exact isInNumber_of_exponent? found
    · cases read
  split at sign <;> cases sign
  · simpa only [List.forall_mem_cons] using ⟨rfl, inside⟩
  · exact inside

/-- Reading digits up to a number only adds to it. -/
theorem le_ofDigitChars (digits : List Char) (read : Nat) :
    read ≤ Nat.ofDigitChars 10 digits read := by
  rw [Nat.ofDigitChars_eq_ofDigitChars_zero]
  exact Nat.le_trans (Nat.le_mul_of_pos_left read (Nat.pow_pos (by decide)))
    (Nat.le_add_right _ _)

/-- Digits of a number that fits 64 bits are all read. -/
theorem ofWhole_eq {digits : List Char} {read : Nat}
    (fits : Nat.ofDigitChars 10 digits read < 2 ^ 64) :
    Significand.ofWhole read digits = ⟨Nat.ofDigitChars 10 digits read, 0⟩ := by
  induction digits generalizing read with
  | nil => rfl
  | cons digit rest ih =>
    rw [Nat.ofDigitChars_cons] at fits ⊢
    have here := Nat.lt_of_le_of_lt (le_ofDigitChars rest _) fits
    rw [Significand.ofWhole]
    have small : Significand.fits (10 * read + Decimal.digitValue digit) = true := by
      exact decide_eq_true here
    simp only [small, if_true]
    exact ih fits

/-- The digits of a number have no superfluous zero. -/
theorem isWholePart_toDigits (n : Nat) : isWholePart (Nat.toDigits 10 n) = true := by
  have positive (n : Nat) (some : 0 < n) :
      ∃ first rest, Nat.toDigits 10 n = first :: rest ∧ first ≠ '0' := by
    induction n using Nat.strongRecOn with
    | ind n ih =>
      by_cases small : n < 10
      · exact ⟨n.digitChar, [], Nat.toDigits_of_lt_base small, by simp; omega⟩
      · obtain ⟨first, rest, digits, apart⟩ := ih (n / 10) (by omega) (by omega)
        exact ⟨first, rest ++ [(n % 10).digitChar], by
          rw [Nat.toDigits_of_base_le (by decide) (by omega), digits, List.cons_append], apart⟩
  rcases Nat.eq_zero_or_pos n with rfl | some
  · rfl
  · obtain ⟨first, rest, digits, apart⟩ := positive n some
    rw [digits]
    unfold isWholePart
    split <;> simp_all

/-- A whole number that fits 64 bits is read back as it was written. -/
theorem rereads_ofNat {n : Nat} (fits : n < 2 ^ 64) : (ofNat n).Rereads := by
  have digits : (ofNat n).scalarText.toList = Nat.toDigits 10 n := Nat.toList_repr
  have value : Nat.ofDigitChars 10 (Nat.toDigits 10 n) 0 = n :=
    Nat.ofDigitChars_toDigits (by decide) (by decide)
  have each (c : Char) (mem : c ∈ Nat.toDigits 10 n) : c.isDigit = true :=
    Nat.isDigit_of_mem_toDigits (by decide) (by decide) mem
  have cut : (Nat.toDigits 10 n).span Char.isDigit = (Nat.toDigits 10 n, []) := by
    rw [List.span_eq_takeWhile_dropWhile, Prod.mk.injEq]
    exact ⟨List.takeWhile_eq_self_iff.2 each, List.dropWhile_eq_nil_iff.2 each⟩
  have plain : ∀ rest, Nat.toDigits 10 n ≠ '-' :: rest := by
    intro rest same
    have := each '-' (by rw [same]; exact List.mem_cons_self)
    cases this
  have read := ofWhole_eq (value.symm ▸ fits)
  rw [value] at read
  unfold Rereads number?
  rw [digits]
  split
  rename_i negative text sign
  split at sign
  · rename_i rest same
    exact absurd same (plain rest)
  · cases sign
    rw [cut]
    simp [isWholePart_toDigits, wholeNumber, read, ofNat]

/-- Whether a word ends before a text. -/
def EndsWord : List Char → Prop
  | [] => True
  | c :: _ => (Lexer.mark? c).isSome = true

/-- A character that a word goes on with. -/
def isInWord (c : Char) : Bool :=
  !isSpace c && c ≠ '"' && (Lexer.mark? c).isNone

/-- Words go on with what numbers are written with. -/
theorem isInWord_of_isInNumber {c : Char} (number : isInNumber c = true) : isInWord c = true := by
  unfold isInNumber at number
  simp only [Bool.or_eq_true, decide_eq_true_eq] at number
  obtain ((((digit | rfl) | rfl) | rfl) | rfl) | rfl := number
  · have apart (other : Char) (plain : other.isDigit = false) : c ≠ other := by
      rintro rfl
      rw [digit] at plain
      cases plain
    have unmarked : Lexer.mark? c = none := by
      unfold Lexer.mark?
      split <;> first | rfl | exact absurd rfl (apart _ rfl)
    simp [isInWord, isSpace, unmarked, apart ' ' rfl, apart '\n' rfl, apart '\t' rfl,
      apart '\r' rfl, apart '"' rfl]
  all_goals rfl

/-- What is a token by itself is one between tokens. -/
theorem run_mark {c : Char} {token : Token} (mark : Lexer.mark? c = some token)
    (tokens : List Token) (rest : List Char) :
    Lexer.run ⟨.between, tokens⟩ (c :: rest) = Lexer.run ⟨.between, token :: tokens⟩ rest := by
  unfold Lexer.mark? at mark
  split at mark <;> cases mark <;> rfl

/-- A word that ends is a token. -/
theorem run_ended {word : List Char} {value : Json} (read : word? word = some value)
    (tokens : List Token) {rest : List Char} (ends : EndsWord rest) :
    Lexer.run ⟨.word word.reverse, tokens⟩ rest =
      Lexer.run ⟨.between, .scalar value :: tokens⟩ rest := by
  have ended : Lexer.endWord ⟨.word word.reverse, tokens⟩ =
      some ⟨.between, .scalar value :: tokens⟩ := by
    simp [Lexer.endWord, read]
  cases rest with
  | nil => simp only [Lexer.run, ended]; rfl
  | cons c rest =>
    obtain ⟨token, mark⟩ := Option.isSome_iff_exists.1 ends
    rw [run_mark mark]
    have plain : isSpace c = false ∧ c ≠ '"' := by
      unfold Lexer.mark? at mark
      split at mark <;> cases mark <;> exact ⟨rfl, by decide⟩
    rw [Lexer.run, Lexer.step]
    simp [Lexer.outside, plain.1, plain.2, mark, ended]

/-- A word goes on over its characters. -/
theorem run_word {word : List Char} (inside : ∀ c ∈ word, isInWord c = true)
    (read : List Char) (tokens : List Token) (rest : List Char) :
    Lexer.run ⟨.word read, tokens⟩ (word ++ rest) =
      Lexer.run ⟨.word (word.reverse ++ read), tokens⟩ rest := by
  induction word generalizing read with
  | nil => rfl
  | cons c word ih =>
    rw [List.forall_mem_cons] at inside
    have here := inside.1
    simp only [isInWord, Bool.and_eq_true, Bool.not_eq_true', decide_eq_true_eq,
      Option.isNone_iff_eq_none] at here
    have step : Lexer.step ⟨.word read, tokens⟩ c = some ⟨.word (c :: read), tokens⟩ := by
      simp [Lexer.step, Lexer.outside, here]
    rw [List.cons_append, Lexer.run, step]
    simpa using ih inside.2 (c :: read)

/-- What is written of a word that ends is a token. -/
theorem run_scalar (word : List Char) {value : Json} (read : word? word = some value)
    (some : word ≠ []) (inside : ∀ c ∈ word, isInWord c = true) (tokens : List Token)
    {rest : List Char} (ends : EndsWord rest) :
    Lexer.run ⟨.between, tokens⟩ (word ++ rest) =
      Lexer.run ⟨.between, .scalar value :: tokens⟩ rest := by
  rw [← run_ended read tokens ends]
  obtain ⟨c, word, rfl⟩ := List.exists_cons_of_ne_nil some
  rw [List.forall_mem_cons] at inside
  have here := inside.1
  simp only [isInWord, Bool.and_eq_true, Bool.not_eq_true', decide_eq_true_eq,
    Option.isNone_iff_eq_none] at here
  have step : Lexer.step ⟨.between, tokens⟩ c = .some ⟨.word [c], tokens⟩ := by
    simp [Lexer.step, Lexer.outside, here]
  rw [List.cons_append, Lexer.run, step]
  simpa using run_word inside.2 [c] tokens rest

/-- A number that is read back is a token. -/
theorem run_number {number : Json} (rereads : number.Rereads) (tokens : List Token)
    {rest : List Char} (ends : EndsWord rest) :
    Lexer.run ⟨.between, tokens⟩ (number.scalarText.toList ++ rest) =
      Lexer.run ⟨.between, .scalar number :: tokens⟩ rest := by
  have inside := isInNumber_of_number? rereads
  have read : word? number.scalarText.toList = some number := by
    have other (word : List Char) (some : 't' ∈ word ∨ 'f' ∈ word ∨ 'n' ∈ word) :
        number.scalarText.toList ≠ word := by
      rintro rfl
      rcases some with mem | mem | mem <;> cases inside _ mem
    unfold word?
    rw [if_neg (other _ (by simp)), if_neg (other _ (by simp)), if_neg (other _ (by simp))]
    exact rereads
  refine run_scalar _ read ?_ (fun c mem => isInWord_of_isInNumber (inside c mem)) tokens ends
  intro empty
  rw [Rereads, empty] at rereads
  cases rereads

/-- The code that is written for a control character is read as the character. -/
theorem run_control {n : Nat} (control : n < 0x20) (read : List Char) (tokens : List Token)
    (rest : List Char) :
    Lexer.run ⟨.text ⟨some read, none⟩, tokens⟩
        (['\\', 'u', '0', '0'] ++ controlDigits (Char.ofNat n) ++ rest) =
      Lexer.run ⟨.text ⟨some (Char.ofNat n :: read), none⟩, tokens⟩ rest := by
  interval_cases n <;> rfl

/-- What is written for a character inside a string is read as the character. -/
theorem run_escaped (c : Char) (read : List Char) (tokens : List Token) (rest : List Char) :
    Lexer.run ⟨.text ⟨some read, none⟩, tokens⟩ (escaped c ++ rest) =
      Lexer.run ⟨.text ⟨some (c :: read), none⟩, tokens⟩ rest := by
  unfold escaped
  split
  case h_8 quote escape _ _ _ _ _ =>
    split
    · rename_i control
      simpa using run_control control read tokens rest
    · rename_i plain
      have step : Lexer.step ⟨.text ⟨some read, none⟩, tokens⟩ c =
          some ⟨.text ⟨some (c :: read), none⟩, tokens⟩ := by
        simp only [Lexer.step, if_neg quote, if_neg escape, if_neg plain]
        rfl
      rw [List.singleton_append, Lexer.run, step]
  all_goals rfl

/-- A string is a token. -/
theorem run_quoted (text : String) (tokens : List Token) (rest : List Char) :
    Lexer.run ⟨.between, tokens⟩ ((quoted text).toList ++ rest) =
      Lexer.run ⟨.between, .text (some text) :: tokens⟩ rest := by
  have inside (left read : List Char) :
      Lexer.run ⟨.text ⟨some read, none⟩, tokens⟩ (left.flatMap escaped ++ '"' :: rest) =
        Lexer.run ⟨.between, .text (some (String.ofList (read.reverse ++ left))) :: tokens⟩
          rest := by
    induction left generalizing read with
    | nil => rw [List.append_nil]; rfl
    | cons c left ih =>
      rw [List.flatMap_cons, List.append_assoc, run_escaped, ih]
      simp
  have start : Lexer.run ⟨.between, tokens⟩ ((quoted text).toList ++ rest) =
      Lexer.run ⟨.text .empty, tokens⟩ (text.toList.flatMap escaped ++ '"' :: rest) := by
    simp only [quoted, String.toList_ofList, List.cons_append, List.append_assoc]
    rfl
  rw [start]
  simpa using! inside text.toList []

/-- Values after which the lexer is between tokens, wherever words may end. -/
def Lexed (value : Json) : Prop :=
  ∀ tokens rest, EndsWord rest →
    Lexer.run ⟨.between, tokens⟩ (value.compact.toList ++ rest) =
      Lexer.run ⟨.between, value.tokensOf.reverse ++ tokens⟩ rest

/-- A value before what is a token by itself is cut into its tokens, then that token. -/
theorem Lexed.run_mark {value : Json} (lexed : value.Lexed) {c : Char} {token : Token}
    (mark : Lexer.mark? c = some token) (tokens : List Token) (rest : List Char) :
    Lexer.run ⟨.between, tokens⟩ (value.compact.toList ++ c :: rest) =
      Lexer.run ⟨.between, token :: (value.tokensOf.reverse ++ tokens)⟩ rest := by
  have ends : EndsWord (c :: rest) := by simp [EndsWord, mark]
  rw [lexed tokens _ ends, Json.run_mark mark]

/-- Items up to the end of their array are cut into their tokens if each of them is. -/
theorem run_compactItems {items : List Json} (lexed : ∀ item ∈ items, item.Lexed)
    (tokens : List Token) (rest : List Char) :
    Lexer.run ⟨.between, tokens⟩ ((compactItems items).toList ++ ']' :: rest) =
      Lexer.run ⟨.between, .closeArray :: ((itemTokens items).reverse ++ tokens)⟩ rest := by
  induction items generalizing tokens with
  | nil => rfl
  | cons item items ih =>
    rw [List.forall_mem_cons] at lexed
    cases items with
    | nil => exact lexed.1.run_mark rfl tokens rest
    | cons next items =>
      have comma : ",".toList = [','] := rfl
      simp only [compactItems, itemTokens, String.toList_append, comma, List.append_assoc,
        List.cons_append, List.nil_append] at ih ⊢
      rw [lexed.1.run_mark rfl, ih lexed.2]
      simp

/-- Members up to the end of their object are cut into their tokens if each of their values is. -/
theorem run_compactMembers {members : List (String × Json)}
    (lexed : ∀ member ∈ members, member.2.Lexed) (tokens : List Token) (rest : List Char) :
    Lexer.run ⟨.between, tokens⟩ ((compactMembers members).toList ++ '}' :: rest) =
      Lexer.run ⟨.between, .closeObject :: ((memberTokens members).reverse ++ tokens)⟩ rest := by
  induction members generalizing tokens with
  | nil => rfl
  | cons member members ih =>
    rw [List.forall_mem_cons] at lexed
    obtain ⟨key, value⟩ := member
    have colon : ":".toList = [':'] := rfl
    cases members with
    | nil =>
      simp only [compactMembers, memberTokens, String.toList_append, colon, List.append_assoc,
        List.cons_append, List.nil_append]
      rw [run_quoted, run_mark rfl, lexed.1.run_mark rfl]
      simp
    | cons next members =>
      have comma : ",".toList = [','] := rfl
      simp only [compactMembers, memberTokens, String.toList_append, comma, colon,
        List.append_assoc, List.cons_append, List.nil_append] at ih ⊢
      rw [run_quoted, run_mark rfl, lexed.1.run_mark rfl, ih lexed.2]
      simp

/-- The text of a value is cut into its tokens. -/
theorem lexed_of_nests {depth : Nat} {value : Json} (nests : value.Nests depth)
    (rereads : ∀ number ∈ value.numbers, number.Rereads) : value.Lexed := by
  intro tokens rest ends
  induction nests generalizing tokens rest with
  | null => exact run_scalar "null".toList rfl (by simp) (by simp; decide) tokens ends
  | bool value =>
    cases value with
    | false => exact run_scalar "false".toList rfl (by simp) (by simp; decide) tokens ends
    | true => exact run_scalar "true".toList rfl (by simp) (by simp; decide) tokens ends
  | int value => exact run_number (rereads _ (by simp [numbers])) tokens ends
  | float value => exact run_number (rereads _ (by simp [numbers])) tokens ends
  | str text => exact run_quoted text tokens rest
  | @arr depth items inside ih =>
    have lexed : ∀ item ∈ items, item.Lexed := fun item mem tokens rest ends =>
      ih item mem (fun number here => rereads number (mem_itemNumbers.2 ⟨item, mem, here⟩))
        tokens rest ends
    have text : (Json.arr items).compact.toList ++ rest =
        '[' :: ((compactItems items).toList ++ ']' :: rest) := by
      simp only [compact, String.toList_append, List.append_assoc]
      rfl
    rw [text, run_mark rfl, run_compactItems lexed]
    simp [tokensOf]
  | @obj depth members inside ih =>
    have lexed : ∀ member ∈ members, member.2.Lexed := fun member mem tokens rest ends =>
      ih member mem (fun number here => rereads number (mem_memberNumbers.2 ⟨member, mem, here⟩))
        tokens rest ends
    have text : (Json.obj members).compact.toList ++ rest =
        '{' :: ((compactMembers members).toList ++ '}' :: rest) := by
      simp only [compact, String.toList_append, List.append_assoc]
      rfl
    rw [text, run_mark rfl, run_compactMembers lexed]
    simp [tokensOf]

/-- The tokens of the text of a value are those that it is made of. -/
theorem tokens_compact {depth : Nat} {value : Json} (nests : value.Nests depth)
    (rereads : ∀ number ∈ value.numbers, number.Rereads) :
    tokens value.compact.toList = (value.tokensOf, true) := by
  have lexed := lexed_of_nests nests rereads [] [] trivial
  rw [List.append_nil, List.append_nil] at lexed
  rw [tokens, lexed]
  simp [Lexer.run, Lexer.endWord]

end Shadeloom.Json
