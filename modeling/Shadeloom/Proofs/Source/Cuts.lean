import Mathlib
import Shadeloom.Source.Form
import Shadeloom.Validity
/-!
# Where texts can be cut

A text that is put together from balanced texts is cut where they are, and nowhere inside brackets or
quotes. So the cuts of a text are found from those of its pieces.
-/
namespace Shadeloom

namespace Text

/-- Letters and numbers are no blanks. -/
theorem not_blank_of_alphanumeric {c : Char} (alphanumeric : isAlphanumeric c = true) :
    isBlank c = false := by
  by_contra blank
  rw [Bool.not_eq_false] at blank
  have listed : c.toNat ∈ [0x9, 0xA, 0xB, 0xC, 0xD, 0x20, 0x85, 0xA0, 0x1680, 0x2000, 0x2001, 0x2002,
      0x2003, 0x2004, 0x2005, 0x2006, 0x2007, 0x2008, 0x2009, 0x200A, 0x2028, 0x2029, 0x202F, 0x205F,
      0x3000] := by
    simp only [isBlank, Bool.or_eq_true, Bool.and_eq_true, decide_eq_true_eq] at blank
    simp only [List.mem_cons, List.not_mem_nil, or_false]
    omega
  have none : ∀ point ∈ [0x9, 0xA, 0xB, 0xC, 0xD, 0x20, 0x85, 0xA0, 0x1680, 0x2000, 0x2001, 0x2002,
      0x2003, 0x2004, 0x2005, 0x2006, 0x2007, 0x2008, 0x2009, 0x200A, 0x2028, 0x2029, 0x202F, 0x205F,
      0x3000], isAlphanumeric (Char.ofNat point) = false := by decide +kernel
  have impossible := none c.toNat listed
  rw [Char.ofNat_toNat, alphanumeric] at impossible
  cases impossible

/-- Digits are numbers. -/
theorem alphanumeric_of_digit {c : Char} (digit : c.isDigit = true) : isAlphanumeric c = true := by
  have ascii : c.toNat < 0x80 := by
    have bounds : 48 ≤ c.toNat ∧ c.toNat ≤ 57 := by
      simpa [Char.isDigit, UInt32.le_iff_toNat_le] using digit
    omega
  rw [isAlphanumeric, isNumber_ascii ascii, digit, Bool.or_true]

/-- Letters are no digits. -/
theorem not_digit_of_alphabetic {c : Char} (alphabetic : isAlphabetic c = true) :
    c.isDigit = false := by
  by_contra digit
  rw [Bool.not_eq_false] at digit
  have bounds : 48 ≤ c.toNat ∧ c.toNat ≤ 57 := by
    simpa [Char.isDigit, UInt32.le_iff_toNat_le] using digit
  rw [isAlphabetic_ascii (by omega)] at alphabetic
  have letter : 65 ≤ c.toNat ∧ c.toNat ≤ 90 ∨ 97 ≤ c.toNat ∧ c.toNat ≤ 122 := by
    simpa [Char.isAlpha, Char.isUpper, Char.isLower, UInt32.le_iff_toNat_le] using alphabetic
  omega

end Text

namespace Variable

/-- The characters of names are no blanks, brackets, quotes or operators. -/
theorem not_special_of_isNameChar {c : Char} (named : isNameChar c = true) :
    Text.isBlank c = false ∧ c ∉ ['"', '(', '[', '{', ')', ']', '}', ',', '=', '>', '<', '+', '-',
      '*', '/'] := by
  constructor
  · simp only [isNameChar, Bool.or_eq_true, decide_eq_true_eq] at named
    rcases named with ((alphanumeric | rfl) | rfl) | rfl
    · exact Text.not_blank_of_alphanumeric alphanumeric
    · decide
    · decide
    · decide
  · have none : (['"', '(', '[', '{', ')', ']', '}', ',', '=', '>', '<', '+', '-', '*', '/'].all
        fun other => !isNameChar other) = true := by decide
    intro special
    have unnamed := List.all_eq_true.1 none c special
    rw [named] at unnamed
    cases unnamed

/-- The characters of names are no brackets and no quotes. -/
theorem plain_of_isNameChar {c : Char} (named : isNameChar c = true) :
    c ∉ ['"', '(', '[', '{', ')', ']', '}'] := by
  exact fun special => (not_special_of_isNameChar named).2
    (List.mem_append_left [',', '=', '>', '<', '+', '-', '*', '/'] special)

end Variable

namespace Brackets

/-- The state with one more round bracket open. -/
def nest (state : Brackets) : Brackets :=
  { state with round := state.round + 1 }

/-- One more round bracket around a character changes nothing for it. -/
theorem step_nest {state next : Brackets} {c : Char} (step : state.step c = some next) :
    state.nest.step c = some next.nest := by
  by_cases quote : c = '"'
  · subst quote
    cases step
    rfl
  · unfold Brackets.step at step ⊢
    rw [if_neg quote] at step ⊢
    by_cases quoted : state.quoted = true
    · rw [if_pos quoted] at step
      cases step
      exact if_pos quoted
    · rw [if_neg quoted] at step
      rw [if_neg (show ¬ state.nest.quoted = true from quoted)]
      split at step
      · cases step
        rfl
      · cases step
        rfl
      · cases step
        rfl
      · split at step
        · cases step
        · rename_i opened
          cases step
          have back : state.round - 1 + 1 = state.round := by omega
          simp [nest, back]
      · split at step
        · cases step
        · rename_i opened
          cases step
          exact if_neg opened
      · split at step
        · cases step
        · rename_i opened
          cases step
          exact if_neg opened
      · cases step
        rfl

/-- One more round bracket around a text changes nothing for it. -/
theorem scan_nest {state next : Brackets} {text : List Char} (scan : state.scan text = some next) :
    state.nest.scan text = some next.nest := by
  induction text generalizing state with
  | nil =>
    cases scan
    rfl
  | cons c rest ih =>
    rw [Brackets.scan] at scan ⊢
    cases step : state.step c with
    | none =>
      rw [step] at scan
      cases scan
    | some between =>
      rw [step] at scan
      rw [step_nest step]
      exact ih scan

/-- Characters that are no brackets and no quotes leave everything as it is. -/
theorem scan_plain {text : List Char} (plain : ∀ c ∈ text, c ∉ ['"', '(', '[', '{', ')', ']', '}'])
    (state : Brackets) : state.scan text = some state := by
  induction text with
  | nil => rfl
  | cons c rest ih =>
    rw [Brackets.scan, step_plain (plain c (by simp))]
    exact ih fun other mem => plain other (by simp [mem])

/-- What is open after one text and another one. -/
theorem scan_append_of {state between : Brackets} {a : List Char} (scan : state.scan a = some between)
    (b : List Char) : state.scan (a ++ b) = between.scan b := by
  rw [scan_append, scan]
  rfl

/-- A balanced text in round brackets is balanced. -/
theorem scan_bracketed {text : List Char} (balanced : closed.scan text = some closed) :
    closed.scan ('(' :: (text ++ [')'])) = some closed := by
  have inside : closed.nest.scan (text ++ [')']) = some closed := by
    rw [scan_append_of (scan_nest balanced)]
    rfl
  exact inside

/-- A balanced text that goes on with a closing bracket is not balanced. -/
theorem not_isBalanced_of_closing {text : List Char} (balanced : closed.scan text = some closed)
    (rest : List Char) : isBalanced (text ++ ')' :: rest) = false := by
  unfold isBalanced
  rw [scan_append_of balanced]
  rfl

/-- What is open after the first character of a text and the rest of it. -/
theorem scan_cons_eq_some_iff {state next : Brackets} {c : Char} {rest : List Char} :
    state.scan (c :: rest) = some next ↔
      ∃ between, state.step c = some between ∧ between.scan rest = some next := by
  rw [scan]
  cases state.step c <;> simp

/-- A quote changes whether quotes are open, and nothing else. -/
theorem step_quote (state : Brackets) :
    state.step '"' = some { state with quoted := !state.quoted } := rfl

/-- A character that is no quote changes nothing in quotes. -/
theorem step_quoted {state next : Brackets} {c : Char} (other : c ≠ '"')
    (quoted : state.quoted = true) (step : state.step c = some next) : next = state := by
  unfold Brackets.step at step
  rw [if_neg other, if_pos quoted] at step
  exact (Option.some.inj step).symm

/-- What a character that is no quote does to the round brackets outside of quotes. -/
theorem step_unquoted {state next : Brackets} {c : Char} (other : c ≠ '"')
    (unquoted : state.quoted = false) (step : state.step c = some next) :
    next.quoted = false ∧ (c = '(' → next.round = state.round + 1) ∧
      (c = ')' → next.round + 1 = state.round) ∧ (c ≠ '(' → c ≠ ')' → next.round = state.round) := by
  unfold Brackets.step at step
  rw [if_neg other, if_neg (by simp [unquoted])] at step
  split at step
  · cases step
    exact ⟨unquoted, fun _ => rfl, nofun, fun opening => absurd rfl opening⟩
  · cases step
    exact ⟨unquoted, nofun, nofun, fun _ _ => rfl⟩
  · cases step
    exact ⟨unquoted, nofun, nofun, fun _ _ => rfl⟩
  · split at step
    · cases step
    · rename_i opened
      cases step
      refine ⟨unquoted, nofun, fun _ => ?_, fun _ closing => absurd rfl closing⟩
      dsimp only
      omega
  · split at step
    · cases step
    · cases step
      exact ⟨unquoted, nofun, nofun, fun _ _ => rfl⟩
  · split at step
    · cases step
    · cases step
      exact ⟨unquoted, nofun, nofun, fun _ _ => rfl⟩
  · rename_i opening _ _ closing _ _
    cases step
    exact ⟨unquoted, fun same => absurd same opening, fun same => absurd same closing,
      fun _ _ => rfl⟩

/-- Two readings of a character keep whether they differ in quotes and, if they do not, by how many
round brackets they differ. -/
theorem step_alike {state other next next' : Brackets} {c : Char} (step : state.step c = some next)
    (step' : other.step c = some next') :
    (next.quoted ^^ next'.quoted) = (state.quoted ^^ other.quoted) ∧
      (state.quoted = other.quoted → next.round + other.round = next'.round + state.round) := by
  by_cases quote : c = '"'
  · subst quote
    rw [step_quote] at step step'
    cases step
    cases step'
    exact ⟨by simp, fun _ => Nat.add_comm _ _⟩
  · cases quoted : state.quoted <;> cases quoted' : other.quoted
    · have first := step_unquoted quote quoted step
      have second := step_unquoted quote quoted' step'
      refine ⟨by rw [first.1, second.1], fun _ => ?_⟩
      by_cases opening : c = '('
      · rw [first.2.1 opening, second.2.1 opening]
        omega
      · by_cases closing : c = ')'
        · have first := first.2.2.1 closing
          have second := second.2.2.1 closing
          omega
        · rw [first.2.2.2 opening closing, second.2.2.2 opening closing]
          omega
    · rw [(step_unquoted quote quoted step).1, step_quoted quote quoted' step', quoted']
      exact ⟨rfl, nofun⟩
    · rw [step_quoted quote quoted step, (step_unquoted quote quoted' step').1, quoted]
      exact ⟨rfl, nofun⟩
    · rw [step_quoted quote quoted step, step_quoted quote quoted' step', quoted, quoted']
      exact ⟨rfl, fun _ => Nat.add_comm _ _⟩

/-- Two readings of a text keep whether they differ in quotes and, if they do not, by how many round
brackets they differ. -/
theorem scan_alike {state other next next' : Brackets} {text : List Char}
    (scan : state.scan text = some next) (scan' : other.scan text = some next') :
    (next.quoted ^^ next'.quoted) = (state.quoted ^^ other.quoted) ∧
      (state.quoted = other.quoted → next.round + other.round = next'.round + state.round) := by
  induction text generalizing state other with
  | nil =>
    cases scan
    cases scan'
    exact ⟨rfl, fun _ => Nat.add_comm _ _⟩
  | cons c rest ih =>
    obtain ⟨between, step, scan⟩ := scan_cons_eq_some_iff.1 scan
    obtain ⟨between', step', scan'⟩ := scan_cons_eq_some_iff.1 scan'
    obtain ⟨quotes, rounds⟩ := step_alike step step'
    obtain ⟨quotes', rounds'⟩ := ih scan scan'
    refine ⟨quotes'.trans quotes, fun same => ?_⟩
    have first := rounds same
    have second := rounds' (by simpa [same] using quotes)
    omega

end Brackets

namespace Cut

variable {isMark : Char → Bool} {state next : Brackets} {read : List Char}

/-- The cut of a text that goes on. -/
def extend (cut : Cut) (rest : List Char) : Cut :=
  { cut with right := cut.right ++ rest }

/-- A text that goes on is cut where it is cut, and where the rest is. -/
theorem closedCuts_append {a : List Char} (scan : state.scan a = some next) (b : List Char) :
    closedCuts isMark state read (a ++ b) =
      (closedCuts isMark state read a).map (extend · b) ++
        closedCuts isMark next (a.reverse ++ read) b := by
  induction a generalizing state read with
  | nil =>
    cases scan
    rfl
  | cons c rest ih =>
    rw [Brackets.scan] at scan
    cases step : state.step c with
    | none =>
      rw [step] at scan
      cases scan
    | some between =>
      rw [step] at scan
      have later := @ih _ (c :: read) scan
      rw [List.cons_append, closedCuts, closedCuts, step, List.reverse_cons, List.append_assoc]
      dsimp only
      rw [later]
      split <;> simp [extend]

/-- A character that nothing is open around and that is no mark is no cut. -/
theorem closedCuts_cons_of_not_mark {c : Char} (unmarked : isMark c = false)
    (step : state.step c = some next) (rest : List Char) :
    closedCuts isMark state read (c :: rest) = closedCuts isMark next (c :: read) rest := by
  rw [closedCuts, step, unmarked]
  rfl

/-- A character is no cut while something is open. -/
theorem closedCuts_cons_of_open {c : Char} (opened : state ≠ .closed)
    (step : state.step c = some next) (rest : List Char) :
    closedCuts isMark state read (c :: rest) = closedCuts isMark next (c :: read) rest := by
  rw [closedCuts, step, decide_eq_false opened, Bool.and_false, Bool.false_and]
  rfl

/-- A character that opens something is no cut. -/
theorem closedCuts_cons_of_opening {c : Char} (opening : next ≠ .closed)
    (step : Brackets.closed.step c = some next) (rest : List Char) :
    closedCuts isMark .closed read (c :: rest) = closedCuts isMark next (c :: read) rest := by
  rw [closedCuts, step, decide_eq_false (fun same => opening (Option.some.inj same)), Bool.and_false]
  rfl

/-- A marked character that is no bracket is a cut where nothing is open. -/
theorem closedCuts_cons_of_mark {c : Char} (marked : isMark c = true)
    (plain : c ∉ ['"', '(', '[', '{', ')', ']', '}']) (rest : List Char) :
    closedCuts isMark .closed read (c :: rest) =
      ⟨read, c, rest⟩ :: closedCuts isMark .closed (c :: read) rest := by
  rw [closedCuts, Brackets.step_plain plain, marked]
  rfl

/-- Nothing is cut inside one more round bracket. -/
theorem closedCuts_nest {a : List Char} (scan : state.scan a = some next) (b : List Char) :
    closedCuts isMark state.nest read (a ++ b) =
      closedCuts isMark next.nest (a.reverse ++ read) b := by
  induction a generalizing state read with
  | nil =>
    cases scan
    rfl
  | cons c rest ih =>
    rw [Brackets.scan] at scan
    cases step : state.step c with
    | none =>
      rw [step] at scan
      cases scan
    | some between =>
      rw [step] at scan
      have opened : state.nest ≠ .closed := fun same =>
        absurd (congrArg Brackets.round same) (Nat.succ_ne_zero _)
      rw [List.cons_append, closedCuts_cons_of_open opened (Brackets.step_nest step), ih scan,
        List.reverse_cons, List.append_assoc]
      rfl

/-- Nothing is cut in a text that leaves open what is open. -/
theorem closedCuts_of_open {a : List Char} (opened : state ≠ .closed)
    (stays : ∀ c ∈ a, state.step c = some state) (b : List Char) :
    closedCuts isMark state read (a ++ b) = closedCuts isMark state (a.reverse ++ read) b := by
  induction a generalizing read with
  | nil => rfl
  | cons c rest ih =>
    rw [List.cons_append, closedCuts_cons_of_open opened (stays c (by simp)),
      ih fun other mem => stays other (by simp [mem]), List.reverse_cons, List.append_assoc]
    rfl

/-- Whether a text is balanced and has no cuts. -/
structure Quiet (isMark : Char → Bool) (text : List Char) : Prop where
  balanced : Brackets.closed.scan text = some .closed
  uncut : ∀ read, closedCuts isMark .closed read text = []

/-- The cuts of a text after a quiet one. -/
theorem Quiet.closedCuts_append {a : List Char} (quiet : Quiet isMark a) (b : List Char) :
    closedCuts isMark .closed read (a ++ b) = closedCuts isMark .closed (a.reverse ++ read) b := by
  rw [Cut.closedCuts_append quiet.balanced, quiet.uncut]
  rfl

/-- Quiet texts make a quiet text. -/
theorem Quiet.append {a b : List Char} (first : Quiet isMark a) (second : Quiet isMark b) :
    Quiet isMark (a ++ b) where
  balanced := (Brackets.scan_append_of first.balanced b).trans second.balanced
  uncut _ := (first.closedCuts_append b).trans (second.uncut _)

/-- A text without marks and brackets is quiet. -/
theorem quiet_of_unmarked {text : List Char}
    (plain : ∀ c ∈ text, isMark c = false ∧ c ∉ ['"', '(', '[', '{', ')', ']', '}']) :
    Quiet isMark text where
  balanced := Brackets.scan_plain (fun c mem => (plain c mem).2) _
  uncut read := by
    induction text generalizing read with
    | nil => rfl
    | cons c rest ih =>
      rw [closedCuts_cons_of_not_mark (plain c (by simp)).1
        (Brackets.step_plain (plain c (by simp)).2 _)]
      exact ih (fun other mem => plain other (by simp [mem])) _

/-- Fewer marks make fewer cuts. -/
theorem closedCuts_sublist {isMark' : Char → Bool}
    (fewer : ∀ c, isMark' c = true → isMark c = true) (text : List Char) :
    (closedCuts isMark' state read text).Sublist (closedCuts isMark state read text) := by
  induction text generalizing state read with
  | nil => exact .slnil
  | cons c rest ih =>
    rw [closedCuts, closedCuts]
    cases step : state.step c with
    | none =>
      dsimp only
      split
      · rename_i both
        simp at both
      · exact List.nil_sublist _
    | some next =>
      dsimp only
      by_cases marked : isMark' c = true
      · rw [marked, fewer c marked]
        split
        · exact ih.cons_cons _
        · exact ih
      · rw [Bool.not_eq_true] at marked
        simp only [marked, Bool.false_and, Bool.false_eq_true, if_false]
        split
        · exact ih.cons _
        · exact ih

/-- A quiet text is quiet for fewer marks. -/
theorem Quiet.of_fewer {text : List Char} {isMark' : Char → Bool} (quiet : Quiet isMark text)
    (fewer : ∀ c, isMark' c = true → isMark c = true) : Quiet isMark' text where
  balanced := quiet.balanced
  uncut read := List.sublist_nil.1 (quiet.uncut read ▸ closedCuts_sublist fewer text)

/-- A balanced text in round brackets is quiet. -/
theorem quiet_bracketed {text : List Char} (balanced : Brackets.closed.scan text = some .closed) :
    Quiet isMark ('(' :: (text ++ [')'])) where
  balanced := Brackets.scan_bracketed balanced
  uncut _ := by
    have opened : Brackets.closed.nest ≠ .closed := by decide
    rw [closedCuts_cons_of_opening opened rfl, closedCuts_nest balanced,
      @closedCuts_cons_of_open _ _ .closed _ _ opened rfl]
    rfl

/-- A text between characters that open and close something is quiet, if it leaves that open. -/
theorem quiet_enclosed (state : Brackets) {opening closing : Char} {text : List Char}
    (opens : Brackets.closed.step opening = some state) (opened : state ≠ .closed)
    (stays : ∀ c ∈ text, state.step c = some state) (closes : state.step closing = some .closed) :
    Quiet isMark (opening :: (text ++ [closing])) where
  balanced := by
    have scan : state.scan text = some state := by
      clear opens
      induction text with
      | nil => rfl
      | cons c rest ih =>
        rw [Brackets.scan, stays c (by simp)]
        exact ih fun other mem => stays other (by simp [mem])
    rw [Brackets.scan, opens]
    show state.scan (text ++ [closing]) = some .closed
    rw [Brackets.scan_append_of scan, Brackets.scan, closes]
    rfl
  uncut _ := by
    rw [closedCuts_cons_of_opening opened opens, closedCuts_of_open opened stays,
      closedCuts_cons_of_open opened closes]
    rfl

/-- A text in quotes is quiet. -/
theorem quiet_quoted {text : List Char} (inside : '"' ∉ text) :
    Quiet isMark ('"' :: (text ++ ['"'])) := by
  have stays : ∀ c ∈ text, Brackets.step ⟨0, 0, 0, true⟩ c = some ⟨0, 0, 0, true⟩ := by
    intro c mem
    unfold Brackets.step
    rw [if_neg fun same => inside (by simpa [same] using mem)]
    rfl
  exact quiet_enclosed ⟨0, 0, 0, true⟩ rfl (by decide) stays rfl

end Cut

end Shadeloom
