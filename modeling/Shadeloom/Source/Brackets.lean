/-!
# Brackets

A text is balanced when each kind of bracket is closed as often as it is opened, never closed
before it is opened, and every double quote has a partner; brackets inside quotes do not count.
The kinds are counted apart, so brackets of different kinds may cross. Reading a text from a
state is reading its parts one after the other.
-/
namespace Shadeloom

/-- The brackets and quotes that are open at a point of a text. -/
@[ext]
structure Brackets where
  round : Nat
  square : Nat
  curly : Nat
  quoted : Bool
  deriving Repr, DecidableEq, Inhabited

namespace Brackets

/-- Nothing is open. -/
def closed : Brackets := ⟨0, 0, 0, false⟩

/-- What is open after one more character; nothing if it closes what is not open. -/
def step (state : Brackets) (c : Char) : Option Brackets :=
  if c = '"' then some { state with quoted := !state.quoted }
  else if state.quoted then some state
  else
    match c with
    | '(' => some { state with round := state.round + 1 }
    | '[' => some { state with square := state.square + 1 }
    | '{' => some { state with curly := state.curly + 1 }
    | ')' => if state.round = 0 then none else some { state with round := state.round - 1 }
    | ']' => if state.square = 0 then none else some { state with square := state.square - 1 }
    | '}' => if state.curly = 0 then none else some { state with curly := state.curly - 1 }
    | _ => some state

/-- What is open after a text. -/
def scan : Brackets → List Char → Option Brackets
  | state, [] => some state
  | state, c :: rest =>
    match state.step c with
    | none => none
    | some next => next.scan rest

/-- Whether every bracket and quote of a text has its partner. -/
def isBalanced (text : List Char) : Bool :=
  closed.scan text = some closed

/-- A text is read by reading its parts one after the other. -/
theorem scan_append (state : Brackets) (a b : List Char) :
    state.scan (a ++ b) = (state.scan a).bind fun next => next.scan b := by
  induction a generalizing state with
  | nil => rfl
  | cons c rest ih =>
    simp only [List.cons_append, scan]
    cases state.step c with
    | none => rfl
    | some next => exact ih next

/-- After a balanced text nothing is open. -/
theorem isBalanced_iff {text : List Char} :
    isBalanced text = true ↔ closed.scan text = some closed := by
  simp [isBalanced]

/-- A balanced beginning does not change whether a text is balanced. -/
theorem isBalanced_append {a : List Char} (balanced : isBalanced a = true) (b : List Char) :
    isBalanced (a ++ b) = isBalanced b := by
  rw [isBalanced_iff] at balanced
  simp [isBalanced, scan_append, balanced]

/-- A character that is neither bracket nor quote leaves everything as it is. -/
theorem step_plain {c : Char} (plain : c ∉ ['"', '(', '[', '{', ')', ']', '}'])
    (state : Brackets) : state.step c = some state := by
  simp only [List.mem_cons, List.not_mem_nil, or_false, not_or] at plain
  obtain ⟨quote, round, square, curly, round', square', curly'⟩ := plain
  unfold step
  split
  · contradiction
  · split
    · rfl
    · split <;> first | contradiction | rfl

end Brackets

end Shadeloom
