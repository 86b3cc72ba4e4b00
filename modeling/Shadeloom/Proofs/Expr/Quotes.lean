import Mathlib
import Shadeloom.Proofs.Expr.Sameness
/-!
# Names in quotes

Some settings of images and point densities are names, which stand in quotes. Trees that are the
same may still differ in whether a name stands in quotes or is the number that the quotes stand for;
trees that match do not.
-/
namespace Shadeloom

/-- The places of the values among the settings of a call that are names: the first one, and the
fourth one for the vertices of an object. -/
def Function.namePlaces (function : Function) (settings : List Expr) : List Nat :=
  match function.role with
  | .image _ => [0]
  | .pointDensity _ =>
    match (settings.filterMap Expr.word?).foldlM PointDensity.readWord .standard with
    | .ok density => if density.source = .object then [0, 3] else [0]
    | .error _ => []
  | _ => []

/-- The values among settings with their places. -/
def Expr.values (settings : List Expr) : List (Expr × Nat) :=
  (settings.filter fun setting => setting.word?.isNone).zipIdx

/-- The settings of a call of a function that are names. -/
def Function.names (function : Function) (settings : List Expr) : List Expr :=
  ((Expr.values settings).filter fun value => value.2 ∈ function.namePlaces settings).map Prod.fst

namespace Expr

/-- The settings at the root of a tree that are names. -/
def names (e : Expr) : List Expr :=
  match e.operation?.bind Function.find? with
  | some function => function.names e.operands.tail
  | none => []

/-- Whether a setting is a literal in quotes. -/
def isQuoted : Expr → Bool
  | value literal => literal.isQuoted
  | _ => false

/-- Which of the names in a tree stand in quotes, from left to right. -/
def quotes (e : Expr) : List Bool :=
  e.preorder.flatMap fun part => part.names.map isQuoted

/-- Whether trees are the same, and the same names in them stand in quotes. -/
structure Matches (e e' : Expr) : Prop where
  same : e.same e' = true
  quotes : e.quotes = e'.quotes

section

variable {e e' : Expr}

/-- Settings that are the same have the same names. -/
theorem namePlaces_of_same (function : Function) {es es' : List Expr} (same : SameAll es es') :
    function.namePlaces es = function.namePlaces es' := by
  unfold Function.namePlaces
  rw [words_of_same same]

/-- Settings that are the same have values that are the same. -/
theorem sameAll_filter {es es' : List Expr} (same : SameAll es es') :
    SameAll (es.filter fun e => e.word?.isNone) (es'.filter fun e => e.word?.isNone) := by
  induction same with
  | nil => exact .nil
  | cons head tail ih =>
    rw [List.filter_cons, List.filter_cons, word?_of_same head]
    split
    · exact .cons head ih
    · exact ih

/-- Trees that are the same have as many names. -/
theorem length_names_of_same (same : e.same e' = true) : e.names.length = e'.names.length := by
  have counted (places : List Nat) {es es' : List Expr} (same : SameAll es es') (first : Nat) :
      ((es.zipIdx first).filter fun value => value.2 ∈ places).length =
        ((es'.zipIdx first).filter fun value => value.2 ∈ places).length := by
    induction same generalizing first with
    | nil => rfl
    | cons head tail ih =>
      rw [List.zipIdx_cons, List.zipIdx_cons, List.filter_cons, List.filter_cons]
      split
      · rw [List.length_cons, List.length_cons, ih]
      · exact ih (first + 1)
  unfold names
  rw [operation?_of_same same]
  cases e'.operation?.bind Function.find? with
  | none => rfl
  | some function =>
    have settings := sameAll_tail (isPartwise_same.operands same)
    show (function.names e.operands.tail).length = (function.names e'.operands.tail).length
    unfold Function.names
    rw [namePlaces_of_same function settings, List.length_map, List.length_map]
    exact counted _ (sameAll_filter settings) 0

/-- What takes no names has none. -/
theorem names_of_isNameless (nameless : e.IsNameless) : e.names = [] := by
  unfold names
  cases called : e.operation?.bind Function.find? with
  | none => rfl
  | some function =>
    obtain ⟨name, named, found⟩ := Option.bind_eq_some_iff.1 called
    have plain := nameless name function named found
    have none : function.namePlaces e.operands.tail = [] := by
      unfold Function.takesNames at plain
      unfold Function.namePlaces
      cases role : function.role <;> simp [role] at plain ⊢
    simp [Function.names, none]

/-- Nothing is quoted in the missing operand. -/
@[simp] theorem quotes_empty : empty.quotes = [] := rfl

/-- Nothing is quoted as a name in a variable. -/
@[simp] theorem quotes_var (v : Variable) : (var v).quotes = [] := rfl

/-- A literal alone is no name. -/
@[simp] theorem quotes_value (literal : Literal) : (value literal).quotes = [] := rfl

/-- What is quoted in an operation is quoted in its sides. -/
@[simp] theorem quotes_binary (op : BinaryOp) (lhs rhs : Expr) :
    (binary op lhs rhs).quotes = lhs.quotes ++ rhs.quotes := by
  simp [quotes, preorder, names_of_isNameless (isNameless_binary op lhs rhs)]

/-- What is quoted in a vector is quoted in its components. -/
@[simp] theorem quotes_combine (x : Expr) (y z : Option Expr) :
    (combine x y z).quotes =
      x.quotes ++ (y.elim [] Expr.quotes ++ z.elim [] Expr.quotes) := by
  cases y <;> cases z <;>
    simp [quotes, preorder, preorderOf, names_of_isNameless (isNameless_combine _ _ _)]

/-- What is quoted in a call is a name of its own or quoted in its arguments. -/
@[simp] theorem quotes_call (function : String) (args : Expr) :
    (call function args).quotes = (call function args).names.map isQuoted ++ args.quotes := by
  simp [quotes, preorder]

/-- Trees that are the same have as many names in all their parts. -/
theorem length_quotes_of_same (same : e.same e' = true) : e.quotes.length = e'.quotes.length := by
  induction e generalizing e' with
  | empty => cases e' <;> first | rfl | cases same
  | var v => cases e' <;> first | rfl | cases same
  | value literal => cases e' <;> first | rfl | cases same
  | combine x y z hx hy hz =>
    cases e' with
    | combine x' y' z' =>
      simp only [Expr.same, Bool.and_eq_true] at same
      obtain ⟨⟨first, second⟩, third⟩ := same
      have optional {y y' : Option Expr} (same : sameComponent y y' = true)
          (ih : ∀ e ∈ y, ∀ e', e.same e' = true → e.quotes.length = e'.quotes.length) :
          (y.elim [] Expr.quotes).length = (y'.elim [] Expr.quotes).length := by
        cases component_of_same same with
        | none => rfl
        | some same => exact ih _ rfl _ same
      simp [hx first, optional second (fun e mem e' same => hy e mem same),
        optional third (fun e mem e' same => hz e mem same)]
    | _ => cases same
  | binary op lhs rhs hl hr =>
    cases e' with
    | binary op' lhs' rhs' =>
      simp only [Expr.same, Bool.and_eq_true, decide_eq_true_eq] at same
      simp [hl same.1.2, hr same.2]
    | _ => cases same
  | call function args ha =>
    cases e' with
    | call function' args' =>
      have names := length_names_of_same same
      simp only [Expr.same, Bool.and_eq_true, decide_eq_true_eq] at same
      simp [names, ha same.2]
    | _ => cases same

/-- The names of trees that match stand in quotes alike. -/
theorem Matches.names (matched : e.Matches e') : e.names.map isQuoted = e'.names.map isQuoted := by
  have inner (e : Expr) : e.quotes = e.names.map isQuoted ++ (e.preorder.tail.flatMap fun part =>
      part.names.map isQuoted) := by
    cases e <;> rfl
  have quotes := matched.quotes
  rw [inner e, inner e'] at quotes
  exact (List.append_inj quotes (by
    rw [List.length_map, List.length_map, length_names_of_same matched.same])).1

/-- Parts of trees that match match. -/
theorem isPartwise_matches : IsPartwise Matches where
  same matched := matched.same
  sides matched := by
    obtain ⟨same, quotes⟩ := matched
    rw [quotes_binary, quotes_binary] at quotes
    obtain ⟨left, right⟩ := isPartwise_same.sides same
    obtain ⟨before, behind⟩ := List.append_inj quotes (length_quotes_of_same left)
    exact ⟨⟨left, before⟩, ⟨right, behind⟩⟩
  inner matched := by
    have quotes := matched.quotes
    rw [quotes_call, quotes_call, matched.names] at quotes
    exact ⟨isPartwise_same.inner matched.same, List.append_cancel_left quotes⟩
  components {x x' y y' z z'} matched := by
    obtain ⟨same, quotes⟩ := matched
    rw [quotes_combine, quotes_combine] at quotes
    have optional {y y' : Option Expr} (same : Option.Rel (fun e e' => e.same e' = true) y y') :
        (y.elim [] Expr.quotes).length = (y'.elim [] Expr.quotes).length ∧
          (y.elim [] Expr.quotes = y'.elim [] Expr.quotes → Option.Rel Matches y y') := by
      cases same with
      | none => exact ⟨rfl, fun _ => .none⟩
      | some same => exact ⟨length_quotes_of_same same, fun quotes => .some ⟨same, quotes⟩⟩
    obtain ⟨first, second, third⟩ := isPartwise_same.components same
    obtain ⟨left, rest⟩ := List.append_inj quotes (length_quotes_of_same first)
    obtain ⟨middle, right⟩ := List.append_inj rest (optional second).1
    exact ⟨⟨first, left⟩, (optional second).2 middle, (optional third).2 right⟩

/-- Chains of elements that match match. -/
theorem matches_chain {es es' : List Expr} (matched : List.Forall₂ Matches es es') :
    (chain es).Matches (chain es') := by
  refine ⟨chain_same (matched.imp fun _ _ each => each.same), ?_⟩
  induction matched with
  | nil => rfl
  | cons head tail ih =>
    cases tail with
    | nil => exact head.quotes
    | cons next more => simpa [chain, head.quotes] using ih

end

end Expr

end Shadeloom
