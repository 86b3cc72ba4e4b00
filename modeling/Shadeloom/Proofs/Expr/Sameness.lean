import Mathlib
import Shadeloom.Build.Recipe
import Shadeloom.Proofs.Expr.Parts
import Shadeloom.Proofs.Results
/-!
# Trees that are the same

Trees that differ at most in how numbers are written have the same operation at the root, and their
operands are the same one by one. This goes for every relation between such trees that goes over to
their parts.
-/
namespace Shadeloom

namespace Function

/-- Whether some settings of a function are names in quotes. -/
def takesNames (function : Function) : Bool :=
  match function.role with
  | .image _ => true
  | .pointDensity _ => true
  | _ => false

end Function

namespace Expr

/-- Whether trees are the same one by one. -/
abbrev SameAll : List Expr → List Expr → Prop :=
  List.Forall₂ fun a b => a.same b = true

/-- Whether a tree is no call of a function that takes names. -/
def IsNameless (e : Expr) : Prop :=
  ∀ name function, e.operation? = some name → Function.find? name = some function →
    function.takesNames = false

/-- Whether a tree is no literal of a zero but a given one and takes no names. -/
def IsRegular (zero : Float) (e : Expr) : Prop :=
  e.ZeroIs zero ∧ e.IsNameless

/-- An operator takes no names. -/
theorem isNameless_binary (op : BinaryOp) (lhs rhs : Expr) : (binary op lhs rhs).IsNameless := by
  intro name function same found
  cases same
  have plain : (Function.find? op.symbol).all (fun function => !function.takesNames) = true := by
    cases op <;> decide +kernel
  rw [found] at plain
  simpa using plain

/-- A comma calls nothing that takes names. -/
theorem isNameless_comma (lhs rhs : Expr) : (binary .comma lhs rhs).IsNameless :=
  isNameless_binary .comma lhs rhs

/-- A vector takes no names. -/
theorem isNameless_combine (x : Expr) (y z : Option Expr) : (combine x y z).IsNameless := by
  intro name function same found
  cases same
  have plain : (Function.find? "combine").all (fun function => !function.takesNames) = true := by
    decide +kernel
  rw [found] at plain
  simpa using plain

/-- A call of a scalar operation takes no names. -/
theorem isNameless_math {function : Function} {op : MathOp}
    (found : Function.find? function.name = some function) (role : function.role = .math op)
    (args : Expr) : (call function.name args).IsNameless := by
  intro name other called found'
  cases called
  cases found.symm.trans found'
  simp [Function.takesNames, role]

/-- Whether a tree is regular is seen at its root. -/
theorem isRootwise_isRegular (zero : Float) : IsRootwise (IsRegular zero) where
  comma lhs rhs := ⟨trivial, isNameless_comma lhs rhs⟩
  call e name args regular called := by
    refine ⟨trivial, fun name' function same found => ?_⟩
    cases same
    exact regular.2 name function called found

section

variable {e e' : Expr}

/-- Trees that are the same one by one are so behind the first. -/
theorem sameAll_tail {es es' : List Expr} (same : SameAll es es') : SameAll es.tail es'.tail := by
  cases same with
  | nil => exact .nil
  | cons head tail => exact tail

/-- Trees that are the same are both missing or both there. -/
theorem isEmpty_of_same (same : e.same e' = true) : e.isEmpty = e'.isEmpty := by
  cases e <;> cases e' <;> simp_all [Expr.same, isEmpty]

/-- Trees that are the same one by one are missing or there one by one. -/
theorem any_isEmpty_of_same {es es' : List Expr} (same : SameAll es es') :
    es.any isEmpty = es'.any isEmpty := by
  induction same with
  | nil => rfl
  | cons head tail ih => rw [List.any_cons, List.any_cons, isEmpty_of_same head, ih]

/-- Components that are the same are both missing, or both there and the same. -/
theorem component_of_same {y y' : Option Expr} (same : sameComponent y y' = true) :
    Option.Rel (fun e e' => e.same e' = true) y y' := by
  cases y <;> cases y' <;> first | exact .none | exact .some same | cases same

/-- Trees that are the same have the same operation. -/
theorem operation?_of_same (same : e.same e' = true) : e.operation? = e'.operation? := by
  cases e <;> cases e' <;> simp_all [Expr.same, operation?]

/-- Chains of trees that are the same are the same. -/
theorem chain_same {es es' : List Expr} (same : SameAll es es') :
    (chain es).same (chain es') = true := by
  induction same with
  | nil => rfl
  | cons head tail ih =>
    cases tail with
    | nil => exact head
    | cons next more => simpa [chain, Expr.same, head] using ih

end

/-- Whether a relation between trees that are the same goes over to their parts. -/
structure IsPartwise (related : Expr → Expr → Prop) : Prop where
  same : ∀ {e e'}, related e e' → e.same e' = true
  sides : ∀ {op lhs rhs lhs' rhs'}, related (binary op lhs rhs) (binary op lhs' rhs') →
    related lhs lhs' ∧ related rhs rhs'
  inner : ∀ {function args args'}, related (call function args) (call function args') →
    related args args'
  components : ∀ {x x' y y' z z'}, related (combine x y z) (combine x' y' z') →
    related x x' ∧ Option.Rel related y y' ∧ Option.Rel related z z'

namespace IsPartwise

variable {related : Expr → Expr → Prop} (partwise : IsPartwise related) {e e' : Expr}
include partwise

/-- A relation goes over to the elements of chains. -/
theorem arguments (here : related e e') : List.Forall₂ related e.arguments e'.arguments := by
  have same := partwise.same here
  fun_induction Expr.arguments e generalizing e' with
  | case1 lhs rhs ih =>
    cases e' with
    | binary op lhs' rhs' =>
      simp only [Expr.same, Bool.and_eq_true, decide_eq_true_eq] at same
      obtain ⟨⟨rfl, -⟩, right⟩ := same
      obtain ⟨left, rest⟩ := partwise.sides here
      exact .cons left (ih rest right)
    | _ => cases same
  | case2 e notChain =>
    have alone : e'.arguments = [e'] := by
      cases e' with
      | binary op lhs' rhs' =>
        cases e with
        | binary op' lhs rhs =>
          simp only [Expr.same, Bool.and_eq_true, decide_eq_true_eq] at same
          obtain ⟨⟨rfl, -⟩, -⟩ := same
          cases op' with
          | comma => exact absurd rfl (notChain lhs rhs)
          | _ => rfl
        | _ => cases same
      | _ => rfl
    rw [alone]
    exact .cons here .nil

/-- A relation goes over to operands. -/
theorem operands (here : related e e') : List.Forall₂ related e.operands e'.operands := by
  have same := partwise.same here
  cases e with
  | empty => cases e' <;> first | exact .nil | cases same
  | var v => cases e' <;> first | exact .nil | cases same
  | value literal => cases e' <;> first | exact .nil | cases same
  | combine x y z =>
    cases e' with
    | combine x' y' z' =>
      obtain ⟨first, second, third⟩ := partwise.components here
      refine .cons first ?_
      cases second with
      | none =>
        cases third with
        | none => exact .nil
        | some third => exact .cons third .nil
      | some second =>
        cases third with
        | none => exact .cons second .nil
        | some third => exact .cons second (.cons third .nil)
    | _ => cases same
  | binary op lhs rhs =>
    cases e' with
    | binary op' lhs' rhs' =>
      simp only [Expr.same, Bool.and_eq_true, decide_eq_true_eq] at same
      obtain ⟨⟨rfl, -⟩, -⟩ := same
      obtain ⟨left, right⟩ := partwise.sides here
      show List.Forall₂ related (if op.isStructural then [lhs, rhs] else lhs :: rhs.arguments)
        (if op.isStructural then [lhs', rhs'] else lhs' :: rhs'.arguments)
      split
      · exact .cons left (.cons right .nil)
      · exact .cons left (partwise.arguments right)
    | _ => cases same
  | call function args =>
    cases e' with
    | call function' args' =>
      simp only [Expr.same, Bool.and_eq_true, decide_eq_true_eq] at same
      obtain ⟨rfl, -⟩ := same
      exact partwise.arguments (partwise.inner here)
    | _ => cases same

end IsPartwise

/-- Parts of trees that are the same are the same. -/
theorem isPartwise_same : IsPartwise fun e e' => e.same e' = true where
  same here := here
  sides here := by
    simp only [Expr.same, Bool.and_eq_true, decide_eq_true_eq] at here
    exact ⟨here.1.2, here.2⟩
  inner here := by
    simp only [Expr.same, Bool.and_eq_true, decide_eq_true_eq] at here
    exact here.2
  components here := by
    simp only [Expr.same, Bool.and_eq_true] at here
    exact ⟨here.1.1, component_of_same here.1.2, component_of_same here.2⟩

/-- Whether trees are the same does not depend on their order. -/
theorem same_comm (e e' : Expr) : e.same e' = e'.same e := by
  have optional {y : Option Expr} (ih : ∀ e ∈ y, ∀ e', e.same e' = e'.same e) (y' : Option Expr) :
      sameComponent y y' = sameComponent y' y := by
    cases y <;> cases y' <;> first | rfl | exact ih _ rfl _
  induction e generalizing e' with
  | empty => cases e' <;> rfl
  | var v =>
    cases e' with
    | var v' => simp [Expr.same, eq_comm]
    | _ => rfl
  | value literal =>
    cases e' with
    | value literal' => exact Literal.same_comm literal literal'
    | _ => rfl
  | combine x y z hx hy hz =>
    cases e' with
    | combine x' y' z' => simp only [Expr.same, hx x', optional hy y', optional hz z']
    | _ => rfl
  | binary op lhs rhs hl hr =>
    cases e' with
    | binary op' lhs' rhs' => simp only [Expr.same, hl lhs', hr rhs', eq_comm]
    | _ => rfl
  | call function args ha =>
    cases e' with
    | call function' args' => simp only [Expr.same, ha args', eq_comm]
    | _ => rfl

/-- What is the same as something that is the same as a third tree is the same as that. -/
theorem same_trans {a b c : Expr} (left : a.same b = true) (right : b.same c = true) :
    a.same c = true := by
  have optional {y : Option Expr}
      (ih : ∀ e ∈ y, ∀ {b c : Expr}, e.same b = true → b.same c = true → e.same c = true)
      {y' y'' : Option Expr} (left : sameComponent y y' = true)
      (right : sameComponent y' y'' = true) : sameComponent y y'' = true := by
    cases component_of_same left with
    | none => exact right
    | some first =>
      cases component_of_same right with
      | some second => exact ih _ rfl first second
  induction a generalizing b c with
  | empty => cases b <;> first | exact right | cases left
  | var v =>
    cases b with
    | var v' =>
      simp only [Expr.same, decide_eq_true_eq] at left
      exact left ▸ right
    | _ => cases left
  | value literal =>
    cases b <;> first | cases left | skip
    cases c <;> first | cases right | exact Literal.same_trans left right
  | combine x y z hx hy hz =>
    cases b <;> first | cases left | skip
    cases c <;> first | cases right | skip
    simp only [Expr.same, Bool.and_eq_true] at left right ⊢
    exact ⟨⟨hx left.1.1 right.1.1, optional hy left.1.2 right.1.2⟩, optional hz left.2 right.2⟩
  | binary op lhs rhs hl hr =>
    cases b <;> first | cases left | skip
    cases c <;> first | cases right | skip
    simp only [Expr.same, Bool.and_eq_true, decide_eq_true_eq] at left right ⊢
    exact ⟨⟨left.1.1.trans right.1.1, hl left.1.2 right.1.2⟩, hr left.2 right.2⟩
  | call function args ha =>
    cases b <;> first | cases left | skip
    cases c <;> first | cases right | skip
    simp only [Expr.same, Bool.and_eq_true, decide_eq_true_eq] at left right ⊢
    exact ⟨left.1.trans right.1, ha left.2 right.2⟩

/-- Trees that are the same are the same as other trees that are the same, or not. -/
theorem same_congr {a b e e' : Expr} (left : a.same b = true) (right : e.same e' = true) :
    a.same e = b.same e' := by
  refine Bool.eq_iff_iff.2 ⟨fun both => ?_, fun both => ?_⟩
  · exact same_trans (same_trans (same_comm a b ▸ left) both) right
  · exact same_trans (same_trans left both) (same_comm e e' ▸ right)

section

variable {e e' : Expr}

/-- Arguments that are the same are the same word. -/
theorem word?_of_same (same : e.same e' = true) : e.word? = e'.word? := by
  cases e with
  | var v =>
    cases e' with
    | var v' =>
      simp only [Expr.same, decide_eq_true_eq] at same
      rw [same]
    | _ => cases same
  | _ => cases e' <;> first | rfl | cases same

/-- Arguments that are the same are both vectors or both not. -/
theorem isCombine_of_same (same : e.same e' = true) : e.isCombine = e'.isCombine := by
  cases e <;> cases e' <;> simp_all [Expr.same, isCombine]

/-- Settings that are the same have the same words. -/
theorem words_of_same {es es' : List Expr} (same : SameAll es es') :
    es.filterMap word? = es'.filterMap word? := by
  induction same with
  | nil => rfl
  | cons head tail ih => rw [List.filterMap_cons, List.filterMap_cons, word?_of_same head, ih]

end

end Expr

end Shadeloom
