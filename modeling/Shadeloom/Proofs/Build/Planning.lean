import Mathlib
import Shadeloom.Build.Recipe
import Shadeloom.Proofs.Build.Doubles
import Shadeloom.Proofs.Build.Likeness
/-!
# Plans of trees that are alike

Trees that are alike have the same plan but for a change of doubles: the same node is made, it is fed
at the same places, and what feeds it is alike again. Trees of a source that are the same and take no
names are alike without any change.
-/
namespace Shadeloom

open Shadeloom.Expr

namespace Recipe

/-- Whether operands go to the same places and are alike one by one. -/
abbrev OperandsAlike (alike : Expr → Expr → Prop) : List (Nat × Expr) → List (Nat × Expr) → Prop :=
  List.Forall₂ fun a b => a.1 = b.1 ∧ alike a.2 b.2

/-- Whether recipes make nodes that are equal after a change of doubles, and feed them with trees
that are alike. -/
structure Alike (f : Float → Float) (alike : Expr → Expr → Prop) (a b : Recipe) : Prop where
  node : a.node.mapDoubles f = b.node.mapDoubles f
  operands : OperandsAlike alike a.operands b.operands
  output : a.output = b.output

section

variable {f : Float → Float} {alike : Expr → Expr → Prop} {es es' : List Expr}

/-- Trees that are alike are alike at each place when they are fed in order. -/
theorem operandsAlike_zipIdx (here : List.Forall₂ alike es es') (first : Nat) :
    OperandsAlike alike ((es.zipIdx first).map Prod.swap) ((es'.zipIdx first).map Prod.swap) := by
  induction here generalizing first with
  | nil => exact .nil
  | cons head tail ih => exact .cons ⟨rfl, head⟩ (ih (first + 1))

/-- Operations that are equal after the change are fed in order alike. -/
theorem alike_inOrder (keeps : KeepsDefaults f) {op op' : NodeOp}
    (same : op.mapDoubles f = op'.mapDoubles f) (first output : Nat)
    (here : List.Forall₂ alike es es') :
    (inOrder op first es output).Alike f alike (inOrder op' first es' output) := by
  refine ⟨?_, operandsAlike_zipIdx here first, rfl⟩
  show (Node.ofOp op).mapDoubles f = (Node.ofOp op').mapDoubles f
  rw [← keeps.ofOp, ← keeps.ofOp, same]

/-- Scalar operations on operands that are alike are made alike. -/
theorem math_concurs (keeps : KeepsDefaults f) (likeness : Likeness f alike) {function : Function}
    {op : MathOp} (found : Function.find? function.name = some function)
    (role : function.role = .math op) (here : List.Forall₂ alike es es') :
    Concur (Alike f alike) (math function op es) (math function op es') := by
  unfold math
  rw [here.length_eq]
  split
  · exact .refused _ _
  · cases here with
    | nil => exact .done (alike_inOrder keeps rfl _ _ .nil)
    | cons first rest =>
      cases rest with
      | nil => exact .done (alike_inOrder keeps rfl _ _ (.cons first .nil))
      | cons second rest =>
        cases rest with
        | nil => exact .done (alike_inOrder keeps rfl _ _ (.cons first (.cons second .nil)))
        | cons third rest =>
          have called := likeness.variadic found role (by simp) (.cons second (.cons third rest))
          exact .done (alike_inOrder keeps rfl _ _ (.cons first (.cons called .nil)))

/-- Operations on operands that are alike are made alike. -/
theorem plain_concurs (keeps : KeepsDefaults f) {function : Function} {op : NodeOp}
    (here : List.Forall₂ alike es es') :
    Concur (Alike f alike) (plain function op es) (plain function op es') := by
  unfold plain
  dsimp only
  rw [here.length_eq]
  split
  · exact .refused _ _
  · exact .done (alike_inOrder keeps rfl _ _ here)

/-- Operations with settings are made alike when their settings set the same after the change. -/
theorem configured_concurs (keeps : KeepsDefaults f) {function : Function}
    {op : List Expr → Except SettingFault NodeOp} (here : List.Forall₂ alike es es')
    (set : Concur (fun a b => a.mapDoubles f = b.mapDoubles f) (op es.tail) (op es'.tail)) :
    Concur (Alike f alike) (configured function es op) (configured function es' op) := by
  unfold configured
  cases here with
  | nil => exact .refused _ _
  | @cons _ _ settings settings' first rest =>
    dsimp only [List.tail_cons] at set ⊢
    generalize op settings = kind at set
    generalize op settings' = kind' at set
    cases set with
    | refused fault fault' => exact .refused _ _
    | done same => exact .done (alike_inOrder keeps same _ _ (.cons first .nil))

/-- Instances with operands that are alike are made alike. -/
theorem ofGroup_concurs {library library' : Library}
    (libraries : Library.mapDoubles f library = Library.mapDoubles f library')
    {function group : String} (here : List.Forall₂ alike es es') :
    Concur (Alike f alike) (ofGroup library function group es)
      (ofGroup library' function group es') := by
  have definitions : (library.get? group).map (Graph.mapDoubles f) =
      (library'.get? group).map (Graph.mapDoubles f) := by
    rw [← Table.get?_mapValues, ← Table.get?_mapValues]
    exact congrArg (fun library => Table.get? library group) libraries
  unfold ofGroup
  cases first : library.get? group <;> cases second : library'.get? group <;>
    simp only [first, second, Option.map_some, Option.map_none, Option.some.injEq,
      reduceCtorEq] at definitions
  · exact .refused _ _
  · rename_i definition definition'
    have node : definition.instanceNode.mapDoubles f = definition'.instanceNode.mapDoubles f := by
      rw [← Graph.instanceNode_mapDoubles, definitions, Graph.instanceNode_mapDoubles]
    have inputs : definition.instanceNode.inputs.length = definition'.instanceNode.inputs.length := by
      rw [← Node.length_inputs_mapDoubles (f := f), node, Node.length_inputs_mapDoubles]
    dsimp only
    rw [inputs, here.length_eq]
    split
    · exact .refused _ _
    · exact .done ⟨node, operandsAlike_zipIdx here 0, rfl⟩

/-- Functions on operands that are alike are made alike, when names are quoted alike. -/
theorem ofFunction_concurs (harmless : Harmless f) (likeness : Likeness f alike)
    {function : Function} (found : Function.find? function.name = some function)
    (here : List.Forall₂ alike es es')
    (quoted : (function.names es.tail).map isQuoted = (function.names es'.tail).map isQuoted) :
    Concur (Alike f alike) (ofFunction function es) (ofFunction function es') := by
  have keeps := harmless.keeps
  have settings : List.Forall₂ alike es.tail es'.tail := by
    cases here with
    | nil => exact .nil
    | cons head tail => exact tail
  unfold ofFunction
  cases role : function.role with
  | math op => exact math_concurs keeps likeness found role here
  | colorRamp =>
    exact configured_concurs keeps here ((ColorRamp.ofArguments_concurs harmless likeness settings).bind
      fun ramp ramp' same => .done (congrArg NodeOp.colorRamp same))
  | image output =>
    exact configured_concurs keeps here
      ((ImageTexture.ofArguments_concurs likeness role settings quoted).bind
        fun texture texture' same => .done (by rw [same]))
  | pointDensity output =>
    exact configured_concurs keeps here
      ((PointDensity.ofArguments_concurs harmless likeness role settings quoted).bind
        fun density density' same => .done (congrArg NodeOp.pointDensity same))
  | sugar => exact .refused _ _
  | directive => exact .refused _ _
  | _ => exact plain_concurs keeps here

/-- Operations on operands that are alike are made alike, when names are quoted alike. -/
theorem ofOperation_concurs (harmless : Harmless f) (likeness : Likeness f alike)
    {library library' : Library}
    (libraries : Library.mapDoubles f library = Library.mapDoubles f library') {name : String}
    (here : List.Forall₂ alike es es')
    (quoted : ∀ function, Function.find? name = some function →
      (function.names es.tail).map isQuoted = (function.names es'.tail).map isQuoted) :
    Concur (Alike f alike) (ofOperation library name es) (ofOperation library' name es') := by
  unfold ofOperation
  rw [any_isEmpty_of_same (here.imp fun _ _ => likeness.same)]
  split
  · exact .refused _ _
  · split
    · exact ofGroup_concurs libraries here
    · cases found : Function.find? name with
      | none => exact .refused _ _
      | some function =>
        have named := Function.name_of_find? found
        exact ofFunction_concurs harmless likeness (named.symm ▸ found) here (quoted function found)

/-- Vectors of components that are alike are made alike. -/
theorem ofCombine_concurs (likeness : Likeness f alike) {x x' : Expr} {y y' z z' : Option Expr}
    (here : alike (combine x y z) (combine x' y' z')) :
    Concur (Alike f alike) (ofCombine x y z) (ofCombine x' y' z') := by
  have empty := any_isEmpty_of_same ((likeness.operands here).imp fun _ _ => likeness.same)
  have operands : OperandsAlike alike (components x y z) (components x' y' z') := by
    obtain ⟨first, second, third⟩ := likeness.components here
    refine .cons ⟨rfl, first⟩ ?_
    cases second with
    | none =>
      cases third with
      | none => exact .nil
      | some third => exact .cons ⟨rfl, third⟩ .nil
    | some second =>
      cases third with
      | none => exact .cons ⟨rfl, second⟩ .nil
      | some third => exact .cons ⟨rfl, second⟩ (.cons ⟨rfl, third⟩ .nil)
  unfold ofCombine
  rw [show (Expr.components x y z).any isEmpty = (Expr.components x' y' z').any isEmpty from empty]
  split
  · exact .refused _ _
  · exact .done ⟨rfl, operands, rfl⟩

/-- Literals that are alike are made alike. -/
theorem ofLiteral_concurs (keeps : KeepsDefaults f) (likeness : Likeness f alike)
    {literal literal' : Literal} (here : alike (.value literal) (.value literal')) :
    Concur (Alike f alike) (ofLiteral literal) (ofLiteral literal') := by
  have numbers := likeness.number here
  unfold ofLiteral
  cases first : literal.number? <;> cases second : literal'.number? <;>
    simp only [first, second, Option.map_some, Option.map_none, Option.some.injEq,
      reduceCtorEq] at numbers
  · exact .refused _ _
  · rename_i x y
    have same : (NodeOp.constant x).mapDoubles f = (NodeOp.constant y).mapDoubles f :=
      congrArg NodeOp.constant numbers
    exact .done (alike_inOrder keeps same 0 0 .nil)

end

end Recipe

namespace Plan

/-- Whether plans read the same variable or make recipes that are alike. -/
inductive Alike (f : Float → Float) (alike : Expr → Expr → Prop) : Plan → Plan → Prop
  | read (v : Variable) : Alike f alike (.read v) (.read v)
  | make {recipe recipe' : Recipe} (made : recipe.Alike f alike recipe') :
    Alike f alike (.make recipe) (.make recipe')

/-- Trees that are alike both have no plan, or have plans that are alike. -/
theorem concurs {f : Float → Float} {alike : Expr → Expr → Prop} (harmless : Harmless f)
    (likeness : Likeness f alike) {library library' : Library}
    (libraries : Library.mapDoubles f library = Library.mapDoubles f library') {e e' : Expr}
    (here : alike e e') : Concur (Alike f alike) (of library e) (of library' e') := by
  have same := likeness.same here
  have operands := likeness.operands here
  have operation (name : String) (called : e.operation? = some name) :
      Concur (Alike f alike) ((Recipe.ofOperation library name e.operands).map .make)
        ((Recipe.ofOperation library' name e'.operands).map .make) := by
    refine (Recipe.ofOperation_concurs harmless likeness libraries operands
      fun function found => ?_).map fun recipe recipe' made => .make made
    have names := likeness.names here
    simpa [Expr.names, ← operation?_of_same same, called, found] using names
  cases e with
  | empty => cases e' <;> first | exact .refused _ _ | cases same
  | var v =>
    cases e' with
    | var v' =>
      simp only [Expr.same, decide_eq_true_eq] at same
      subst same
      exact .done (.read v)
    | _ => cases same
  | value literal =>
    cases e' with
    | value literal' =>
      exact (Recipe.ofLiteral_concurs harmless.keeps likeness here).map fun _ _ made => .make made
    | _ => cases same
  | combine x y z =>
    cases e' with
    | combine x' y' z' =>
      exact (Recipe.ofCombine_concurs likeness here).map fun _ _ made => .make made
    | _ => cases same
  | binary op lhs rhs =>
    cases e' with
    | binary op' lhs' rhs' =>
      simp only [Expr.same, Bool.and_eq_true, decide_eq_true_eq] at same
      obtain ⟨⟨rfl, -⟩, -⟩ := same
      have made := operation op.symbol rfl
      cases op with
      | comma => exact .refused _ _
      | assign => exact .refused _ _
      | _ => exact made
    | _ => cases same
  | call name args =>
    cases e' with
    | call name' args' =>
      simp only [Expr.same, Bool.and_eq_true, decide_eq_true_eq] at same
      obtain ⟨rfl, -⟩ := same
      exact operation name rfl
    | _ => cases same

end Plan

/-- Whether trees that take no names and have but one zero are the same. -/
structure Expr.SameRegular (zero : Float) (e e' : Expr) : Prop where
  same : e.same e' = true
  left : e.Every (IsRegular zero)
  right : e'.Every (IsRegular zero)

variable {zero : Float}

/-- Trees that are the same and regular one by one are so together. -/
theorem sameAll_of_sameRegular {es es' : List Expr} (here : List.Forall₂ (SameRegular zero) es es') :
    SameAll es es' ∧ (∀ e ∈ es, e.Every (IsRegular zero)) ∧
      ∀ e ∈ es', e.Every (IsRegular zero) := by
  induction here with
  | nil => exact ⟨.nil, nofun, nofun⟩
  | cons head tail ih =>
    obtain ⟨same, left, right⟩ := ih
    exact ⟨.cons head.same same, List.forall_mem_cons.2 ⟨head.left, left⟩,
      List.forall_mem_cons.2 ⟨head.right, right⟩⟩

/-- Trees that are the same and regular are alike without a change. -/
theorem likeness_sameRegular : Likeness id (SameRegular zero) where
  same here := here.same
  sides here := by
    obtain ⟨same, left, right⟩ := here
    obtain ⟨first, second⟩ := isPartwise_same.sides same
    rw [every_binary] at left right
    exact ⟨⟨first, left.2.1, right.2.1⟩, ⟨second, left.2.2, right.2.2⟩⟩
  inner here := by
    obtain ⟨same, left, right⟩ := here
    rw [every_call] at left right
    exact ⟨isPartwise_same.inner same, left.2, right.2⟩
  components here := by
    obtain ⟨same, left, right⟩ := here
    obtain ⟨first, second, third⟩ := isPartwise_same.components same
    rw [every_combine] at left right
    refine ⟨⟨first, left.2.1, right.2.1⟩, ?_, ?_⟩
    · cases second with
      | none => exact .none
      | some second => exact .some ⟨second, left.2.2.1 _ rfl, right.2.2.1 _ rfl⟩
    · cases third with
      | none => exact .none
      | some third => exact .some ⟨third, left.2.2.2 _ rfl, right.2.2.2 _ rfl⟩
  number here := by
    rw [Option.map_id, id, id]
    exact Literal.number?_eq_of_same here.left.self.1 here.right.self.1 here.same
  names here := by
    rw [names_of_isNameless here.left.self.2, names_of_isNameless here.right.self.2]
  variadic {function op es es'} found role nonempty here := by
    have every {es : List Expr} (nonempty : es ≠ []) (each : ∀ e ∈ es, e.Every (IsRegular zero)) :
        (call function.name (chain es)).Every (IsRegular zero) :=
      every_call.2 ⟨⟨trivial, isNameless_math found role _⟩,
        every_chain (isRootwise_isRegular zero).comma nonempty each⟩
    obtain ⟨same, left, right⟩ := sameAll_of_sameRegular here
    have nonempty' : es' ≠ [] := by
      rintro rfl
      cases here
      exact nonempty rfl
    refine ⟨?_, every nonempty left, every nonempty' right⟩
    simpa [Expr.same] using chain_same same

/-- Trees that are the same and regular have the same plan. -/
theorem Plan.of_same {library : Library} {e e' : Expr} (here : e.SameRegular zero e') {plan : Plan}
    (planned : of library e = .ok plan) :
    ∃ plan', of library e' = .ok plan' ∧ plan.Alike id (SameRegular zero) plan' := by
  have libraries : Library.mapDoubles id library = Library.mapDoubles id library := rfl
  have concur := Plan.concurs harmless_id likeness_sameRegular libraries here
  rw [planned] at concur
  exact concur.exists_of_ok

end Shadeloom
