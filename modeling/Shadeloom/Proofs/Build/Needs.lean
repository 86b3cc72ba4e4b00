import Mathlib
import Shadeloom.Proofs.Build.Recipes
import Shadeloom.Proofs.Expr.Sameness
/-!
# What a tree needs

To build a tree, the operands of its plan have to be built, and theirs in turn. These are parts of
the tree, but for the calls that take the later arguments of a function of many arguments. Whether
all of them can be built does not depend on a graph: every variable has to be readable, and every
other tree has to have a recipe.
-/
namespace Shadeloom

open Shadeloom.Expr

/-- Whether some operands of a function are settings, which are read and not built. -/
def Function.takesSettings (function : Function) : Bool :=
  match function.role with
  | .colorRamp => true
  | .image _ => true
  | .pointDensity _ => true
  | _ => false

namespace Recipe

/-- Operands that are fed in order are among the trees that are given. -/
theorem mem_of_mem_zipIdx {es : List Expr} {first : Nat} {operand : Nat × Expr}
    (mem : operand ∈ (es.zipIdx first).map Prod.swap) : operand.2 ∈ es := by
  obtain ⟨entry, listed, rfl⟩ := List.mem_map.1 mem
  exact List.fst_mem_of_mem_zipIdx listed

/-- Operands that are fed in order use all variables that they use. -/
theorem covers_inOrder {op : NodeOp} {first output : Nat} {es : List Expr} :
    ∀ e ∈ es, ∀ v ∈ e.usedVariables, ∃ operand ∈ (inOrder op first es output).operands,
      v ∈ operand.2.usedVariables := by
  intro e mem v used
  obtain ⟨place, below, rfl⟩ := List.getElem_of_mem mem
  refine ⟨(first + place, es[place]), List.mem_map.2 ⟨(es[place], first + place), ?_, rfl⟩, used⟩
  rw [List.mem_zipIdx_iff_le_and_getElem?_sub]
  exact ⟨Nat.le_add_right _ _, by rw [Nat.add_sub_cancel_left, List.getElem?_eq_getElem below]⟩

/-- What an instance is fed with are the trees that are given. -/
theorem mem_of_ofGroup {library : Library} {function group : String} {es : List Expr}
    {recipe : Recipe} (made : ofGroup library function group es = .ok recipe)
    {operand : Nat × Expr} (mem : operand ∈ recipe.operands) : operand.2 ∈ es := by
  obtain ⟨definition, -, -, rfl⟩ := ofGroup_eq_ok made
  exact mem_of_mem_zipIdx mem

section

variable {p : Expr → Prop} {es : List Expr} {recipe : Recipe}

/-- What the node of a function is fed with are its operands, or its call on the later ones of more
than two. -/
theorem fed_ofFunction {function : Function} (made : ofFunction function es = .ok recipe) :
    ∀ operand ∈ recipe.operands, operand.2 ∈ es ∨ ∃ op first rest, function.role = .math op ∧
      es = first :: rest ∧ 1 < rest.length ∧ operand.2 = .call function.name (chain rest) := by
  have plain {op : NodeOp} (made : plain function op es = .ok recipe) :
      ∀ operand ∈ recipe.operands, operand.2 ∈ es := by
    obtain ⟨-, rfl⟩ := plain_eq_ok made
    exact fun operand => mem_of_mem_zipIdx
  have configured {op : List Expr → Except SettingFault NodeOp}
      (made : configured function es op = .ok recipe) :
      ∀ operand ∈ recipe.operands, operand.2 ∈ es := by
    obtain ⟨first, settings, kind, rfl, -, rfl⟩ := configured_eq_ok made
    exact fun operand mem => List.mem_cons.2 (.inl (List.mem_singleton.1 (mem_of_mem_zipIdx mem)))
  intro operand mem
  unfold ofFunction at made
  split at made
  · rename_i op role
    obtain ⟨-, rfl⟩ | ⟨first, rest, rfl, many, rfl⟩ := math_eq_ok made
    · exact .inl (mem_of_mem_zipIdx mem)
    · have listed := mem_of_mem_zipIdx mem
      simp only [List.mem_cons, List.not_mem_nil, or_false] at listed
      rcases listed with same | same
      · exact .inl (by simp [same])
      · exact .inr ⟨op, first, rest, role, rfl, many, same⟩
  · exact .inl (plain made operand mem)
  · exact .inl (plain made operand mem)
  · exact .inl (plain made operand mem)
  · exact .inl (plain made operand mem)
  · exact .inl (plain made operand mem)
  · exact .inl (plain made operand mem)
  · exact .inl (configured made operand mem)
  · exact .inl (configured made operand mem)
  · exact .inl (configured made operand mem)
  · cases made
  · cases made

/-- What the node of a tree is fed with are operands of the tree, or the call of its function on the
later ones of more than two. -/
theorem fed_cases {library : Library} {e : Expr}
    (planned : Plan.of library e = .ok (.make recipe)) : ∀ operand ∈ recipe.operands,
    operand.2 ∈ e.operands ∨ ∃ function op first rest,
      Function.find? function.name = some function ∧
        Function.calledGroup? function.name = none ∧ e.operation? = some function.name ∧
        function.role = .math op ∧ e.operands = first :: rest ∧ 1 < rest.length ∧
        operand.2 = .call function.name (chain rest) := by
  intro operand mem
  obtain ⟨literal, rfl, made⟩ | ⟨x, y, z, rfl, made⟩ | ⟨name, called, made⟩ :=
    Plan.make_cases planned
  · obtain ⟨number, -, rfl⟩ := ofLiteral_eq_ok made
    cases mem
  · obtain ⟨-, rfl⟩ := ofCombine_eq_ok made
    have mem : operand = (0, x) ∨ (∃ e ∈ y, (1, e) = operand) ∨ ∃ e ∈ z, (2, e) = operand := by
      simpa [components, eq_comm] using mem
    rcases mem with rfl | ⟨e, here, rfl⟩ | ⟨e, here, rfl⟩
    · simp [Expr.operands, Expr.components]
    · simp [Expr.operands, Expr.components, Option.mem_def.1 here]
    · simp [Expr.operands, Expr.components, Option.mem_def.1 here]
  · obtain ⟨-, ⟨group, -, instance_⟩ | ⟨ungrouped, function, found, applied⟩⟩ :=
      ofOperation_eq_ok made
    · exact .inl (mem_of_ofGroup instance_ mem)
    · obtain rfl := Function.name_of_find? found
      refine (fed_ofFunction applied operand mem).imp_right ?_
      rintro ⟨op, first, rest, role, split, many, same⟩
      exact ⟨function, op, first, rest, found, ungrouped, called, role, split, many, same⟩

/-- What holds of every part of a tree, and of the call of its function on the later ones of more
than two operands, holds of every part of what its node is fed with. -/
theorem every_fed (comma : ∀ lhs rhs, p (.binary .comma lhs rhs)) {library : Library} {e : Expr}
    (call : ∀ function op first rest, Function.find? function.name = some function →
      Function.calledGroup? function.name = none → e.operation? = some function.name →
      function.role = .math op → e.operands = first :: rest → 1 < rest.length →
      p (.call function.name (chain rest)))
    (every : e.Every p) (planned : Plan.of library e = .ok (.make recipe)) :
    ∀ operand ∈ recipe.operands, operand.2.Every p := by
  intro operand mem
  rcases fed_cases planned operand mem with
    listed | ⟨function, op, first, rest, found, group, called, role, split, many, same⟩
  · exact every.operands _ listed
  · have nonempty : rest ≠ [] := List.ne_nil_of_length_pos (Nat.zero_lt_of_lt many)
    rw [same]
    exact every_call.2 ⟨call function op first rest found group called role split many,
      every_chain comma nonempty fun e mem => every.operands e (by simp [split, mem])⟩

/-- What holds of every part of a tree holds of every part of what its node is fed with. -/
theorem every_operands (rootwise : IsRootwise p) {library : Library} {e : Expr} (every : e.Every p)
    (planned : Plan.of library e = .ok (.make recipe)) :
    ∀ operand ∈ recipe.operands, operand.2.Every p :=
  every_fed rootwise.comma (fun _ _ _ _ _ _ named _ _ _ => rootwise.call e _ _ every.self named)
    every planned

end

end Recipe

namespace Expr

/-- The trees that are built when a tree is. -/
inductive Needs (root : Expr) : Expr → Prop
  | root : Needs root root
  | operand {e : Expr} {recipe : Recipe} {operand : Nat × Expr} (needed : Needs root e)
    (planned : Plan.of .empty e = .ok (.make recipe)) (mem : operand ∈ recipe.operands) :
    Needs root operand.2

/-- What is needed for a tree that is needed is needed. -/
theorem Needs.trans {root between e : Expr} (early : root.Needs between) (late : between.Needs e) :
    root.Needs e := by
  induction late with
  | root => exact early
  | operand _ planned mem ih => exact .operand ih planned mem

/-- What holds of every part of a tree holds of every part of what it needs. -/
theorem Every.needs {p : Expr → Prop} (rootwise : IsRootwise p) {root e : Expr}
    (every : root.Every p) (needed : root.Needs e) : e.Every p := by
  induction needed with
  | root => exact every
  | operand _ planned mem ih => exact Recipe.every_operands rootwise ih planned _ mem

/-- Whether a demand for trees is one for all that they need, and all of them are regular, with one
zero. -/
structure IsDemand (needed : Expr → Prop) : Prop where
  operands : ∀ e recipe, needed e → Plan.of .empty e = .ok (.make recipe) →
    ∀ operand ∈ recipe.operands, needed operand.2
  regular : ∃ zero, ∀ e, needed e → e.Every (IsRegular zero)

/-- What some regular trees need is a demand. -/
theorem isDemand_needs {zero : Float} (roots : Expr → Prop)
    (regular : ∀ root, roots root → root.Every (IsRegular zero)) :
    IsDemand fun e => ∃ root, roots root ∧ root.Needs e where
  operands _ _ := fun ⟨root, here, needed⟩ planned _ mem =>
    ⟨root, here, needed.operand planned mem⟩
  regular := ⟨zero, fun _ ⟨root, here, needed⟩ =>
    (regular root here).needs (isRootwise_isRegular zero) needed⟩

end Expr

/-- Whether a variable can be read: it is no reference to an instance, its default is a number and
its subscript is known. -/
structure Variable.IsReadable (v : Variable) : Prop where
  plain : Text.afterStart? Function.instanceMark v.name = none
  fallback : ∀ text, v.fallback = some text → (Variable.readDefault? text).isSome = true
  subscript : ∀ subscript, v.subscript = some subscript →
    Variable.isKnownSubscript subscript = true

/-- Whether a tree can be built without a library. -/
inductive Expr.Lowerable : Expr → Prop
  | read {v : Variable} (readable : v.IsReadable) : Lowerable (.var v)
  | make {e : Expr} {recipe : Recipe} (planned : Plan.of .empty e = .ok (.make recipe))
    (operands : ∀ operand ∈ recipe.operands, Lowerable operand.2) : Lowerable e

end Shadeloom
