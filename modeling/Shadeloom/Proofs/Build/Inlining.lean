import Mathlib
import Shadeloom.Proofs.Build.Needs
/-!
# Definitions that are inlined

A tree in which a name is defined may be built with the defining tree in the place of every variable
of the name. Where no settings are read from the tree, its plan stays the same but for the operands,
in which the definition is inlined in turn. So the tree can be built exactly when it can be built as
it is and the definition can.
-/
namespace Shadeloom

open Shadeloom.Expr

namespace Expr

/-- Whether a tree is no call of a function that takes settings. -/
def IsUnset (e : Expr) : Prop :=
  ∀ name function, e.operation? = some name → Function.find? name = some function →
    function.takesSettings = false

/-- A call without settings takes no names. -/
theorem IsUnset.isNameless {e : Expr} (unset : e.IsUnset) : e.IsNameless := by
  intro name function called found
  have plain := unset name function called found
  unfold Function.takesSettings at plain
  unfold Function.takesNames
  cases role : function.role <;> simp [role] at plain ⊢

/-- An operator takes no settings. -/
theorem isUnset_binary (op : BinaryOp) (lhs rhs : Expr) : (binary op lhs rhs).IsUnset := by
  intro name function same found
  cases same
  have unset : (Function.find? op.symbol).all (fun function => !function.takesSettings) = true := by
    cases op <;> decide +kernel
  rw [found] at unset
  simpa using unset

/-- Whether a tree takes settings is seen at its root. -/
theorem isRootwise_isUnset : IsRootwise IsUnset where
  comma := isUnset_binary .comma
  call e name args unset called := by
    intro name' function same found
    cases same
    exact unset name function called found

end Expr

namespace Recipe

variable {e : Expr} {es : List Expr} {recipe : Recipe}

/-- What a function without settings is made of uses all variables of its operands. -/
theorem covers_ofFunction {function : Function} (unset : function.takesSettings = false)
    (made : ofFunction function es = .ok recipe) : ∀ e ∈ es, ∀ v ∈ e.usedVariables,
      ∃ operand ∈ recipe.operands, v ∈ operand.2.usedVariables := by
  have plain {op : NodeOp} (made : plain function op es = .ok recipe) : ∀ e ∈ es,
      ∀ v ∈ e.usedVariables, ∃ operand ∈ recipe.operands, v ∈ operand.2.usedVariables := by
    obtain ⟨-, rfl⟩ := plain_eq_ok made
    exact covers_inOrder
  unfold Function.takesSettings at unset
  unfold ofFunction at made
  cases role : function.role with
  | math op =>
    rw [role] at made
    dsimp only at made
    obtain ⟨-, rfl⟩ | ⟨first, rest, rfl, many, rfl⟩ := math_eq_ok made
    · exact covers_inOrder
    · intro e mem v used
      rcases List.mem_cons.1 mem with rfl | later
      · exact covers_inOrder e (by simp) v used
      · refine covers_inOrder (.call function.name (chain rest)) (by simp) v ?_
        rw [usedVariables_call, usedVariables_chain]
        exact List.mem_flatMap.2 ⟨e, later, used⟩
  | directive => rw [role] at made; cases made
  | sugar => rw [role] at made; cases made
  | colorRamp => rw [role] at unset; cases unset
  | image => rw [role] at unset; cases unset
  | pointDensity => rw [role] at unset; cases unset
  | _ => rw [role] at made; exact plain made

/-- What a tree without settings is made of uses all variables of the tree. -/
theorem exists_used (unset : e.IsUnset) (planned : Plan.of .empty e = .ok (.make recipe))
    {v : Variable} (used : v ∈ e.usedVariables) :
    ∃ operand ∈ recipe.operands, v ∈ operand.2.usedVariables := by
  have other : ∀ v, e ≠ .var v := by
    rintro v rfl
    cases planned
  rw [← usedVariables_operands other, List.mem_flatMap] at used
  obtain ⟨part, mem, used⟩ := used
  obtain ⟨literal, rfl, -⟩ | ⟨x, y, z, rfl, made⟩ | ⟨name, called, made⟩ :=
    Plan.make_cases planned
  · cases mem
  · obtain ⟨-, rfl⟩ := ofCombine_eq_ok made
    have listed : part = x ∨ part ∈ y ∨ part ∈ z := by
      simpa [Expr.operands, Expr.components, eq_comm] using mem
    rcases listed with rfl | here | here
    · exact ⟨(0, part), by simp [components], used⟩
    · exact ⟨(1, part), by simp [components, Option.mem_def.1 here], used⟩
    · exact ⟨(2, part), by simp [components, Option.mem_def.1 here], used⟩
  · obtain ⟨-, ⟨group, -, made⟩ | ⟨-, function, found, made⟩⟩ := ofOperation_eq_ok made
    · obtain ⟨definition, found, -⟩ := ofGroup_eq_ok made
      rw [Table.get?_empty] at found
      cases found
    · exact covers_ofFunction (unset name function called found) made part mem v used

end Recipe

/-- No operand is missing of a tree that something is made of. -/
theorem Plan.isEmpty_operands {e : Expr} {recipe : Recipe}
    (planned : Plan.of .empty e = .ok (.make recipe)) : ∀ part ∈ e.operands, part.isEmpty = false := by
  obtain ⟨literal, rfl, -⟩ | ⟨x, y, z, rfl, made⟩ | ⟨name, -, made⟩ := Plan.make_cases planned
  · nofun
  · exact (Recipe.ofCombine_eq_ok made).1
  · exact (Recipe.ofOperation_eq_ok made).1

/-- What can be built is there. -/
theorem Expr.Lowerable.ne_empty {e : Expr} (lowerable : e.Lowerable) : e ≠ .empty := by
  rintro rfl
  cases lowerable with
  | make planned _ => cases planned

/-- A tree without settings that can be built needs every variable that it uses. -/
theorem Expr.Lowerable.needs_var {root : Expr} (lowerable : root.Lowerable)
    (unset : root.Every IsUnset) {v : Variable} (used : v ∈ root.usedVariables) :
    root.Needs (.var v) := by
  induction lowerable with
  | read =>
    rw [usedVariables_var, List.mem_singleton] at used
    exact used ▸ .root
  | make planned _ ih =>
    obtain ⟨operand, mem, used⟩ := Recipe.exists_used unset.self planned used
    exact (Needs.operand .root planned mem).trans
      (ih operand mem (Recipe.every_operands isRootwise_isUnset unset planned operand mem) used)

/-- A name with the tree that it stands for. -/
structure Definition where
  name : String
  value : Expr

namespace Definition

mutual

/-- A tree with the value of a definition in the place of every variable of its name. -/
def inline (definition : Definition) : Expr → Expr
  | .empty => .empty
  | .var v => if v.name = definition.name then definition.value else .var v
  | .value literal => .value literal
  | .combine x y z =>
    .combine (definition.inline x) (definition.inlineComponent y) (definition.inlineComponent z)
  | .binary op lhs rhs => .binary op (definition.inline lhs) (definition.inline rhs)
  | .call function args => .call function (definition.inline args)

/-- A component, if it is present, with a definition inlined. -/
def inlineComponent (definition : Definition) : Option Expr → Option Expr
  | none => none
  | some e => some (definition.inline e)

end

/-- The plan of an operand list with a definition inlined. -/
def inlineRecipe (definition : Definition) (recipe : Recipe) : Recipe :=
  { recipe with
    operands := recipe.operands.map fun operand => (operand.1, definition.inline operand.2) }

/-- A plan with a definition inlined in what is built. -/
def inlinePlan (definition : Definition) : Plan → Plan
  | .read v => .read v
  | .make recipe => .make (definition.inlineRecipe recipe)

/-- Whether the value of a definition is no list. -/
def IsSingle (definition : Definition) : Prop :=
  ∀ lhs rhs, definition.value ≠ .binary .comma lhs rhs

variable {definition : Definition} {e : Expr}

/-- A variable of the name is replaced. -/
theorem inline_var {v : Variable} (defined : v.name = definition.name) :
    definition.inline (.var v) = definition.value :=
  if_pos defined

/-- Any other variable stays. -/
theorem inline_var_of_ne {v : Variable} (other : v.name ≠ definition.name) :
    definition.inline (.var v) = .var v :=
  if_neg other

/-- Whether a tree is no variable of the name of a definition. -/
def IsOther (definition : Definition) (e : Expr) : Prop :=
  ∀ v, e = .var v → v.name ≠ definition.name

/-- Commas and calls are no variables. -/
theorem isRootwise_isOther (definition : Definition) : IsRootwise definition.IsOther where
  comma _ _ := nofun
  call _ _ _ _ _ := nofun

/-- Whether a tree that is a variable of the name of a definition reads all of its value: it has no
default, and its subscript is none or that of a whole vector. -/
def IsWhole (definition : Definition) (e : Expr) : Prop :=
  ∀ v, e = .var v → v.name = definition.name →
    v.fallback = none ∧ (v.subscript = none ∨ v.subscript = some "")

/-- Commas and calls are no variables that do not read all of a value. -/
theorem isRootwise_isWhole (definition : Definition) : IsRootwise definition.IsWhole where
  comma _ _ := nofun
  call _ _ _ _ _ := nofun

/-- A variable that reads all of the value can be read, unless the name is that of an instance. -/
theorem IsWhole.isReadable {v : Variable} (whole : definition.IsWhole (.var v))
    (defined : v.name = definition.name)
    (plain : Text.afterStart? Function.instanceMark definition.name = none) : v.IsReadable := by
  obtain ⟨none, either⟩ := whole v rfl defined
  refine ⟨defined ▸ plain, fun text fallback => ?_, fun subscript selects => ?_⟩
  · rw [none] at fallback
    cases fallback
  · rcases either with absent | all
    · rw [absent] at selects
      cases selects
    · rw [all] at selects
      cases selects
      decide

/-- A tree that does not use the name stays as it is. -/
theorem inline_eq_self (unused : e.Every definition.IsOther) : definition.inline e = e := by
  have component (part : Option Expr)
      (ih : ∀ e, part = some e → e.Every definition.IsOther → definition.inline e = e)
      (unused : ∀ e ∈ part, e.Every definition.IsOther) : definition.inlineComponent part = part := by
    cases part with
    | none => rfl
    | some e => exact congrArg some (ih e rfl (unused e rfl))
  induction e with
  | empty => rfl
  | var v => exact inline_var_of_ne (unused.self v rfl)
  | value literal => rfl
  | combine x y z hx hy hz =>
    rw [every_combine] at unused
    rw [inline, hx unused.2.1, component y hy unused.2.2.1, component z hz unused.2.2.2]
  | binary op lhs rhs left right =>
    rw [every_binary] at unused
    rw [inline, left unused.2.1, right unused.2.2]
  | call function args ih =>
    rw [every_call] at unused
    rw [inline, ih unused.2]

/-- What holds of every part of a value and of every part of a tree holds of every part of the tree
with the value inlined, if it is seen at the root whether it holds. -/
theorem every_inline {p : Expr → Prop} (value : definition.value.Every p) (every : e.Every p)
    (root : ∀ e, p e → definition.IsOther e → p (definition.inline e)) :
    (definition.inline e).Every p := by
  have component (part : Option Expr)
      (ih : ∀ e, part = some e → e.Every p → (definition.inline e).Every p)
      (every : ∀ e ∈ part, e.Every p) : ∀ e ∈ definition.inlineComponent part, e.Every p := by
    cases part with
    | none => nofun
    | some e =>
      rintro _ ⟨⟩
      exact ih e rfl (every e rfl)
  have here := root e every.self
  induction e with
  | empty => exact every
  | var v =>
    by_cases defined : v.name = definition.name
    · rw [inline_var defined]
      exact value
    · rw [inline_var_of_ne defined]
      exact every
  | value literal => exact every
  | combine x y z hx hy hz =>
    rw [every_combine] at every
    exact every_combine.2 ⟨here nofun, hx every.2.1 (root _ every.2.1.self),
      component y (fun e same every => hy e same every (root _ every.self)) every.2.2.1,
      component z (fun e same every => hz e same every (root _ every.self)) every.2.2.2⟩
  | binary op lhs rhs left right =>
    rw [every_binary] at every
    exact every_binary.2 ⟨here nofun, left every.2.1 (root _ every.2.1.self),
      right every.2.2 (root _ every.2.2.self)⟩
  | call function args ih =>
    rw [every_call] at every
    exact every_call.2 ⟨here nofun, ih every.2 (root _ every.2.self)⟩

/-- A tree that is no variable of the name calls what it calls. -/
theorem operation?_inline (other : definition.IsOther e) :
    (definition.inline e).operation? = e.operation? := by
  cases e with
  | var v => rw [inline_var_of_ne (other v rfl)]
  | _ => rfl

/-- A tree stays regular when a definition is inlined below its root. -/
theorem isRegular_inline {zero : Float} (regular : e.IsRegular zero) (other : definition.IsOther e) :
    (definition.inline e).IsRegular zero := by
  refine ⟨?_, fun name function called => regular.2 name function ?_⟩
  · cases e with
    | var v =>
      rw [inline_var_of_ne (other v rfl)]
      exact regular.1
    | value literal => exact regular.1
    | _ => trivial
  · rwa [operation?_inline other] at called

/-- Elements of a chain with a definition inlined. -/
theorem inline_chain (definition : Definition) (es : List Expr) :
    definition.inline (chain es) = chain (es.map definition.inline) := by
  fun_induction chain es with
  | case1 => rfl
  | case2 e => rfl
  | case3 e rest more ih =>
    cases rest with
    | nil => exact absurd rfl more
    | cons second rest =>
      rw [inline, ih]
      rfl

/-- An operand is missing when it was, unless the value of the definition is. -/
theorem isEmpty_inline (present : definition.value ≠ .empty) (e : Expr) :
    (definition.inline e).isEmpty = e.isEmpty := by
  cases e with
  | var v =>
    by_cases defined : v.name = definition.name
    · rw [inline_var defined]
      cases value : definition.value with
      | empty => exact absurd value present
      | _ => rfl
    · rw [inline_var_of_ne defined]
  | _ => rfl

/-- An operand that was missing is. -/
theorem isEmpty_of_inline (present : (definition.inline e).isEmpty = false) : e.isEmpty = false := by
  cases e with
  | empty => cases present
  | _ => rfl

/-- An operand is missing when one was, if this is so of each of them. -/
theorem any_isEmpty_inline {es : List Expr}
    (kept : ∀ e ∈ es, (definition.inline e).isEmpty = e.isEmpty) :
    (es.map definition.inline).any Expr.isEmpty = es.any Expr.isEmpty := by
  rw [Bool.eq_iff_iff, List.any_map, List.any_eq_true, List.any_eq_true]
  exact exists_congr fun e => and_congr_right fun mem => by rw [Function.comp_apply, kept e mem]

section

variable (single : definition.IsSingle)

include single

/-- A chain has the elements that it had, with the definition inlined. -/
theorem arguments_inline (e : Expr) :
    (definition.inline e).arguments = e.arguments.map definition.inline := by
  fun_induction Expr.arguments e with
  | case1 lhs rhs ih => rw [inline, Expr.arguments, ih, List.map_cons]
  | case2 e other =>
    have kept : ∀ lhs rhs, definition.inline e ≠ .binary .comma lhs rhs := by
      intro lhs rhs same
      cases e with
      | var v =>
        by_cases defined : v.name = definition.name
        · exact single lhs rhs ((inline_var defined).symm.trans same)
        · rw [inline_var_of_ne defined] at same
          cases same
      | binary op left right =>
        cases same
        exact other _ _ rfl
      | _ => cases same
    rw [List.map_singleton]
    generalize definition.inline e = inlined at kept
    unfold Expr.arguments
    split
    · exact absurd rfl (kept _ _)
    · rfl

/-- A tree that is no variable of the name has its operands with the definition inlined. -/
theorem operands_inline (other : definition.IsOther e) :
    (definition.inline e).operands = e.operands.map definition.inline := by
  cases e with
  | var v =>
    rw [inline_var_of_ne (other v rfl)]
    rfl
  | binary op lhs rhs =>
    show (if op.isStructural then [definition.inline lhs, definition.inline rhs]
      else definition.inline lhs :: (definition.inline rhs).arguments) =
        (if op.isStructural then [lhs, rhs] else lhs :: rhs.arguments).map definition.inline
    rw [arguments_inline single]
    split <;> rfl
  | call function args => exact arguments_inline single args
  | combine x y z => cases y <;> cases z <;> rfl
  | _ => rfl

end

/-- Operands that are fed in order are fed in order with the definition inlined. -/
theorem inlineRecipe_inOrder (definition : Definition) (op : NodeOp) (first output : Nat)
    (es : List Expr) : definition.inlineRecipe (Recipe.inOrder op first es output) =
      Recipe.inOrder op first (es.map definition.inline) output := by
  simp only [inlineRecipe, Recipe.inOrder, List.zipIdx_map, List.map_map]
  rfl

/-- A scalar operation is made of the operands with the definition inlined. -/
theorem math_inline (definition : Definition) (function : Function) (op : MathOp)
    (es : List Expr) : Recipe.math function op (es.map definition.inline) =
      (Recipe.math function op es).map definition.inlineRecipe := by
  unfold Recipe.math
  rw [List.length_map]
  split
  · rfl
  · match es with
    | [] => rfl
    | [_] => rfl
    | [_, _] => rfl
    | first :: second :: third :: rest =>
      show Except.ok (Recipe.inOrder (.math op) 0 [definition.inline first,
        .call function.name (chain ((second :: third :: rest).map definition.inline))] 0) =
          .ok (definition.inlineRecipe (Recipe.inOrder (.math op) 0
            [first, .call function.name (chain (second :: third :: rest))] 0))
      rw [inlineRecipe_inOrder, ← inline_chain]
      rfl

/-- Any other operation on its operands alone is made of these with the definition inlined. -/
theorem plain_inline (definition : Definition) (function : Function) (op : NodeOp)
    (es : List Expr) : Recipe.plain function op (es.map definition.inline) =
      (Recipe.plain function op es).map definition.inlineRecipe := by
  unfold Recipe.plain
  rw [List.length_map]
  dsimp only
  split
  · rfl
  · rw [← inlineRecipe_inOrder]
    rfl

/-- A function without settings is made of its operands with the definition inlined. -/
theorem ofFunction_inline (definition : Definition) {function : Function}
    (unset : function.takesSettings = false) (es : List Expr) :
    Recipe.ofFunction function (es.map definition.inline) =
      (Recipe.ofFunction function es).map definition.inlineRecipe := by
  unfold Function.takesSettings at unset
  unfold Recipe.ofFunction
  cases role : function.role with
  | math op => exact math_inline definition function op es
  | directive directive => rfl
  | sugar => rfl
  | colorRamp => rw [role] at unset; cases unset
  | image => rw [role] at unset; cases unset
  | pointDensity => rw [role] at unset; cases unset
  | _ => exact plain_inline definition function _ es

/-- An operation without settings is made of its operands with the definition inlined. -/
theorem ofOperation_inline {name : String} {es : List Expr}
    (unset : ∀ function, Function.find? name = some function → function.takesSettings = false)
    (kept : ∀ e ∈ es, (definition.inline e).isEmpty = e.isEmpty) :
    Recipe.ofOperation .empty name (es.map definition.inline) =
      (Recipe.ofOperation .empty name es).map definition.inlineRecipe := by
  unfold Recipe.ofOperation
  rw [any_isEmpty_inline kept]
  split
  · rfl
  · split
    · rfl
    · split
      · rfl
      · rename_i function found
        exact ofFunction_inline definition (unset function found) es

/-- A vector is made of its components with the definition inlined. -/
theorem ofCombine_inline {x : Expr} {y z : Option Expr}
    (kept : ∀ e ∈ Expr.components x y z, (definition.inline e).isEmpty = e.isEmpty) :
    Recipe.ofCombine (definition.inline x) (definition.inlineComponent y)
        (definition.inlineComponent z) =
      (Recipe.ofCombine x y z).map definition.inlineRecipe := by
  have parts : Expr.components (definition.inline x) (definition.inlineComponent y)
      (definition.inlineComponent z) = (Expr.components x y z).map definition.inline := by
    cases y <;> cases z <;> rfl
  have operands : Recipe.components (definition.inline x) (definition.inlineComponent y)
      (definition.inlineComponent z) = (Recipe.components x y z).map fun operand =>
        (operand.1, definition.inline operand.2) := by
    cases y <;> cases z <;> rfl
  unfold Recipe.ofCombine
  rw [parts, any_isEmpty_inline kept, operands]
  split <;> rfl

section

variable (single : definition.IsSingle)

include single

/-- The plan of a tree without settings is the one of the tree with the definition inlined in what
is built, unless the tree is the variable that is defined, if no operand goes missing. -/
theorem plan_inline (unset : e.IsUnset) (other : definition.IsOther e)
    (kept : ∀ part ∈ e.operands, (definition.inline part).isEmpty = part.isEmpty) :
    Plan.of .empty (definition.inline e) = (Plan.of .empty e).map definition.inlinePlan := by
  have makes {first second : Except BuildError Recipe}
      (same : second = first.map definition.inlineRecipe) :
      second.map Plan.make = (first.map Plan.make).map definition.inlinePlan := by
    rw [same]
    cases first <;> rfl
  have operands := operands_inline single other
  cases e with
  | empty => rfl
  | var v =>
    rw [inline_var_of_ne (other v rfl)]
    rfl
  | value literal =>
    refine makes ?_
    unfold Recipe.ofLiteral
    split <;> rfl
  | combine x y z => exact makes (ofCombine_inline kept)
  | binary op lhs rhs =>
    have made := ofOperation_inline (fun function => unset op.symbol function rfl) kept
    rw [← operands] at made
    cases op with
    | comma => rfl
    | assign => rfl
    | _ => exact makes made
  | call name args =>
    have made := ofOperation_inline (fun function => unset name function rfl) kept
    rw [← operands] at made
    exact makes made

/-- What is made of a tree is made of the tree with the definition inlined, with operands in which
it is inlined. -/
theorem make_inline (present : definition.value ≠ .empty) (unset : e.IsUnset) {recipe : Recipe}
    (planned : Plan.of .empty e = .ok (.make recipe)) :
    Plan.of .empty (definition.inline e) = .ok (.make (definition.inlineRecipe recipe)) := by
  have other : definition.IsOther e := by
    rintro v rfl
    cases planned
  rw [plan_inline single unset other fun part _ => isEmpty_inline present part, planned]
  rfl

/-- What is made of a tree with the definition inlined, unless the tree is the variable that is
defined, is what is made of the tree, with operands in which it is inlined. -/
theorem exists_make_of_inline (unset : e.IsUnset) (other : definition.IsOther e) {recipe : Recipe}
    (planned : Plan.of .empty (definition.inline e) = .ok (.make recipe)) :
    ∃ recipe', Plan.of .empty e = .ok (.make recipe') ∧
      recipe = definition.inlineRecipe recipe' := by
  have kept : ∀ part ∈ e.operands, (definition.inline part).isEmpty = part.isEmpty := by
    intro part mem
    have present : (definition.inline part).isEmpty = false := by
      refine Plan.isEmpty_operands planned (definition.inline part) ?_
      rw [operands_inline single other]
      exact List.mem_map_of_mem mem
    rw [present, isEmpty_of_inline present]
  rw [plan_inline single unset other kept] at planned
  obtain ⟨plan, planned', made⟩ := map_eq_ok_iff.1 planned
  cases plan with
  | read v => cases made
  | make recipe' =>
    cases made
    exact ⟨recipe', planned', rfl⟩

/-- What a tree needs is needed with the definition inlined. -/
theorem needs_inline (present : definition.value ≠ .empty) {root : Expr} (unset : root.Every IsUnset)
    (needed : root.Needs e) : (definition.inline root).Needs (definition.inline e) := by
  induction needed with
  | root => exact .root
  | @operand e recipe operand needed planned mem ih =>
    have planned' := make_inline single present (unset.needs isRootwise_isUnset needed).self planned
    exact .operand ih planned' (List.mem_map_of_mem mem)

/-- A tree that can be built can be built with a definition inlined that can. -/
theorem lowerable_inline (value : definition.value.Lowerable) (unset : e.Every IsUnset)
    (lowerable : e.Lowerable) : (definition.inline e).Lowerable := by
  induction lowerable with
  | @read v readable =>
    by_cases defined : v.name = definition.name
    · rw [inline_var defined]
      exact value
    · rw [inline_var_of_ne defined]
      exact .read readable
  | make planned _ ih =>
    refine .make (make_inline single value.ne_empty unset.self planned) fun operand mem => ?_
    obtain ⟨old, here, rfl⟩ := List.mem_map.1 mem
    exact ih old here (Recipe.every_operands isRootwise_isUnset unset planned old here)

/-- A tree can be built that can be with a definition inlined, and so can the definition if it is
used, provided that the variables of the name read all of its value. -/
theorem lowerable_of_inline (unset : e.Every IsUnset) (whole : e.Every definition.IsWhole)
    (plain : Text.afterStart? Function.instanceMark definition.name = none)
    (lowerable : (definition.inline e).Lowerable) :
    e.Lowerable ∧ ((∃ v ∈ e.usedVariables, v.name = definition.name) →
      definition.value.Lowerable) := by
  generalize same : definition.inline e = inlined at lowerable
  -- The tree is the variable that is defined, and the value of the definition can be built.
  have self {v : Variable} (defined : v.name = definition.name)
      (whole : definition.IsWhole (.var v)) (value : definition.value.Lowerable) :
      (Expr.var v).Lowerable ∧ ((∃ w ∈ (Expr.var v).usedVariables, w.name = definition.name) →
        definition.value.Lowerable) :=
    ⟨.read (whole.isReadable defined plain), fun _ => value⟩
  induction lowerable generalizing e with
  | @read w free =>
    cases e with
    | var v =>
      by_cases defined : v.name = definition.name
      · exact self defined whole.self ((inline_var defined).symm.trans same ▸ .read free)
      · rw [inline_var_of_ne defined] at same
        cases same
        refine ⟨.read free, fun ⟨v, used, defined'⟩ => absurd defined' ?_⟩
        rw [usedVariables_var, List.mem_singleton] at used
        exact used ▸ defined
    | _ => cases same
  | @make _ recipe planned operands ih =>
    by_cases defined : ∃ v, e = .var v ∧ v.name = definition.name
    · obtain ⟨v, rfl, defined⟩ := defined
      exact self defined whole.self ((inline_var defined).symm.trans same ▸ .make planned operands)
    · have other : definition.IsOther e := fun v same defined' => defined ⟨v, same, defined'⟩
      obtain ⟨recipe, planned', rfl⟩ :=
        exists_make_of_inline single unset.self other (same ▸ planned)
      have each (operand : Nat × Expr) (mem : operand ∈ recipe.operands) :=
        ih (operand.1, definition.inline operand.2) (List.mem_map_of_mem mem)
          (Recipe.every_operands isRootwise_isUnset unset planned' operand mem)
          (Recipe.every_operands (isRootwise_isWhole definition) whole planned' operand mem) rfl
      refine ⟨.make planned' fun operand mem => (each operand mem).1, fun ⟨v, used, defined⟩ => ?_⟩
      obtain ⟨operand, mem, used⟩ := Recipe.exists_used unset.self planned' used
      exact (each operand mem).2 ⟨v, used, defined⟩

end

end Definition

end Shadeloom
