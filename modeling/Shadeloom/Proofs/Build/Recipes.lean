import Mathlib
import Shadeloom.Build.Recipe
import Shadeloom.Proofs.Expr.Checks
/-!
# What recipes are made of

A recipe makes an instance of a group of the library or a plain node, which is neither a port nor an
instance. The operands of a plain node go to different sockets that it has, and its value is read
from a socket that it has. A tree has no recipe for a few reasons only.
-/
namespace Shadeloom

/-- Whether an operation is neither a port nor an instance. -/
def NodeOp.IsPlain (op : NodeOp) : Prop :=
  op.isPort = false ∧ ∀ name, op ≠ .group name

/-- The value of a listed function is read from the first or the second output socket. -/
theorem Function.outputSocket_lt {name : String} {function : Function}
    (found : Function.find? name = some function) : function.role.outputSocket < 2 := by
  have all : ∀ function ∈ Function.all, function.role.outputSocket < 2 := by decide +kernel
  exact all function (Function.mem_of_find? found)

/-- Whether a math function takes as many operands as its node has inputs for it. -/
def Function.isFitted (function : Function) : Bool :=
  match function.role with
  | .math op =>
    function.minArgs = op.arity &&
      (function.maxArgs = op.arity || (op.arity = 2 && function.isVariadic))
  | .vectorMath op =>
    function.minArgs = function.maxArgs &&
      function.maxArgs = (if op = .normalize then 1 else 2)
  | .mix blend first =>
    function.minArgs = function.maxArgs && function.maxArgs = 3 - first &&
      first = (if blend = .mix then 0 else 1)
  | _ => true

/-- Every listed function takes as many operands as its node has inputs for, and none is a call of a
group. -/
theorem Function.fitted_of_mem {function : Function} (listed : function ∈ all) :
    function.isFitted = true ∧ calledGroup? function.name = none := by
  have each : ∀ function ∈ all, function.isFitted = true ∧ calledGroup? function.name = none := by
    decide +kernel
  exact each function listed

namespace Recipe

/-- What a scalar operation is made of. -/
theorem math_eq_ok {function : Function} {op : MathOp} {operands : List Expr} {recipe : Recipe}
    (made : math function op operands = .ok recipe) :
    (operands.length ≤ 2 ∧ recipe = inOrder (.math op) 0 operands 0) ∨
      ∃ first rest, operands = first :: rest ∧ 1 < rest.length ∧
        recipe = inOrder (.math op) 0 [first, .call function.name (.chain rest)] 0 := by
  unfold math at made
  split at made
  · cases made
  · split at made
    · rename_i first second third rest _
      cases made
      exact .inr ⟨first, second :: third :: rest, rfl, by simp, rfl⟩
    · rename_i few
      cases made
      refine .inl ⟨?_, rfl⟩
      match operands, few with
      | [], _ => exact Nat.zero_le 2
      | [_], _ => exact Nat.le_succ 1
      | [_, _], _ => exact Nat.le_refl 2
      | first :: second :: third :: rest, few => exact absurd rfl (few first second third rest)

/-- What an operation on its operands alone is made of. -/
theorem plain_eq_ok {function : Function} {op : NodeOp} {operands : List Expr} {recipe : Recipe}
    (made : plain function op operands = .ok recipe) :
    operands.length ≤ op.inputSockets.length - function.role.inputSocket ∧
      recipe = inOrder op function.role.inputSocket operands function.role.outputSocket := by
  unfold plain at made
  dsimp only at made
  split at made
  · cases made
  · rename_i few
    cases made
    exact ⟨Nat.not_lt.1 few, rfl⟩

/-- What an operation with settings is made of. -/
theorem configured_eq_ok {function : Function} {operands : List Expr}
    {op : List Expr → Except SettingFault NodeOp} {recipe : Recipe}
    (made : configured function operands op = .ok recipe) :
    ∃ first settings kind, operands = first :: settings ∧ op settings = .ok kind ∧
      recipe = inOrder kind 0 [first] function.role.outputSocket := by
  unfold configured at made
  split at made
  · cases made
  · rename_i first settings
    split at made
    · rename_i kind found
      cases made
      exact ⟨first, settings, kind, rfl, found, rfl⟩
    · cases made

/-- What an instance of a group is made of. -/
theorem ofGroup_eq_ok {library : Library} {function group : String} {operands : List Expr}
    {recipe : Recipe} (made : ofGroup library function group operands = .ok recipe) :
    ∃ definition, library.get? group = some definition ∧
      operands.length ≤ definition.instanceNode.inputs.length ∧
      recipe = ⟨definition.instanceNode, (operands.zipIdx 0).map Prod.swap, 0⟩ := by
  unfold ofGroup at made
  split at made
  · cases made
  · rename_i definition found
    dsimp only at made
    split at made
    · cases made
    · rename_i few
      cases made
      exact ⟨definition, found, Nat.not_lt.1 few, rfl⟩

/-- What an operation is made of. -/
theorem ofOperation_eq_ok {library : Library} {name : String} {operands : List Expr}
    {recipe : Recipe} (made : ofOperation library name operands = .ok recipe) :
    (∀ e ∈ operands, e.isEmpty = false) ∧
      ((∃ group, Function.calledGroup? name = some group ∧
          ofGroup library name group operands = .ok recipe) ∨
        Function.calledGroup? name = none ∧ ∃ function, Function.find? name = some function ∧
          ofFunction function operands = .ok recipe) := by
  unfold ofOperation at made
  split at made
  · cases made
  · rename_i complete
    refine ⟨by simpa using complete, ?_⟩
    split at made
    · rename_i group called
      exact .inl ⟨group, called, made⟩
    · rename_i uncalled
      split at made
      · cases made
      · rename_i function found
        exact .inr ⟨uncalled, function, found, made⟩

/-- What a vector is made of. -/
theorem ofCombine_eq_ok {x : Expr} {y z : Option Expr} {recipe : Recipe}
    (made : ofCombine x y z = .ok recipe) : (∀ e ∈ Expr.components x y z, e.isEmpty = false) ∧
      recipe = ⟨.ofOp .combineXyz, components x y z, 0⟩ := by
  unfold ofCombine at made
  split at made
  · cases made
  · rename_i complete
    cases made
    exact ⟨by simpa using complete, rfl⟩

/-- What a literal is made of. -/
theorem ofLiteral_eq_ok {literal : Literal} {recipe : Recipe}
    (made : ofLiteral literal = .ok recipe) :
    ∃ number, literal.number? = some number ∧ recipe = inOrder (.constant number) 0 [] 0 := by
  unfold ofLiteral at made
  split at made
  · rename_i number here
    cases made
    exact ⟨number, here, rfl⟩
  · cases made

end Recipe

/-- Only a variable is read. -/
theorem Plan.eq_var_of_read {library : Library} {e : Expr} {v : Variable}
    (planned : Plan.of library e = .ok (.read v)) : e = .var v := by
  have other {made : Except BuildError Recipe} : made.map Plan.make ≠ .ok (.read v) := by
    intro mapped
    obtain ⟨_, _, impossible⟩ := map_eq_ok_iff.1 mapped
    cases impossible
  unfold Plan.of at planned
  split at planned
  · cases planned
  · cases planned
    rfl
  · exact absurd planned other
  · exact absurd planned other
  · cases planned
  · cases planned
  · exact absurd planned other
  · exact absurd planned other

/-- A tree for which a node is made is a literal, a vector or an operation. -/
theorem Plan.make_cases {library : Library} {e : Expr} {recipe : Recipe}
    (planned : Plan.of library e = .ok (.make recipe)) :
    (∃ literal, e = .value literal ∧ Recipe.ofLiteral literal = .ok recipe) ∨
      (∃ x y z, e = .combine x y z ∧ Recipe.ofCombine x y z = .ok recipe) ∨
      ∃ name, e.operation? = some name ∧ Recipe.ofOperation library name e.operands = .ok recipe := by
  have unmap {made : Except BuildError Recipe} (mapped : made.map Plan.make = .ok (.make recipe)) :
      made = .ok recipe := by
    obtain ⟨other, same, equal⟩ := map_eq_ok_iff.1 mapped
    injection equal with equal
    exact equal ▸ same
  unfold Plan.of at planned
  split at planned
  · cases planned
  · cases planned
  · exact .inl ⟨_, rfl, unmap planned⟩
  · exact .inr (.inl ⟨_, _, _, rfl, unmap planned⟩)
  · cases planned
  · cases planned
  · exact .inr (.inr ⟨_, rfl, unmap planned⟩)
  · exact .inr (.inr ⟨_, rfl, unmap planned⟩)

namespace Recipe

/-- Whether a recipe makes a plain node that has all the sockets which it uses. -/
structure IsPlain (recipe : Recipe) : Prop where
  node : ∃ op : NodeOp, recipe.node = .ofOp op ∧ op.IsPlain
  places : ∀ operand ∈ recipe.operands, operand.1 < recipe.node.inputs.length
  distinct : (recipe.operands.map Prod.fst).Nodup
  output : recipe.output < recipe.node.outputs.length

/-- Whether a recipe makes an instance of a definition of a library. -/
def IsInstance (library : Library) (recipe : Recipe) : Prop :=
  ∃ group definition, library.get? group = some definition ∧ recipe.node = definition.instanceNode

/-- The places of operands that are fed in order. -/
theorem places_inOrder (op : NodeOp) (first : Nat) (operands : List Expr) (output : Nat) :
    (inOrder op first operands output).operands.map Prod.fst =
      List.range' first operands.length := by
  unfold inOrder
  rw [List.map_map]
  exact List.zipIdx_map_snd first operands

/-- The places of the components of a vector. -/
theorem places_components (x : Expr) (y z : Option Expr) :
    ((components x y z).map Prod.fst).Sublist [0, 1, 2] := by
  cases y <;> cases z <;> simp [components]

/-- Operands that are fed in order to sockets that are there make a plain node of a plain
operation. -/
theorem isPlain_inOrder {op : NodeOp} {first output : Nat} {operands : List Expr}
    (plain : op.IsPlain) (fits : first + operands.length ≤ op.inputSockets.length ∨ operands = [])
    (read : output < op.outputSockets.length) : (inOrder op first operands output).IsPlain where
  node := ⟨op, rfl, plain⟩
  places operand mem := by
    have place : operand.1 ∈ List.range' first operands.length := by
      rw [← places_inOrder op first operands output]
      exact List.mem_map_of_mem mem
    rw [List.mem_range'_1] at place
    show operand.1 < op.inputSockets.length
    rcases fits with fits | rfl
    · omega
    · exact absurd place.2 (by simpa using place.1)
  distinct := by
    rw [places_inOrder]
    exact List.nodup_range'
  output := read

/-- A scalar operation makes a plain node. -/
theorem isPlain_math {function : Function} {op : MathOp} {operands : List Expr} {recipe : Recipe}
    (made : math function op operands = .ok recipe) : recipe.IsPlain := by
  have plain : (NodeOp.math op).IsPlain := ⟨rfl, fun _ same => by cases same⟩
  obtain ⟨few, rfl⟩ | ⟨first, rest, -, -, rfl⟩ := math_eq_ok made
  · refine isPlain_inOrder plain (.inl ?_) Nat.zero_lt_one
    rwa [Nat.zero_add]
  · exact isPlain_inOrder plain (.inl (Nat.le_refl 2)) Nat.zero_lt_one

/-- An operation on its operands alone makes a plain node. -/
theorem isPlain_plain {function : Function} {op : NodeOp} {operands : List Expr} {recipe : Recipe}
    (isPlain : op.IsPlain) (read : function.role.outputSocket < op.outputSockets.length)
    (made : plain function op operands = .ok recipe) : recipe.IsPlain := by
  obtain ⟨few, rfl⟩ := plain_eq_ok made
  refine isPlain_inOrder isPlain ?_ read
  cases operands with
  | nil => exact .inr rfl
  | cons e rest =>
    rw [List.length_cons] at few ⊢
    exact .inl (by omega)

/-- An operation with settings makes a plain node. -/
theorem isPlain_configured {function : Function} {operands : List Expr}
    {op : List Expr → Except SettingFault NodeOp} {recipe : Recipe}
    (shape : ∀ settings kind, op settings = .ok kind → kind.IsPlain ∧
      kind.inputSockets.length = 1 ∧ kind.outputSockets.length = 2)
    (read : function.role.outputSocket < 2)
    (made : configured function operands op = .ok recipe) : recipe.IsPlain := by
  obtain ⟨first, settings, kind, -, found, rfl⟩ := configured_eq_ok made
  obtain ⟨plain, inputs, outputs⟩ := shape settings kind found
  exact isPlain_inOrder plain (.inl (by simp [inputs])) (by rw [outputs]; exact read)

/-- An instance of a group is one of a definition of the library. -/
theorem isInstance_ofGroup {library : Library} {function group : String} {operands : List Expr}
    {recipe : Recipe} (made : ofGroup library function group operands = .ok recipe) :
    recipe.IsInstance library := by
  obtain ⟨definition, found, -, rfl⟩ := ofGroup_eq_ok made
  exact ⟨group, definition, found, rfl⟩

/-- A function on operands makes a plain node. -/
theorem isPlain_ofFunction {name : String} {function : Function}
    (found : Function.find? name = some function) {operands : List Expr} {recipe : Recipe}
    (made : ofFunction function operands = .ok recipe) : recipe.IsPlain := by
  have read := Function.outputSocket_lt found
  unfold ofFunction at made
  split at made
  · exact isPlain_math made
  · exact isPlain_plain ⟨rfl, fun _ same => by cases same⟩ read made
  · rename_i role
    exact isPlain_plain ⟨rfl, fun _ same => by cases same⟩ (by rw [role]; exact Nat.zero_lt_succ _) made
  · exact isPlain_plain ⟨rfl, fun _ same => by cases same⟩ read made
  · rename_i role
    exact isPlain_plain ⟨rfl, fun _ same => by cases same⟩ (by rw [role]; exact Nat.zero_lt_succ _) made
  · exact isPlain_plain ⟨rfl, fun _ same => by cases same⟩ read made
  · rename_i role
    exact isPlain_plain ⟨rfl, fun _ same => by cases same⟩ (by rw [role]; exact Nat.zero_lt_succ _) made
  · refine isPlain_configured (fun settings kind same => ?_) read made
    obtain ⟨ramp, -, equal⟩ := bind_eq_ok_iff.1 same
    cases equal
    exact ⟨⟨rfl, fun _ same => by cases same⟩, rfl, rfl⟩
  · refine isPlain_configured (fun settings kind same => ?_) read made
    obtain ⟨texture, -, equal⟩ := bind_eq_ok_iff.1 same
    cases equal
    exact ⟨⟨rfl, fun _ same => by cases same⟩, rfl, rfl⟩
  · refine isPlain_configured (fun settings kind same => ?_) read made
    obtain ⟨density, -, equal⟩ := bind_eq_ok_iff.1 same
    cases equal
    exact ⟨⟨rfl, fun _ same => by cases same⟩, rfl, rfl⟩
  · cases made
  · cases made

/-- An operation makes a plain node or an instance of a group. -/
theorem isPlain_ofOperation {library : Library} {name : String} {operands : List Expr}
    {recipe : Recipe} (made : ofOperation library name operands = .ok recipe) :
    recipe.IsPlain ∨ ∃ group, ofGroup library name group operands = .ok recipe := by
  obtain ⟨-, ⟨group, -, made⟩ | ⟨-, function, found, made⟩⟩ := ofOperation_eq_ok made
  · exact .inr ⟨group, made⟩
  · exact .inl (isPlain_ofFunction found made)

/-- What is made of a tree is a plain node or what is made of a call of a group. -/
theorem isPlain_or_ofGroup {library : Library} {e : Expr} {recipe : Recipe}
    (planned : Plan.of library e = .ok (.make recipe)) :
    recipe.IsPlain ∨ ∃ name group operands, ofGroup library name group operands = .ok recipe := by
  obtain ⟨literal, rfl, made⟩ | ⟨x, y, z, rfl, made⟩ | ⟨name, -, made⟩ := Plan.make_cases planned
  · obtain ⟨number, -, rfl⟩ := ofLiteral_eq_ok made
    exact .inl (isPlain_inOrder ⟨rfl, fun _ same => by cases same⟩ (.inr rfl) Nat.zero_lt_one)
  · obtain ⟨-, rfl⟩ := ofCombine_eq_ok made
    have places := places_components x y z
    refine .inl ⟨⟨.combineXyz, rfl, rfl, fun _ same => by cases same⟩, fun operand mem => ?_,
      places.nodup (by decide), Nat.zero_lt_one⟩
    have place := places.subset (List.mem_map_of_mem mem)
    show operand.1 < 3
    simp only [List.mem_cons, List.not_mem_nil, or_false] at place
    omega
  · exact (isPlain_ofOperation made).imp_right fun ⟨group, called⟩ => ⟨name, group, _, called⟩

/-- What is made of a tree is a plain node or an instance of a group. -/
theorem isPlain_or_isInstance {library : Library} {e : Expr} {recipe : Recipe}
    (planned : Plan.of library e = .ok (.make recipe)) :
    recipe.IsPlain ∨ recipe.IsInstance library :=
  (isPlain_or_ofGroup planned).imp_right fun ⟨_, _, _, called⟩ => isInstance_ofGroup called

/-- Whether the operands of a recipe go to sockets that its node has, and its value is read from a
socket that it has, or from the first one of an instance. -/
structure Fits (recipe : Recipe) : Prop where
  places : ∀ operand ∈ recipe.operands, operand.1 < recipe.node.inputs.length
  output : recipe.output < recipe.node.outputs.length ∨
    recipe.output = 0 ∧ ∃ group, recipe.node.op = .group group

/-- A call of a group fits the instance of the group. -/
theorem fits_ofGroup {library : Library} {function group : String} {operands : List Expr}
    {recipe : Recipe} (made : ofGroup library function group operands = .ok recipe) :
    recipe.Fits := by
  obtain ⟨definition, -, few, rfl⟩ := ofGroup_eq_ok made
  refine ⟨fun operand mem => ?_, .inr ⟨rfl, _, rfl⟩⟩
  obtain ⟨entry, listed, rfl⟩ := List.mem_map.1 mem
  exact Nat.lt_of_lt_of_le (List.snd_lt_of_mem_zipIdx listed) few

/-- What is made of a tree fits its node. -/
theorem fits_of_planned {library : Library} {e : Expr} {recipe : Recipe}
    (planned : Plan.of library e = .ok (.make recipe)) : recipe.Fits := by
  rcases isPlain_or_ofGroup planned with plain | ⟨name, group, operands, made⟩
  · exact ⟨plain.places, .inl plain.output⟩
  · exact fits_ofGroup made

/-- A recipe makes no named input. -/
theorem not_input {library : Library} {e : Expr} {recipe : Recipe}
    (planned : Plan.of library e = .ok (.make recipe)) (port : InputPort) :
    recipe.node.op ≠ .input port := by
  intro same
  rcases isPlain_or_isInstance planned with plain | ⟨group, definition, -, node⟩
  · obtain ⟨op, node, isPlain⟩ := plain.node
    rw [node] at same
    have same : op = .input port := same
    have := isPlain.1
    rw [same] at this
    cases this
  · rw [node] at same
    cases same

end Recipe

/-- Why a tree has no plan: it is missing or one of its operands is, or it only puts its sides
together, or its operation, its arguments or its number are not what they have to be. -/
inductive BuildError.Unplanned (e : Expr) : BuildError → Prop
  | missing (name : String) (computes : e.isStructural = false)
    (absent : e = .empty ∨ ∃ operand ∈ e.operands, operand.isEmpty = true) :
    Unplanned e (.missingOperand name)
  | comma : Unplanned e .unexpectedComma
  | misplaced (name : String) : Unplanned e (.misplacedDirective name)
  | unknown (name : String) : Unplanned e (.unknownOperation name)
  | many (name : String) (max : Nat) : Unplanned e (.tooManyArguments name max)
  | configuration (name : String) (fault : SettingFault) :
    Unplanned e (.invalidConfiguration name fault)
  | group (name : String) : Unplanned e (.unknownGroup name)
  | literal (text : String) : Unplanned e (.invalidLiteral text)

/-- Why nothing is made of a function on operands. -/
theorem Recipe.ofFunction_refused {function : Function} {e : Expr} {error : BuildError}
    (nonempty : e.operands ≠ []) (refused : ofFunction function e.operands = .error error) :
    error.Unplanned e := by
  have plain {op : NodeOp} (refused : plain function op e.operands = .error error) :
      error.Unplanned e := by
    unfold Recipe.plain at refused
    dsimp only at refused
    split at refused <;> cases refused
    exact .many _ _
  have configured {op : List Expr → Except SettingFault NodeOp}
      (refused : configured function e.operands op = .error error) : error.Unplanned e := by
    unfold Recipe.configured at refused
    split at refused
    · rename_i none
      exact absurd none nonempty
    · split at refused <;> cases refused
      exact .configuration _ _
  unfold ofFunction at refused
  split at refused
  · unfold math at refused
    split at refused
    · cases refused
      exact .many _ _
    · split at refused <;> cases refused
  · exact plain refused
  · exact plain refused
  · exact plain refused
  · exact plain refused
  · exact plain refused
  · exact plain refused
  · exact configured refused
  · exact configured refused
  · exact configured refused
  · cases refused
    exact .unknown _
  · cases refused
    exact .misplaced _

/-- Why no instance of a group is made. -/
theorem Recipe.ofGroup_refused {library : Library} {function group : String} {operands : List Expr}
    {error : BuildError} (refused : ofGroup library function group operands = .error error) :
    error = .unknownGroup group ∨ ∃ limit, error = .tooManyArguments function limit := by
  unfold ofGroup at refused
  split at refused
  · cases refused
    exact .inl rfl
  · dsimp only at refused
    split at refused <;> cases refused
    exact .inr ⟨_, rfl⟩

/-- Why nothing is made of an operation on operands. -/
theorem Recipe.ofOperation_refused {library : Library} {name : String} {e : Expr}
    {error : BuildError} (computes : e.isStructural = false) (nonempty : e.operands ≠ [])
    (refused : ofOperation library name e.operands = .error error) : error.Unplanned e := by
  unfold ofOperation at refused
  split at refused
  · rename_i absent
    cases refused
    exact .missing _ computes (.inr (List.any_eq_true.1 absent))
  · split at refused
    · obtain rfl | ⟨limit, rfl⟩ := ofGroup_refused refused
      · exact .group _
      · exact .many _ _
    · split at refused
      · cases refused
        exact .unknown _
      · exact ofFunction_refused nonempty refused

/-- Why a tree has no plan. -/
theorem Plan.refused {library : Library} {e : Expr} {error : BuildError}
    (refused : Plan.of library e = .error error) : error.Unplanned e := by
  unfold Plan.of at refused
  split at refused
  · cases refused
    exact .missing _ rfl (.inl rfl)
  · cases refused
  · rw [map_eq_error_iff] at refused
    unfold Recipe.ofLiteral at refused
    split at refused <;> cases refused
    exact .literal _
  · rw [map_eq_error_iff] at refused
    unfold Recipe.ofCombine at refused
    split at refused
    · rename_i absent
      cases refused
      exact .missing _ rfl (.inr (List.any_eq_true.1 absent))
    · cases refused
  · cases refused
    exact .comma
  · cases refused
    exact .misplaced _
  · rename_i op lhs rhs comma assign
    rw [map_eq_error_iff] at refused
    have computes : (Expr.binary op lhs rhs).isStructural = false := by
      cases op <;> first | rfl | exact absurd rfl comma | exact absurd rfl assign
    refine Recipe.ofOperation_refused computes ?_ refused
    simp [Expr.operands, show op.isStructural = false from computes]
  · rw [map_eq_error_iff] at refused
    exact Recipe.ofOperation_refused rfl (Expr.arguments_ne_nil _) refused

end Shadeloom
