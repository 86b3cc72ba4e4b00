import Mathlib
import Shadeloom.Proofs.Build.Computing
import Shadeloom.Proofs.Expr.Meaning
/-!
# Sockets have the values of their trees

A node that is made by the recipe of a tree computes the value of the tree from the values of the
operands that arrive at it, whatever the function; sockets that nothing feeds have the defaults that
the value of the tree is defined by. So in a graph every socket that computes a tree has its value.
-/
namespace Shadeloom

open Shadeloom.Expr Machine

/-- An operation with one operand reads only its first input. -/
theorem MathOp.eval_of_isUnary {op : MathOp} (unary : op.isUnary = true) (a b c : Float) :
    op.eval a b = op.eval a c := by
  cases op <;> first | rfl | cases unary

/-- The values that a node reads when values arrive at some of its sockets. -/
def Node.readsFrom (node : Node) (arriving : Nat → Option Value) : List Value :=
  node.inputs.zipIdx.map fun (socket, place) =>
    ((arriving place).getD socket.default).convert socket.type

namespace Expr

/-- What is done for a tree that calls a function. -/
theorem Calls.plan_eq {e : Expr} {name : String} (calls : e.Calls name) (library : Library) :
    Plan.of library e = (Recipe.ofOperation library name e.operands).map .make := by
  cases calls with
  | call => rfl
  | @binary op lhs rhs computes =>
    cases op with
    | assign => cases computes
    | comma => cases computes
    | _ => rfl

end Expr

namespace Recipe

variable {e : Expr} {es : List Expr} {name : String} {function : Function} {recipe : Recipe}
  {types : String → SocketType} {supplied : Assignment} {arriving : Nat → Option Value}

/-- What is made of a listed function with operands that are there. -/
theorem ofOperation_eq (found : Function.find? name = some function)
    (present : es.any isEmpty = false) :
    ofOperation .empty name es = ofFunction function es := by
  have group : Function.calledGroup? name = none := by
    rw [← Function.name_of_find? found]
    exact (Function.fitted_of_mem (Function.mem_of_find? found)).2
  unfold ofOperation
  rw [present, group, found]
  rfl

/-- Whether the values of operands arrive at their places and nothing arrives at other places. -/
structure Served (types : String → SocketType) (supplied : Assignment) (recipe : Recipe)
    (arriving : Nat → Option Value) : Prop where
  fed : ∀ operand ∈ recipe.operands,
    arriving operand.1 = some (operand.2.meaningAs types supplied)
  free : ∀ place, place ∉ recipe.operands.map Prod.fst → arriving place = none

/-- Whether a node computes a value at an output socket from what arrives at it. -/
def Yields (recipe : Recipe) (arriving : Nat → Option Value) (value : Value) : Prop :=
  ∀ id, ∃ outputs, recipe.node.op.eval (recipe.node.readsFrom arriving) id = .ok outputs ∧
    outputs[recipe.output]? = some value

/-- Whether the node of a recipe can be evaluated whatever it reads, and computes a value when it is
fed as the recipe says, with operands that have a value and use all variables of some trees. -/
structure Implements (recipe : Recipe) (es : List Expr)
    (value : (String → SocketType) → Assignment → Value) : Prop where
  operands : ∀ operand ∈ recipe.operands, operand.2.IsComputable
  covers : ∀ e ∈ es, ∀ v ∈ e.usedVariables, ∃ operand ∈ recipe.operands,
    v ∈ operand.2.usedVariables
  steady : ∀ inputs id, ∃ outputs, recipe.node.op.eval inputs id = .ok outputs
  yields : ∀ types supplied arriving, recipe.Served types supplied arriving →
    recipe.Yields arriving (value types supplied)

/-- What arrives at the places of operands that are fed in order. -/
theorem Served.get {op : NodeOp} {first output : Nat}
    (served : (inOrder op first es output).Served types supplied arriving) (place : Nat)
    (fed : es[place]? = some e) : arriving (first + place) = some (e.meaningAs types supplied) := by
  refine served.fed (first + place, e) (List.mem_map.2 ⟨(e, first + place), ?_, rfl⟩)
  rw [List.mem_zipIdx_iff_le_and_getElem?_sub]
  exact ⟨Nat.le_add_right _ _, by rwa [Nat.add_sub_cancel_left]⟩

/-- Nothing arrives before the first place of operands that are fed in order. -/
theorem Served.before {op : NodeOp} {first output : Nat}
    (served : (inOrder op first es output).Served types supplied arriving) {place : Nat}
    (before : place < first) : arriving place = none := by
  apply served.free
  rw [places_inOrder, List.mem_range'_1]
  omega

/-- Operands that are fed in order have a value if all of them do. -/
theorem computable_inOrder {op : NodeOp} {first output : Nat}
    (computable : ∀ e ∈ es, e.IsComputable) :
    ∀ operand ∈ (inOrder op first es output).operands, operand.2.IsComputable :=
  fun operand mem => computable operand.2 (mem_of_mem_zipIdx mem)

/-- A scalar operation can be made for as many operands as its function takes, and computes the
value of the function on their values. -/
theorem math_spec {op : MathOp} (found : Function.find? name = some function)
    (role : function.role = .math op) (accepts : function.accepts es.length = true)
    (computable : ∀ e ∈ es, e.IsComputable) :
    ∃ recipe, math function op es = .ok recipe ∧ recipe.Implements es fun types supplied =>
      Function.apply name (es.map (meaningAs types supplied)) := by
  have fitted := (Function.fitted_of_mem (Function.mem_of_find? found)).1
  unfold Function.isFitted at fitted
  rw [role] at fitted
  simp only [Bool.and_eq_true, Bool.or_eq_true, decide_eq_true_eq] at fitted
  obtain ⟨fewest, most⟩ := fitted
  have bounds := Function.accepts_iff.1 accepts
  have arity : op.arity = 1 ∧ op.isUnary = true ∨ op.arity = 2 ∧ op.isUnary = false := by
    cases op <;> decide
  have applied (values : List Value) : Function.apply name values = op.apply values := by
    unfold Function.apply
    rw [found, Option.map_some, role]
  -- What two operands that arrive come to.
  have pair (a b : Expr) (types : String → SocketType) (supplied : Assignment)
      (arriving : Nat → Option Value)
      (served : (inOrder (.math op) 0 [a, b] 0).Served types supplied arriving) :
      (inOrder (.math op) 0 [a, b] 0).Yields arriving
        (op.apply [a.meaningAs types supplied, b.meaningAs types supplied]) := by
    have first : arriving 0 = _ := served.get 0 rfl
    have second : arriving 1 = _ := served.get 1 rfl
    refine fun id => ⟨_, rfl, ?_⟩
    show some (Value.scalar (op.eval (((arriving 0).getD _).convert .scalar).toScalar
      (((arriving 1).getD _).convert .scalar).toScalar)) = _
    rw [first, second]
    rfl
  simp only [applied]
  match es, computable, bounds with
  | [], _, bounds =>
    simp only [List.length_nil] at bounds
    omega
  | [a], computable, bounds =>
    simp only [List.length_singleton] at bounds
    have single : op.arity = 1 ∧ op.isUnary = true := by
      rcases arity with single | double
      · exact single
      · omega
    refine ⟨inOrder (.math op) 0 [a] 0, ?_, computable_inOrder computable, covers_inOrder,
      fun inputs id => ⟨_, rfl⟩, fun types supplied arriving served id => ⟨_, rfl, ?_⟩⟩
    · simp [math, single.1]
    · have first : arriving 0 = _ := served.get 0 rfl
      show some (Value.scalar (op.eval (((arriving 0).getD _).convert .scalar).toScalar
        (((arriving 1).getD _).convert .scalar).toScalar)) = _
      rw [first, MathOp.eval_of_isUnary single.2 _ _ 0.0]
      rfl
  | [a, b], computable, bounds =>
    simp only [List.length_cons, List.length_nil] at bounds
    have double : op.arity = 2 := by omega
    refine ⟨inOrder (.math op) 0 [a, b] 0, ?_, computable_inOrder computable, covers_inOrder,
      fun inputs id => ⟨_, rfl⟩, pair a b⟩
    simp [math, double]
  | a :: b :: c :: rest, computable, bounds =>
    simp only [List.length_cons] at bounds
    have variadic : op.arity = 2 ∧ function.isVariadic = true := by
      rcases most with most | variadic
      · omega
      · exact variadic
    have others : ∀ e ∈ b :: c :: rest, e.IsComputable := fun e mem => computable e (by simp [mem])
    have listed : (chain (b :: c :: rest)).arguments = b :: c :: rest :=
      arguments_chain (by simp) fun last ends =>
        (others last (List.mem_of_getLast? ends)).not_comma
    have later : (call function.name (chain (b :: c :: rest))).IsComputable := by
      refine .calls (.call _ _) (Function.name_of_find? found ▸ found) (by rw [role]; rfl) ?_ ?_
      · show function.accepts (chain (b :: c :: rest)).arguments.length = true
        rw [listed]
        simp only [Function.accepts_iff, List.length_cons]
        omega
      · show ∀ operand ∈ (chain (b :: c :: rest)).arguments, operand.IsComputable
        rw [listed]
        exact others
    have both : ∀ e ∈ [a, call function.name (chain (b :: c :: rest))], e.IsComputable := by
      intro e mem
      simp only [List.mem_cons, List.not_mem_nil, or_false] at mem
      rcases mem with rfl | rfl
      · exact computable e (by simp)
      · exact later
    refine ⟨inOrder (.math op) 0 [a, .call function.name (chain (b :: c :: rest))] 0, ?_,
      computable_inOrder both, fun e mem v used => ?_, fun inputs id => ⟨_, rfl⟩,
      fun types supplied arriving served => ?_⟩
    · simp [math, variadic]
    · rcases List.mem_cons.1 mem with rfl | mem
      · exact covers_inOrder e (by simp) v used
      · apply covers_inOrder (call function.name (chain (b :: c :: rest))) (by simp)
        rw [usedVariables_call, usedVariables_chain]
        exact List.mem_flatMap.2 ⟨e, mem, used⟩
    · have value : (call function.name (chain (b :: c :: rest))).meaningAs types supplied =
          op.apply ((b :: c :: rest).map (meaningAs types supplied)) := by
        rw [meaningAs, (Calls.call _ _).meanings_eq, Function.name_of_find? found, applied]
        show op.apply ((chain (b :: c :: rest)).arguments.flatMap _) = _
        rw [listed, flatMap_meanings others]
      have yields := pair a _ types supplied arriving served
      rw [value] at yields
      exact yields

/-- Any other operation can be made for no more operands than its node has inputs. -/
theorem plain_eq {op : NodeOp} (fits : es.length ≤ op.inputSockets.length - function.role.inputSocket) :
    plain function op es =
      .ok (inOrder op function.role.inputSocket es function.role.outputSocket) := by
  unfold plain
  rw [if_neg (Nat.not_lt.2 fits)]

/-- A vector operation can be made for as many operands as its function takes, and computes the value
of the function on their values. -/
theorem vectorMath_spec {op : VectorOp} (found : Function.find? name = some function)
    (role : function.role = .vectorMath op) (accepts : function.accepts es.length = true)
    (computable : ∀ e ∈ es, e.IsComputable) :
    ∃ recipe, plain function (.vectorMath op) es = .ok recipe ∧
      recipe.Implements es fun types supplied =>
        Function.apply name (es.map (meaningAs types supplied)) := by
  have fitted := (Function.fitted_of_mem (Function.mem_of_find? found)).1
  unfold Function.isFitted at fitted
  rw [role] at fitted
  simp only [Bool.and_eq_true, decide_eq_true_eq] at fitted
  have bounds := Function.accepts_iff.1 accepts
  have count : es.length = if op = .normalize then 1 else 2 := by omega
  have applied (values : List Value) : Function.apply name values = op.apply values := by
    unfold Function.apply
    rw [found, Option.map_some, role]
  have socket : function.role.inputSocket = 0 := by rw [role]; rfl
  have fits : es.length ≤ (NodeOp.vectorMath op).inputSockets.length - function.role.inputSocket := by
    rw [socket, count]
    show (if op = .normalize then 1 else 2) ≤ 2 - 0
    split <;> omega
  refine ⟨_, plain_eq fits, computable_inOrder computable, covers_inOrder, fun inputs id => ⟨_, rfl⟩,
    fun types supplied arriving served id => ⟨_, rfl, ?_⟩⟩
  rw [socket, role] at served
  rw [socket, role, applied]
  match es, count, served with
  | [], count, _ =>
    split at count <;> cases count
  | [a], count, served =>
    split at count
    · rename_i normalizes
      subst normalizes
      have first : arriving 0 = _ := served.get 0 rfl
      show some (Value.vector (((arriving 0).getD _).convert .vector).toVec3.normalized.1) = _
      rw [first]
      rfl
    · cases count
  | [a, b], count, served =>
    have first : arriving 0 = _ := served.get 0 rfl
    have second : arriving 1 = _ := served.get 1 rfl
    have reads : (inOrder (.vectorMath op) 0 [a, b] (Role.vectorMath op).outputSocket).node.readsFrom
        arriving = [.vector (a.meaningAs types supplied).toVec3,
          .vector (b.meaningAs types supplied).toVec3] := by
      show [((arriving 0).getD _).convert .vector, ((arriving 1).getD _).convert .vector] = _
      rw [first, second]
      rfl
    rw [reads]
    cases op <;> rfl
  | _ :: _ :: _ :: _, count, _ =>
    simp only [List.length_cons] at count
    split at count <;> omega

/-- A mixing node can be made for as many operands as its function takes, and computes the value of
the function on their values. -/
theorem mix_spec {blend : MixBlend} {first : Nat} (found : Function.find? name = some function)
    (role : function.role = .mix blend first) (accepts : function.accepts es.length = true)
    (computable : ∀ e ∈ es, e.IsComputable) :
    ∃ recipe, plain function (.mix blend) es = .ok recipe ∧
      recipe.Implements es fun types supplied =>
        Function.apply name (es.map (meaningAs types supplied)) := by
  have fitted := (Function.fitted_of_mem (Function.mem_of_find? found)).1
  unfold Function.isFitted at fitted
  rw [role] at fitted
  simp only [Bool.and_eq_true, decide_eq_true_eq] at fitted
  obtain ⟨⟨exact, most⟩, start⟩ := fitted
  have bounds := Function.accepts_iff.1 accepts
  have count : es.length = 3 - first := by omega
  have applied (values : List Value) : Function.apply name values = blend.apply values := by
    unfold Function.apply
    rw [found, Option.map_some, role]
  have socket : function.role.inputSocket = first := by rw [role]; rfl
  have fits : es.length ≤ (NodeOp.mix blend).inputSockets.length - function.role.inputSocket := by
    rw [socket, count]
    exact Nat.le_refl _
  refine ⟨_, plain_eq fits, computable_inOrder computable, covers_inOrder, fun inputs id => ⟨_, rfl⟩,
    fun types supplied arriving served id => ⟨_, rfl, ?_⟩⟩
  rw [socket] at served
  rw [applied, role]
  show some (Value.vector (blend.eval (((arriving 0).getD _).convert .scalar).toScalar
    (((arriving 1).getD _).convert .vector).toVec3
    (((arriving 2).getD _).convert .vector).toVec3)) = _
  split at start
  · subst start
    match es, count, served with
    | [factor, a, b], _, served =>
      have early : arriving 0 = _ := served.get 0 rfl
      have middle : arriving 1 = _ := served.get 1 rfl
      have late : arriving 2 = _ := served.get 2 rfl
      rw [early, middle, late]
      rfl
  · rename_i full
    subst start
    match es, count, served with
    | [a, b], _, served =>
      have early : arriving 0 = none := served.before Nat.zero_lt_one
      have middle : arriving 1 = _ := served.get 0 rfl
      have late : arriving 2 = _ := served.get 1 rfl
      rw [early, middle, late]
      simp only [Option.getD_none, if_neg full]
      rfl

/-- A listed function of math can be made for as many operands as it takes, and its node computes the
value of the function on their values. -/
theorem ofOperation_spec (found : Function.find? name = some function)
    (arithmetic : function.role.isArithmetic = true) (accepts : function.accepts es.length = true)
    (computable : ∀ e ∈ es, e.IsComputable) :
    ∃ recipe, ofOperation .empty name es = .ok recipe ∧ recipe.Implements es fun types supplied =>
      Function.apply name (es.map (meaningAs types supplied)) := by
  rw [ofOperation_eq found (any_isEmpty_eq_false computable)]
  unfold ofFunction
  split
  · exact math_spec found ‹_› accepts computable
  · exact vectorMath_spec found ‹_› accepts computable
  · exact mix_spec found ‹_› accepts computable
  all_goals
    rename_i role
    rw [role] at arithmetic
    cases arithmetic

/-- A literal is made a constant of its number. -/
theorem ofLiteral_spec {literal : Literal} {number : Float} (read : literal.number? = some number) :
    ∃ recipe, ofLiteral literal = .ok recipe ∧
      recipe.Implements [] fun types supplied => (Expr.value literal).meaningAs types supplied := by
  refine ⟨inOrder (.constant number) 0 [] 0, ?_, fun operand mem => (by cases mem), fun e mem => (by cases mem),
    fun inputs id => ⟨_, rfl⟩, fun types supplied arriving served id => ⟨_, rfl, ?_⟩⟩
  · unfold ofLiteral
    rw [read]
  · show some (Value.scalar number) = some (Value.scalar (literal.number?.getD 0.0))
    rw [read]
    rfl

/-- The scalar that arrives from a component is its value; one that is not present is zero. -/
theorem component_eq (types : String → SocketType) (supplied : Assignment)
    (arriving : Nat → Option Value) (place : Nat) (y : Option Expr)
    (computable : ∀ e ∈ y, e.IsComputable)
    (fed : ∀ e ∈ y, arriving place = some (e.meaningAs types supplied))
    (free : y = none → arriving place = none) :
    (((arriving place).getD (Value.splat 0.0 .scalar)).convert .scalar).toScalar =
      componentMeaning types supplied y := by
  cases y with
  | none =>
    rw [free rfl]
    rfl
  | some e =>
    rw [fed e rfl, componentMeaning, (computable e rfl).meanings_eq]
    rfl

/-- A vector can be put together from components that have a value. -/
theorem ofCombine_spec {x : Expr} {y z : Option Expr} (first : x.IsComputable)
    (second : ∀ e ∈ y, e.IsComputable) (third : ∀ e ∈ z, e.IsComputable) :
    ∃ recipe, ofCombine x y z = .ok recipe ∧
      recipe.Implements (Expr.components x y z) fun types supplied =>
        (Expr.combine x y z).meaningAs types supplied := by
  have all : ∀ e ∈ Expr.components x y z, e.IsComputable := by
    intro e mem
    simp only [Expr.components, List.mem_cons, List.mem_append, Option.mem_toList] at mem
    rcases mem with rfl | here | here
    · exact first
    · exact second e here
    · exact third e here
  have listed {operand : Nat × Expr} : operand ∈ components x y z ↔
      operand = (0, x) ∨ (∃ e ∈ y, (1, e) = operand) ∨ ∃ e ∈ z, (2, e) = operand := by
    simp [components]
  refine ⟨⟨.ofOp .combineXyz, components x y z, 0⟩, ?_, fun operand mem => ?_,
    fun e mem v used => ?_, fun inputs id => ⟨_, rfl⟩, fun types supplied arriving served id => ⟨_, rfl, ?_⟩⟩
  · unfold ofCombine
    rw [if_neg]
    rw [any_isEmpty_eq_false all]
    exact Bool.false_ne_true
  · apply all
    simp only [Expr.components, List.mem_cons, List.mem_append, Option.mem_toList]
    rcases listed.1 mem with rfl | ⟨e, here, rfl⟩ | ⟨e, here, rfl⟩
    · exact .inl rfl
    · exact .inr (.inl here)
    · exact .inr (.inr here)
  · simp only [Expr.components, List.mem_cons, List.mem_append, Option.mem_toList] at mem
    rcases mem with rfl | here | here
    · exact ⟨(0, e), listed.2 (.inl rfl), used⟩
    · exact ⟨(1, e), listed.2 (.inr (.inl ⟨e, here, rfl⟩)), used⟩
    · exact ⟨(2, e), listed.2 (.inr (.inr ⟨e, here, rfl⟩)), used⟩
  · have fed : ∀ operand ∈ components x y z,
        arriving operand.1 = some (operand.2.meaningAs types supplied) := served.fed
    have free : ∀ place, place ∉ (components x y z).map Prod.fst → arriving place = none :=
      served.free
    have early := component_eq types supplied arriving 0 (some x)
      (fun e same => Option.some.inj same ▸ first)
      (fun e same => Option.some.inj same ▸ fed (0, x) (listed.2 (.inl rfl)))
      fun absent => absurd absent (Option.some_ne_none x)
    have middle := component_eq types supplied arriving 1 y second
      (fun e here => fed (1, e) (listed.2 (.inr (.inl ⟨e, here, rfl⟩))))
      fun absent => free 1 (by cases z <;> simp [components, absent])
    have late := component_eq types supplied arriving 2 z third
      (fun e here => fed (2, e) (listed.2 (.inr (.inr ⟨e, here, rfl⟩))))
      fun absent => free 2 (by cases y <;> simp [components, absent])
    let read (place : Nat) : Float :=
      (((arriving place).getD (Value.splat 0.0 .scalar)).convert .scalar).toScalar
    show some (Value.vector ⟨read 0, read 1, read 2⟩) = _
    rw [show read 0 = _ from early, show read 1 = _ from middle, show read 2 = _ from late]
    rfl

end Recipe

namespace Expr

variable {e root : Expr}

/-- A tree is no larger than all trees of a list that it is in. -/
theorem size_le_totalSize {es : List Expr} (mem : e ∈ es) : e.size ≤ totalSize es := by
  induction es with
  | nil => cases mem
  | cons other rest ih =>
    rw [totalSize]
    rcases List.mem_cons.1 mem with rfl | mem
    · exact Nat.le_add_right _ _
    · exact (ih mem).trans (Nat.le_add_left _ _)

/-- A tree that has a value and is no variable is made by a recipe that computes this value. -/
theorem IsComputable.plan_spec (computable : e.IsComputable) :
    (∃ v : Variable, e = .var v ∧ v.IsReadable) ∨
      ∃ recipe, Plan.of .empty e = .ok (.make recipe) ∧
        recipe.Implements e.operands fun types supplied => e.meaningAs types supplied := by
  cases computable with
  | @var v readable => exact .inl ⟨v, rfl, readable⟩
  | value read =>
    obtain ⟨recipe, made, implements⟩ := Recipe.ofLiteral_spec read
    exact .inr ⟨recipe, by rw [Plan.of, made]; rfl, implements⟩
  | combine first second third =>
    obtain ⟨recipe, made, implements⟩ := Recipe.ofCombine_spec first second third
    exact .inr ⟨recipe, by rw [Plan.of, made]; rfl, implements⟩
  | @calls _ name function calls found arithmetic accepts operands =>
    obtain ⟨recipe, made, implements⟩ :=
      Recipe.ofOperation_spec found arithmetic accepts operands
    refine .inr ⟨recipe, by rw [calls.plan_eq, made]; rfl, ?_⟩
    have value (types : String → SocketType) (supplied : Assignment) :
        e.meaningAs types supplied = Function.apply name (e.operands.map (meaningAs types supplied)) := by
      rw [meaningAs, calls.meanings_eq, flatMap_meanings operands]
      rfl
    simp only [value]
    exact implements

/-- The recipe of a tree that has a value computes it. -/
theorem IsComputable.implements (computable : e.IsComputable) {recipe : Recipe}
    (planned : Plan.of .empty e = .ok (.make recipe)) :
    recipe.Implements e.operands fun types supplied => e.meaningAs types supplied := by
  rcases computable.plan_spec with ⟨v, rfl, -⟩ | ⟨recipe', planned', implements⟩
  · cases planned
  · rw [planned, Except.ok.injEq, Plan.make.injEq] at planned'
    exact planned' ▸ implements

/-- What a tree that has a value needs has a value. -/
theorem IsComputable.needs (computable : root.IsComputable) (needed : root.Needs e) :
    e.IsComputable := by
  induction needed with
  | root => exact computable
  | operand _ planned mem ih => exact (ih.implements planned).operands _ mem

/-- What a tree that has a value is made of is smaller. -/
theorem size_lt_of_planned {recipe : Recipe} (planned : Plan.of .empty e = .ok (.make recipe))
    {operand : Nat × Expr} (mem : operand ∈ recipe.operands) : operand.2.size < e.size :=
  Nat.lt_of_le_of_lt (size_le_totalSize (List.mem_map_of_mem (f := Prod.snd) mem))
    (Recipe.load_lt_size planned)

/-- A tree that has a value can be built. -/
theorem IsComputable.lowerable (computable : e.IsComputable) : e.Lowerable := by
  generalize bound : e.size = size
  induction size using Nat.strong_induction_on generalizing e with
  | _ size ih =>
    rcases computable.plan_spec with ⟨v, rfl, readable⟩ | ⟨recipe, planned, implements⟩
    · exact .read readable
    · refine .make planned fun operand mem => ?_
      exact ih _ (bound ▸ size_lt_of_planned planned mem) (implements.operands operand mem) rfl

/-- A tree that has a value needs every variable that it uses. -/
theorem IsComputable.needs_var (computable : root.IsComputable) {v : Variable}
    (used : v ∈ root.usedVariables) : root.Needs (.var v) := by
  have later (size : Nat) : ∀ e, e.size = size → root.Needs e → v ∈ e.usedVariables →
      root.Needs (.var v) := by
    induction size using Nat.strong_induction_on with
    | _ size ih =>
      intro e bound needed used
      rcases (computable.needs needed).plan_spec with ⟨v', rfl, -⟩ | ⟨recipe, planned, implements⟩
      · rw [usedVariables_var, List.mem_singleton] at used
        exact used ▸ needed
      · have other : ∀ v', e ≠ .var v' := by
          rintro v' rfl
          cases planned
        rw [← usedVariables_operands other, List.mem_flatMap] at used
        obtain ⟨part, mem, used⟩ := used
        obtain ⟨operand, mem, used⟩ := implements.covers part mem v used
        exact ih _ (bound ▸ size_lt_of_planned planned mem) operand.2 rfl
          (needed.operand planned mem) used
  exact later _ root rfl .root used

end Expr

end Shadeloom
