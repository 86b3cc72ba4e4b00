import Mathlib
import Shadeloom.Compile
import Shadeloom.Proofs.Build.Values
import Shadeloom.Proofs.Build.Wiring
import Shadeloom.Proofs.Expr.Checks
import Shadeloom.Proofs.Source.Parsing
/-!
# Single expressions are built into graphs that compute them

A source that is one valid expression of math, with or without the name of an output, is built
whatever choices are made, and for any values of its variables the graph gives the value of the tree
through this output and nothing else.
-/
namespace Shadeloom

open Shadeloom.Expr Machine

/-- A variable that passes the check has a default that is a number, if it has one. -/
theorem Variable.readDefault?_of_check {v : Variable} (checked : v.check = .ok ()) :
    ∀ text, v.fallback = some text → (readDefault? text).isSome = true := by
  obtain ⟨⟨⟩, -, checked⟩ := bind_eq_ok_iff.1 checked
  obtain ⟨⟨⟩, -, checked⟩ := bind_eq_ok_iff.1 checked
  intro text same
  unfold checkDefault at checked
  rw [same] at checked
  by_contra unread
  simp only [if_neg unread] at checked
  cases checked

namespace Expr

/-- Every operator is found, is one of math and takes two operands. -/
theorem exists_function_of_operator (op : BinaryOp) (computes : op.isStructural = false) :
    ∃ function, Function.find? op.symbol = some function ∧ function.role.isArithmetic = true ∧
      function.accepts 2 = true := by
  cases op with
  | assign => cases computes
  | comma => cases computes
  | _ => exact ⟨_, rfl, rfl, rfl⟩

/-- The call of a listed function that passes the check has as many operands as it takes. -/
theorem accepts_of_checkCall {name : String} {function : Function} {es : List Expr}
    (found : Function.find? name = some function) (checked : checkCall name es = .ok ()) :
    function.accepts es.length = true := by
  have group : Function.calledGroup? name = none := by
    rw [← Function.name_of_find? found]
    exact (Function.fitted_of_mem (Function.mem_of_find? found)).2
  unfold checkCall at checked
  split at checked
  · cases checked
  · rw [group, found] at checked
    by_contra refused
    simp only [Option.isSome_none, Bool.false_eq_true, if_false, if_neg refused] at checked
    cases checked

/-- A tree of math is no chain. -/
theorem IsArithmetic.arguments_eq {e : Expr} (arithmetic : e.IsArithmetic) : e.arguments = [e] := by
  cases arithmetic with
  | @binary op _ _ computes _ _ =>
    cases op with
    | comma => cases computes
    | _ => rfl
  | _ => rfl

/-- A tree of math whose variables and operations pass the check has a value. -/
theorem IsArithmetic.isComputable {e : Expr} (arithmetic : e.IsArithmetic)
    (variables_ : ∀ v ∈ e.usedVariables, v.check = .ok ())
    (operations : e.Every fun part => part.checkOperation = .ok ()) : e.IsComputable := by
  induction arithmetic with
  | value number =>
    obtain ⟨number, read⟩ := Option.isSome_iff_exists.1 number
    exact .value read
  | @var v plain subscript =>
    exact .var ⟨plain, Variable.readDefault?_of_check (variables_ v (by simp)), subscript⟩
  | @combine x y z _ _ _ first second third =>
    rw [every_combine] at operations
    obtain ⟨-, left, middle, right⟩ := operations
    have used (e : Expr) (mem : e ∈ Expr.components x y z) :
        ∀ v ∈ e.usedVariables, v.check = .ok () := by
      intro v here
      apply variables_
      rw [← usedVariables_operands (e := .combine x y z) nofun]
      exact List.mem_flatMap.2 ⟨e, mem, here⟩
    refine .combine (first (used x (by simp [components])) left)
      (fun e mem => second e mem (used e ?_) (middle e mem))
      fun e mem => third e mem (used e ?_) (right e mem)
    · simp [components, Option.mem_def.1 mem]
    · simp [components, Option.mem_def.1 mem]
  | @binary op lhs rhs computes _ right left' right' =>
    rw [every_binary] at operations
    rw [usedVariables_binary] at variables_
    obtain ⟨function, found, role, accepts⟩ := exists_function_of_operator op computes
    have listed : (Expr.binary op lhs rhs).operands = [lhs, rhs] := by
      rw [operands_binary computes, right.arguments_eq]
    refine .calls (.binary lhs rhs computes) found role (by rw [listed]; exact accepts) ?_
    rw [listed]
    intro operand mem
    simp only [List.mem_cons, List.not_mem_nil, or_false] at mem
    rcases mem with rfl | rfl
    · exact left' (fun v here => variables_ v (List.mem_append_left _ here)) operations.2.1
    · exact right' (fun v here => variables_ v (List.mem_append_right _ here)) operations.2.2
  | @call name args function found role _ operands =>
    rw [every_call] at operations
    rw [usedVariables_call, ← usedVariables_arguments] at variables_
    refine .calls (.call name args) found role (accepts_of_checkCall found operations.1)
      fun operand mem => operands operand mem
        (fun v here => variables_ v (List.mem_flatMap.2 ⟨operand, mem, here⟩))
        (operations.2.arguments operand mem)

/-- A tree of math takes no names. -/
theorem IsArithmetic.every_isNameless {e : Expr} (arithmetic : e.IsArithmetic) :
    e.Every IsNameless := by
  have listed {e : Expr} {name : String} {function : Function} (called : e.operation? = some name)
      (found : Function.find? name = some function) (role : function.role.isArithmetic = true) :
      e.IsNameless := by
    intro name' function' called' found'
    rw [called, Option.some.injEq] at called'
    subst called'
    rw [found, Option.some.injEq] at found'
    subst found'
    unfold Function.takesNames
    cases kind : function.role <;> first | rfl | (rw [kind] at role; cases role)
  induction arithmetic with
  | value => exact every_value.2 nofun
  | var => exact every_var.2 nofun
  | combine _ _ _ first second third =>
    refine every_combine.2 ⟨fun name function called found => ?_, first, second, third⟩
    cases called
    have same : Function.find? "combine" = some ⟨"combine", 1, 3, .combine⟩ := by decide +kernel
    rw [same, Option.some.injEq] at found
    exact found ▸ rfl
  | @binary op _ _ computes _ _ left right =>
    obtain ⟨function, found, role, -⟩ := exists_function_of_operator op computes
    exact every_binary.2 ⟨listed rfl found role, left, right⟩
  | @call name args function found role _ operands =>
    refine every_call.2 ⟨listed rfl found role, ?_⟩
    rw [← chain_arguments args]
    exact every_chain isNameless_comma (arguments_ne_nil args) operands

end Expr

/-- A plain node computes its values from what it reads alone. -/
theorem Machine.evalNode_of_isPlain {setting : Setting} {supplied : Assignment} {id : Nat}
    {node : Node} (plain : node.op.IsPlain) (inputs : List Value) :
    evalNode setting supplied id node inputs = node.op.eval inputs id := by
  unfold evalNode
  split
  · rename_i port op
    rw [op] at plain
    cases plain.1
  · rename_i port op
    rw [op] at plain
    cases plain.1
  · rename_i group op
    exact absurd op (plain.2 group)
  · rfl

/-- The node of a recipe without a library is a plain one. -/
theorem Recipe.isPlain_node {e : Expr} {recipe : Recipe}
    (planned : Plan.of .empty e = .ok (.make recipe)) : recipe.node.op.IsPlain := by
  obtain ⟨op, same, plain⟩ := (Recipe.isPlain_of_empty planned).node
  rw [same]
  exact plain

namespace Graph

variable {graph : Graph} {e root : Expr} {socket : Socket}

/-- What arrives at an input socket of a node under a valuation. -/
def arriving (graph : Graph) (valuation : Nat → List Value) (id place : Nat) : Option Value :=
  (graph.source? ⟨id, place⟩).bind fun source => (valuation source.node)[source.place]?

/-- What a variable that is computed reads is an input of its name, and one of vectors if the
variable has a subscript. -/
theorem Computes.exists_input {v : Variable} (computes : graph.Computes (.var v) socket) :
    ∃ id type, graph.input? v.name = some id ∧ graph.node? id = some (.newInput v.name type) ∧
      (v.subscript.isSome = true → type = .vector) := by
  cases computes with
  | @input _ id type _ listed found whole =>
    refine ⟨id, type, listed, found, fun selects => ?_⟩
    obtain ⟨subscript, selects⟩ := Option.isSome_iff_exists.1 selects
    exact (whole subscript selects).2
  | @component _ _ _ id _ _ _ _ listed found => exact ⟨id, .vector, listed, found, fun _ => rfl⟩
  | made _ planned => cases planned

/-- The types that the inputs of a graph have by name. -/
def HasTypes (graph : Graph) (types : String → SocketType) : Prop :=
  ∀ name id type, graph.input? name = some id →
    graph.node? id = some (.newInput name type) → type = types name

section

variable {setting : Setting} {supplied : Assignment} {valuation : Nat → List Value}
  {types : String → SocketType}

/-- The value of an input that is given is the given one as its type. -/
theorem valuation_input (valued : Valued { setting with graph } supplied valuation)
    (typed : graph.HasTypes types) {name : String} {id : Nat} {type : SocketType}
    (given : supplied.contains name = true) (listed : graph.input? name = some id)
    (found : graph.node? id = some (.newInput name type)) :
    valuation id = [((supplied.get? name).getD (.scalar 0.0)).convert (types name)] := by
  have value := valued id _ found
  rw [← typed name id type listed found]
  rw [← Table.isSome_get?] at given
  obtain ⟨whole, given⟩ := Option.isSome_iff_exists.1 given
  have value : (Except.ok [((supplied.get? name).getD (.zero type)).convert type] :
      Except EvalError (List Value)) = .ok (valuation id) := value
  rw [given] at value ⊢
  injection value with value
  exact value.symm

/-- A socket that computes a tree has the value of the tree under every valuation that is valid. -/
theorem Computes.value_eq (computes : graph.Computes e socket) (computable : e.IsComputable)
    (valued : Valued { setting with graph } supplied valuation) (typed : graph.HasTypes types)
    (given : ∀ name, (graph.input? name).isSome = true → supplied.contains name = true) :
    (valuation socket.node)[socket.place]? = some (e.meaningAs types supplied) := by
  induction computes with
  | @input v id type readable listed found whole =>
    have listed' := given v.name (Option.isSome_iff_exists.2 ⟨id, listed⟩)
    rw [valuation_input valued typed listed' listed found]
    have unselected : v.subscript.bind Variable.component? = none := by
      cases selects : v.subscript with
      | none => rfl
      | some subscript =>
        rw [(whole subscript selects).1]
        rfl
    show some _ = some (v.meaning (types v.name) supplied)
    unfold Variable.meaning
    rw [unselected]
  | @component v subscript place id split readable selects known listed found splits linked =>
    have listed' := given v.name (Option.isSome_iff_exists.2 ⟨id, listed⟩)
    have whole := valuation_input valued typed listed' listed found
    rw [← typed v.name id .vector listed found] at whole
    have value := valued split _ splits
    have reads : graph.reads valuation split (.ofOp .separateXyz) =
        [((graph.arriving valuation split 0).getD (Value.splat 0.0 .vector)).convert .vector] := rfl
    have arrives : graph.arriving valuation split 0 =
        some (((supplied.get? v.name).getD (.scalar 0.0)).convert .vector) := by
      unfold arriving
      rw [linked]
      show (valuation id)[0]? = _
      rw [whole]
      rfl
    rw [show Graph.reads _ _ _ _ = _ from reads, arrives] at value
    have value : (Except.ok (((supplied.get? v.name).getD (.scalar 0.0)).toVec3.toList.map
        Value.scalar) : Except EvalError (List Value)) = .ok (valuation split) := value
    injection value with value
    show (valuation split)[place]? = some (v.meaning (types v.name) supplied)
    unfold Variable.meaning
    rw [← value, selects, Option.bind_some, known, ← typed v.name id .vector listed found,
      List.getElem?_map]
    have below := Variable.component?_lt known
    match place, below with
    | 0, _ => rfl
    | 1, _ => rfl
    | 2, _ => rfl
  | @made e recipe id sources planned found linked computed free ih =>
    have implements := computable.implements planned
    have served : recipe.Served types supplied (graph.arriving valuation id) := by
      refine ⟨fun operand mem => ?_, fun place none => ?_⟩
      · unfold arriving
        rw [linked operand mem]
        exact ih operand mem (implements.operands operand mem)
      · unfold arriving
        rw [free place none]
        rfl
    obtain ⟨outputs, evaluated, value⟩ := implements.yields types supplied _ served id
    have same := valued id _ found
    rw [evalNode_of_isPlain (Recipe.isPlain_node planned)] at same
    have same : (.ok outputs : Except EvalError (List Value)) = .ok (valuation id) :=
      evaluated.symm.trans same
    injection same with same
    rw [← same]
    exact value

end

/-- Whether a node that is neither an input nor a constant reads a socket. -/
def IsRead (graph : Graph) (socket : Socket) : Prop :=
  ∃ reader node, graph.source? reader = some socket ∧ graph.node? reader.node = some node ∧
    (∀ port, node.op ≠ .input port) ∧ ∀ value, node.op ≠ .constant value

/-- A recipe that has operands makes no constant. -/
theorem not_constant_of_operand {recipe : Recipe} (planned : Plan.of .empty e = .ok (.make recipe))
    {operand : Nat × Expr} (mem : operand ∈ recipe.operands) (value : Float) :
    recipe.node.op ≠ .constant value := by
  have plain := Recipe.isPlain_of_empty planned
  have below := plain.places operand mem
  obtain ⟨op, same, -⟩ := plain.node
  rw [same] at below ⊢
  rintro (rfl : op = .constant value)
  exact absurd below (Nat.not_lt_zero _)

/-- Every tree that a tree needs is computed by a socket that is read, if the tree is. -/
theorem Computes.exists_computes (computes : graph.Computes root socket) (read : graph.IsRead socket)
    (needed : root.Needs e) : ∃ socket, graph.Computes e socket ∧ graph.IsRead socket := by
  induction needed with
  | root => exact ⟨socket, computes, read⟩
  | operand _ planned mem ih =>
    obtain ⟨socket', computes', -⟩ := ih
    cases computes' with
    | input => cases planned
    | component => cases planned
    | @made _ recipe' id sources planned' found linked computed _ =>
      rw [planned, Except.ok.injEq, Plan.make.injEq] at planned'
      subst planned'
      exact ⟨_, computed _ mem, ⟨id, _⟩, _, linked _ mem, found,
        Recipe.not_input planned, not_constant_of_operand planned mem⟩

/-- The input of a variable that is computed by a socket that is read is read. -/
theorem Computes.reads {v : Variable} (computes : graph.Computes (.var v) socket)
    (read : graph.IsRead socket) : graph.Reads v.name := by
  cases computes with
  | @input _ id _ _ listed _ _ =>
    obtain ⟨reader, node, linked, found, plain, varying⟩ := read
    exact ⟨id, reader, node, listed, linked, found, plain, varying⟩
  | @component _ _ _ id split _ _ _ listed _ splits linked =>
    exact ⟨id, ⟨split, 0⟩, _, listed, linked, splits, nofun, nofun⟩
  | made _ planned => cases planned

/-- An input that is read is listed. -/
theorem Reads.isSome_input? {name : String} (reads : graph.Reads name) :
    (graph.input? name).isSome = true := by
  obtain ⟨id, -, -, listed, -⟩ := reads
  exact Option.isSome_iff_exists.2 ⟨id, listed⟩

end Graph

/-- A table in which one key alone has a value is the table of this entry. -/
theorem Table.eq_ofList_singleton {κ β : Type} [DecidableEq κ] {table : Table κ β} {key : κ}
    {value : β} (only : ∀ other found, table.get? other = some found ↔ other = key ∧ found = value) :
    table = .ofList [(key, value)] := by
  have mem (entry : κ × β) : entry ∈ table.entries ↔ entry = (key, value) := by
    rw [← Table.get?_eq_some_iff, only, Prod.ext_iff]
  apply Table.ext
  show table.entries = [(key, value)]
  have distinct := List.Nodup.of_map _ table.distinct
  match entries : table.entries, distinct with
  | [], _ =>
    have here := (mem (key, value)).2 rfl
    rw [entries] at here
    cases here
  | [entry], _ =>
    rw [(mem entry).1 (by simp [entries])]
  | first :: second :: rest, distinct =>
    have same : first = second :=
      ((mem first).1 (by simp [entries])).trans ((mem second).1 (by simp [entries])).symm
    simp [same] at distinct

namespace Graph.Realizes

variable {graph : Graph} {requests : Requests} {request : Request} {config : EvalConfig}
  {supplied : Assignment}

/-- Every node of a graph for trees that have a value can be evaluated whatever it reads. -/
theorem steady (realizes : graph.Realizes requests)
    (computable : ∀ request ∈ requests.outputs, request.tree.IsComputable) (setting : Setting)
    {id : Nat} {node : Node} (found : graph.node? id = some node) (inputs : List Value) :
    ∃ produced, evalNode setting supplied id node inputs = .ok produced := by
  have input {name : String} {type : SocketType} (here : graph.node? id = some (.newInput name type)) :
      ∃ produced, evalNode setting supplied id node inputs = .ok produced := by
    rw [found, Option.some.injEq] at here
    subst here
    exact ⟨_, rfl⟩
  cases realizes.accounted id (Option.isSome_iff_exists.2 ⟨node, found⟩) with
  | held mem => cases mem
  | output mem =>
    obtain ⟨place, below, -, here, -⟩ := realizes.exists_yields mem
    rw [found, Option.some.injEq] at here
    subst here
    exact ⟨_, rfl⟩
  | input listed =>
    obtain ⟨⟨type, here, -⟩, -⟩ := realizes.inputs _ id listed
    exact input here
  | computes needs computes =>
    cases computes with
    | input _ _ here _ => exact input here
    | component _ _ _ _ _ splits _ =>
      rw [found, Option.some.injEq] at splits
      subst splits
      exact ⟨_, rfl⟩
    | made _ planned here _ _ _ =>
      rw [found, Option.some.injEq] at here
      subst here
      obtain ⟨request, mem, needed⟩ := needs
      rw [evalNode_of_isPlain (Recipe.isPlain_node planned)]
      exact (((computable request mem).needs needed).implements planned).steady inputs id

/-- The output of a graph for a single request is fed by a socket that computes the tree. -/
theorem exists_output (realizes : graph.Realizes requests) (single : requests.outputs = [request]) :
    ∃ id socket, graph.outputs = [id] ∧ graph.node? id = some (.newOutput request.name request.type) ∧
      graph.source? ⟨id, 0⟩ = some socket ∧ graph.Computes request.tree socket := by
  have outputs := realizes.outputs
  rw [single, List.forall₂_cons_left_iff] at outputs
  obtain ⟨id, rest, ⟨found, socket, linked, computes⟩, none, same⟩ := outputs
  rw [List.forall₂_nil_left_iff] at none
  rw [none] at same
  exact ⟨id, socket, same, found, linked, computes⟩

/-- The inputs of every variable that is needed are read. -/
theorem reads_of_needs (realizes : graph.Realizes requests) {v : Variable}
    (needs : requests.Needs (.var v)) : graph.Reads v.name := by
  obtain ⟨request, mem, needed⟩ := needs
  obtain ⟨place, below, rfl⟩ := List.mem_iff_getElem.1 mem
  obtain ⟨length, yields⟩ := List.forall₂_iff_get.1 realizes.outputs
  obtain ⟨found, socket, linked, computes⟩ := yields place below (length ▸ below)
  obtain ⟨socket', computes', read⟩ := computes.exists_computes
    ⟨_, _, linked, found, nofun, nofun⟩ needed
  exact computes'.reads read

/-- The inputs of a graph for a single request have the types of the variables of its tree. -/
theorem hasTypes (realizes : graph.Realizes requests) (single : requests.outputs = [request])
    (computable : request.tree.IsComputable) : graph.HasTypes request.tree.typeOf := by
  intro name id type listed found
  have used (v : Variable) (needed : request.tree.Needs (.var v)) :
      v ∈ request.tree.usedVariables :=
    (request.tree.every_isAmong.needs (isRootwise_isAmong _) needed).self v rfl
  unfold typeOf
  split
  · rename_i subscripted
    obtain ⟨v, mem, both⟩ := List.any_eq_true.1 subscripted
    rw [Bool.and_eq_true, decide_eq_true_eq] at both
    obtain ⟨rfl, selects⟩ := both
    obtain ⟨out, socket, -, found', linked, computes⟩ := realizes.exists_output single
    obtain ⟨socket', computes', -⟩ := computes.exists_computes
      ⟨_, _, linked, found', nofun, nofun⟩ (computable.needs_var mem)
    obtain ⟨id', type', listed', found'', vector⟩ := computes'.exists_input
    rw [listed, Option.some.injEq] at listed'
    subst listed'
    rw [found, Option.some.injEq] at found''
    have same : type = type' := by
      injection found'' with op
      injection op with port
      injection port
    rw [same, vector selects]
  · rename_i plain
    obtain ⟨⟨type', found', vector⟩, -⟩ := realizes.inputs name id listed
    rw [found, Option.some.injEq] at found'
    have same : type = type' := by
      injection found' with op
      injection op with port
      injection port
    cases type with
    | scalar => rfl
    | vector =>
      obtain ⟨v, ⟨other, mem, needed⟩, named, selects⟩ := vector same.symm
      rw [single, List.mem_singleton] at mem
      subst mem
      refine absurd (List.any_eq_true.2 ⟨v, used v needed, ?_⟩) plain
      simp [named, selects]

/-- The only request of a graph asks for the variables of its tree. -/
theorem every_isAmong_of_single (single : requests.outputs = [request]) :
    ∀ other ∈ requests.outputs, other.tree.Every (IsAmong request.tree.usedVariables) := by
  intro other mem
  rw [single, List.mem_singleton] at mem
  exact mem ▸ other.tree.every_isAmong

/-- Every input of a graph for a single request is given with the variables of its tree. -/
theorem contains_of_listed (realizes : graph.Realizes requests) (single : requests.outputs = [request])
    (given : ∀ v ∈ request.tree.usedVariables, supplied.contains v.name = true) (name : String)
    (listed : (graph.input? name).isSome = true) : supplied.contains name = true := by
  obtain ⟨v, used, rfl⟩ := realizes.exists_used (every_isAmong_of_single single) listed
  exact given v used

/-- A graph for a single request delivers the value of its tree, and nothing else. -/
theorem delivers_single (realizes : graph.Realizes requests) (single : requests.outputs = [request])
    (computable : request.tree.IsComputable)
    (given : ∀ v ∈ request.tree.usedVariables, supplied.contains v.name = true) {setting : Setting}
    {valuation : Nat → List Value} (valued : Valued { setting with graph } supplied valuation)
    (name : String) (value : Value) : graph.Delivers valuation name value ↔
      name = request.name ∧ value = (request.tree.meaning supplied).convert request.type := by
  obtain ⟨id, socket, listed, found, linked, computes⟩ := realizes.exists_output single
  have fed := computes.value_eq computable valued (realizes.hasTypes single computable)
    (realizes.contains_of_listed single given)
  have shown : graph.delivery? valuation id =
      some (request.name, (request.tree.meaning supplied).convert request.type) := by
    have here : graph.shownOutput? id = some (.newOutput request.name request.type, _) :=
      shownOutput?_eq_some_iff.2 ⟨found, rfl, rfl⟩
    unfold delivery?
    rw [here, Option.map_some]
    show some (request.name, ((((graph.source? ⟨id, 0⟩).bind fun source =>
      (valuation source.node)[source.place]?).getD _).convert request.type).convert request.type) = _
    rw [linked, Option.bind_some, fed, Value.convert_convert]
    rfl
  constructor
  · rintro ⟨other, delivers⟩
    have mem : other ∈ graph.outputs := by
      obtain ⟨⟨node, port⟩, here, -⟩ := Option.map_eq_some_iff.1 delivers
      obtain ⟨found, op, -⟩ := shownOutput?_eq_some_iff.1 here
      exact (realizes.isWired.output other node port found op).1
    rw [listed, List.mem_singleton] at mem
    subst mem
    rw [shown, Option.some.injEq, Prod.mk.injEq] at delivers
    exact ⟨delivers.1.symm, delivers.2.symm⟩
  · rintro ⟨rfl, rfl⟩
    exact ⟨id, shown⟩

/-- A graph for a single request evaluates to the value of its tree, and to nothing else. -/
theorem evaluate_single (realizes : graph.Realizes requests) (single : requests.outputs = [request])
    (computable : request.tree.IsComputable)
    (given : ∀ v ∈ request.tree.usedVariables, supplied.contains v.name = true) :
    ∃ outputs, evaluate graph .empty config (graph.accepted supplied) = .ok outputs ∧
      ∀ name value, outputs.get? name = some value ↔ name = request.name ∧
        value = (request.tree.meaning supplied).convert request.type := by
  have all : ∀ request ∈ requests.outputs, request.tree.IsComputable := by
    intro other mem
    rw [single, List.mem_singleton] at mem
    exact mem ▸ computable
  have known (name : String) (mem : name ∈ graph.exposedInputs.map Prod.fst) :
      (graph.accepted supplied).contains name = true :=
    have here := isSome_input?_of_exposed mem
    contains_accepted.2 ⟨realizes.contains_of_listed single given _ here, here⟩
  obtain ⟨valuation, outputs, done, valued, -, delivered⟩ :=
    @Setting.evaluate_of_predicted (.outermost graph .empty config) (graph.accepted supplied)
      realizes.runnable.sound realizes.runnable.acyclic (realizes.outputsApart (by simp [single]))
      (fun name here => (contains_accepted.1 here).2) (fun _ => known) (fun _ _ => True)
      fun id node valuation found _ => by
        obtain ⟨produced, done⟩ := realizes.steady all _ found _
        exact ⟨produced, done, trivial⟩
  have valued :=
    (@valued_accepted (.outermost graph .empty config) supplied graph realizes.isWired.input
      valuation).1 valued
  exact ⟨outputs, done, fun name value =>
    (delivered name value).trans (realizes.delivers_single single computable given valued name value)⟩

end Graph.Realizes

namespace Expr

/-- Whether a statement asks for the value of a tree through an output of a name and a type. -/
inductive AsksFor : Expr → String → SocketType → Expr → Prop
  | scalar (name : String) (e : Expr) :
    AsksFor (.binary .assign (.var (.plain name)) e) name .scalar e
  | vector (name : String) (e : Expr) :
    AsksFor (.binary .assign (.var ⟨name, none, some ""⟩) e) name .vector e
  | bare (e : Expr) : AsksFor e Builder.bareOutput .scalar e

variable {statement e : Expr} {name : String} {type : SocketType}

/-- What a tree of math calls is no directive. -/
theorem IsArithmetic.directive?_eq_none (arithmetic : e.IsArithmetic)
    (called : e.operation? = some name) : Builder.directive? name = none := by
  have listed {function : Function} (found : Function.find? name = some function)
      (role : function.role.isArithmetic = true) : Builder.directive? name = none := by
    unfold Builder.directive?
    rw [found, Option.map_some]
    cases kind : function.role <;> first | rfl | (rw [kind] at role; cases role)
  cases arithmetic with
  | value => cases called
  | var => cases called
  | combine =>
    cases called
    decide +kernel
  | @binary op _ _ computes =>
    cases called
    obtain ⟨function, found, role, -⟩ := exists_function_of_operator op computes
    exact listed found role
  | call found role =>
    cases called
    exact listed found role

/-- An assignment calls nothing. -/
theorem find?_assign : Function.find? BinaryOp.assign.symbol = none := by
  decide +kernel

/-- A statement that names its value takes no names if the value takes none. -/
theorem every_isNameless_assign (v : Variable) (nameless : e.Every IsNameless) :
    (binary .assign (.var v) e).Every IsNameless := by
  refine every_binary.2 ⟨fun name function called found => ?_, every_var.2 nofun, nameless⟩
  cases called
  rw [find?_assign] at found
  cases found

/-- A statement that names its value is no directive. -/
theorem isUngrouped_assign (target e : Expr) : (binary .assign target e).IsUngrouped := by
  intro called directive operation grouping
  cases operation
  unfold Builder.directive? at grouping
  rw [find?_assign] at grouping
  cases grouping

/-- A statement that asks for a tree of math takes no names. -/
theorem AsksFor.every_isNameless (asks : statement.AsksFor name type e)
    (arithmetic : e.IsArithmetic) : statement.Every IsNameless := by
  have assigned (v : Variable) := every_isNameless_assign v arithmetic.every_isNameless
  cases asks with
  | scalar => exact assigned _
  | vector => exact assigned _
  | bare => exact arithmetic.every_isNameless

/-- A statement that asks for a tree of math is not about groups. -/
theorem AsksFor.isUngrouped (asks : statement.AsksFor name type e) (arithmetic : e.IsArithmetic) :
    statement.IsUngrouped := by
  cases asks with
  | bare =>
    intro called directive operation grouping
    rw [arithmetic.directive?_eq_none operation] at grouping
    cases grouping
  | _ => exact isUngrouped_assign _ _

/-- A statement that asks for a tree of math is no chain. -/
theorem AsksFor.arguments_eq (asks : statement.AsksFor name type e) (arithmetic : e.IsArithmetic) :
    statement.arguments = [statement] := by
  cases asks with
  | bare => exact arithmetic.arguments_eq
  | _ => rfl

/-- Every part of the tree that a statement asks for is a part of the statement. -/
theorem AsksFor.mem_preorder (asks : statement.AsksFor name type e) :
    ∀ part ∈ e.preorder, part ∈ statement.preorder := by
  intro part mem
  cases asks with
  | bare => exact mem
  | _ => exact List.mem_cons_of_mem _ (List.mem_append_right _ mem)

/-- A statement that asks for a tree of math which has a value asks for nothing else. -/
theorem AsksFor.run (asks : statement.AsksFor name type e) (arithmetic : e.IsArithmetic)
    (lowerable : e.Lowerable) :
    Requests.none.Run statement.arguments ⟨[⟨name, type, e⟩], [], []⟩ := by
  rw [asks.arguments_eq arithmetic]
  refine .cons ?_ (.nil _)
  cases asks with
  | scalar => exact .named rfl lowerable
  | vector => exact .named rfl lowerable
  | bare =>
    refine .bare ⟨?_, ?_, fun name args same => ?_⟩ lowerable
    · rintro rfl
      cases arithmetic
    · rintro target value rfl
      cases arithmetic with
      | binary computes => cases computes
    · subst same
      exact arithmetic.directive?_eq_none rfl

/-- The tree that a valid statement asks for has a value, if it is one of math. -/
theorem AsksFor.isComputable (asks : statement.AsksFor name type e) (arithmetic : e.IsArithmetic)
    (checked : statement.check = .ok ()) : e.IsComputable := by
  obtain ⟨variables_, -, operations⟩ := of_check checked
  refine arithmetic.isComputable (fun v used => variables_ v ?_)
    fun part mem => operations part (asks.mem_preorder part mem)
  obtain ⟨part, mem, same⟩ := List.mem_filterMap.1 used
  exact List.mem_filterMap.2 ⟨part, asks.mem_preorder part mem, same⟩

end Expr

namespace Cleanup

/-- The cleanup of a graph for a single request relinks nothing if no variable has the name of the
output. -/
theorem relinkOutputs_single {graph : Graph} {requests : Requests} {request : Request}
    (realizes : graph.Realizes requests) (single : requests.outputs = [request])
    (apart : ∀ v ∈ request.tree.usedVariables, v.name ≠ request.name) :
    relinkOutputs ⟨graph, .empty⟩ = .ok 0 ⟨graph, .empty⟩ := by
  obtain ⟨id, socket, listed, found, -⟩ := realizes.exists_output single
  have idle : relinkOutput id ⟨graph, .empty⟩ = .ok false ⟨graph, .empty⟩ := by
    apply relinkOutput_of_not_relinkable realizes.runnable.sound
    rintro input source ⟨name, input', named, here, -⟩
    have same : name = request.name := by
      unfold portName? at named
      rw [show graph.node? id = _ from found] at named
      exact (Option.some.inj named).symm
    obtain ⟨v, used, rfl⟩ := realizes.exists_used (Graph.Realizes.every_isAmong_of_single single)
      (Option.isSome_iff_exists.2 ⟨input', here⟩)
    exact apart v used same
  refine bind_eq_ok_iff.2 ⟨graph, _, rfl, ?_⟩
  rw [listed]
  unfold count
  rw [List.foldlM_cons]
  exact bind_eq_ok_iff.2 ⟨0, _, bind_eq_ok_iff.2 ⟨false, _, idle, rfl⟩, rfl⟩

end Cleanup

/-- A tree whose only statement asks for a tree of math that has a value is built, and evaluates to
this value alone. -/
theorem Expr.AsksFor.build_evaluates {zero : Float} {statement e : Expr} {name : String} {type : SocketType}
    (asks : statement.AsksFor name type e) (arithmetic : e.IsArithmetic)
    (computable : e.IsComputable) (zeros : statement.Every (ZeroIs zero))
    (apart : ∀ v ∈ e.usedVariables, v.name ≠ name) (shown : name.toList.head? ≠ some '_')
    (options : BuildOptions) :
    ∃ site, statement.build options = .ok site ∧ ∀ config supplied,
      (∀ other, supplied.contains other = true ↔ ∃ v ∈ e.usedVariables, v.name = other) →
        evaluate site.graph site.library config supplied =
          .ok (.ofList [(name, (e.meaning supplied).convert type)]) := by
  have regular : statement.Every (IsRegular zero) := fun part mem =>
    ⟨zeros part mem, asks.every_isNameless arithmetic part mem⟩
  have ungrouped : ∀ other ∈ statement.arguments, other.IsUngrouped := by
    intro other mem
    rw [asks.arguments_eq arithmetic, List.mem_singleton] at mem
    exact mem ▸ asks.isUngrouped arithmetic
  obtain ⟨graph, defaults, realizes, built⟩ :=
    build_eq regular ungrouped (asks.run arithmetic computable.lowerable) options
  have single : (⟨[⟨name, type, e⟩], [], []⟩ : Requests).outputs = [⟨name, type, e⟩] := rfl
  have relinked := Cleanup.relinkOutputs_single realizes single apart
  obtain ⟨report, last, trims, leaves⟩ := @Cleanup.trim_leaves ⟨graph, .empty⟩ realizes.runnable
    realizes.isWired ⟨defaults, [], []⟩ options 0
  refine ⟨⟨last, .empty⟩, ?_, fun config supplied given => ?_⟩
  · rw [built, Cleanup.cleanUp_eq, Cleanup.bind_eq_ok_iff.2 ⟨_, _, relinked, trims⟩]
  · have all : ∀ v ∈ e.usedVariables, supplied.contains v.name = true :=
      fun v used => (given v.name).2 ⟨v, used, rfl⟩
    have known := realizes.contains_of_listed single all
    have accepted : last.accepted supplied = supplied := by
      apply Table.ext
      apply List.filter_eq_self.2
      intro entry mem
      obtain ⟨v, used, same⟩ := (given entry.1).1
        (Table.contains_iff_mem.2 (List.mem_map_of_mem mem))
      have reads := leaves.reads _
        (realizes.reads_of_needs ⟨⟨name, type, e⟩, by simp, computable.needs_var used⟩)
      exact same ▸ reads.isSome_input?
    obtain ⟨outputs, done, only⟩ := @Graph.Realizes.evaluate_single _ _ _ config supplied realizes
      single computable all
    have concur : Concur _ (evaluate graph .empty config (graph.accepted supplied))
        (evaluate last .empty config (last.accepted supplied)) :=
      (leaves.serves (.outermost graph .empty config) supplied known).concur realizes.runnable
        realizes.isWired leaves.runnable leaves.wired (realizes.outputsApart (by simp)) known
    rw [done, accepted] at concur
    obtain ⟨outputs', done', same⟩ := concur.exists_of_ok
    have visible : Cleanup.isHidden [] name = false := by
      unfold Cleanup.isHidden
      rw [decide_eq_false shown]
      rfl
    have single : outputs' = .ofList [(name, (e.meaning supplied).convert type)] := by
      apply Table.eq_ofList_singleton
      intro other value
      rw [same, Option.filter_eq_some_iff, only]
      constructor
      · exact fun both => both.1
      · rintro ⟨rfl, rfl⟩
        exact ⟨⟨rfl, rfl⟩, by rw [visible]; rfl⟩
    rw [← single]
    exact done'

/-- A source that is one valid expression of math, with or without the name of an output, is built
under all choices, and for all values of its variables what is built gives the value of its tree
through this output and nothing else. No variable may have the name of the output, and this is no
hidden one. -/
theorem Source.evaluate_eq_meaning {source : String} {statement e : Expr} {name : String}
    {type : SocketType} (valid : validate source = .ok statement)
    (asks : statement.AsksFor name type e) (arithmetic : e.IsArithmetic)
    (apart : ∀ v ∈ e.usedVariables, v.name ≠ name) (shown : name.toList.head? ≠ some '_')
    (options : BuildOptions) :
    ∃ site, build source options = .ok site ∧ compile source options = .ok site ∧
      ∀ config supplied,
        (∀ other, supplied.contains other = true ↔ ∃ v ∈ e.usedVariables, v.name = other) →
          evaluate site.graph site.library config supplied =
            .ok (.ofList [(name, (e.meaning supplied).convert type)]) := by
  obtain ⟨balanced, same, checked⟩ := of_validate valid
  have zeros : statement.Every (ZeroIs 0.0) := same ▸ every_zeroIs_parseChars source.toList
  obtain ⟨site, built, evaluates⟩ := asks.build_evaluates arithmetic
    (asks.isComputable arithmetic checked) zeros apart shown options
  have built' : build source options = .ok site := by
    unfold build
    rw [if_pos balanced, same, built]
  refine ⟨site, built', ?_, evaluates⟩
  unfold compile
  split
  · rw [valid]
    show (statement.build options).mapError _ = _
    rw [built]
    rfl
  · rw [built']
    rfl

/-- The tree of a variable plus a number. -/
def Expr.sum : Expr :=
  .binary .add (.var (.plain "x")) (.value ⟨"2"⟩)

/-- A source that names the value of a sum is valid. -/
theorem Source.validate_sum :
    validate "s = x + 2" = .ok (.binary .assign (.var (.plain "s")) .sum) := by
  have parsed : parse "s = x + 2" = .binary .assign (.var (.plain "s")) .sum := by
    unfold parse
    have statement : Form.ofChars (Text.trim "s = x + 2".toList) =
        .operation .assign "s ".toList " x + 2".toList := by decide +kernel
    have name : Form.ofChars (Text.trim "s ".toList) = .atom "s".toList := by decide +kernel
    have sum : Form.ofChars (Text.trim " x + 2".toList) =
        .operation .add "x ".toList " 2".toList := by decide +kernel
    have first : Form.ofChars (Text.trim "x ".toList) = .atom "x".toList := by decide +kernel
    have second : Form.ofChars (Text.trim " 2".toList) = .atom "2".toList := by decide +kernel
    rw [parseChars_of_operation statement, parseChars_of_atom name, parseChars_of_operation sum,
      parseChars_of_atom first, parseChars_of_atom second]
    rfl
  exact validate_of_check (by decide +kernel) parsed (by decide +kernel)

/-- A sum of a variable and a number is a tree of math. -/
theorem Expr.isArithmetic_sum : sum.IsArithmetic :=
  .binary rfl (.var (by decide +kernel) nofun) (.value (by decide +kernel))

/-- A sum of a variable and a number uses the variable. -/
theorem Expr.usedVariables_sum : sum.usedVariables = [.plain "x"] := by
  decide +kernel

/-- A source that names the value of a sum is built, and gives this value. -/
theorem Source.evaluate_sum_eq_meaning :
    ∃ site, build "s = x + 2" .standard = .ok site ∧
      evaluate site.graph site.library .standard (.ofList [("x", .scalar 3.0)]) =
        .ok (.ofList [("s", (Expr.sum.meaning (.ofList [("x", .scalar 3.0)])).convert .scalar)]) := by
  obtain ⟨site, built, -, evaluates⟩ := evaluate_eq_meaning validate_sum (.scalar "s" .sum)
    Expr.isArithmetic_sum (by rw [Expr.usedVariables_sum]; decide) (by decide) .standard
  refine ⟨site, built, evaluates .standard _ fun other => ?_⟩
  rw [Expr.usedVariables_sum]
  simp [Table.contains, Table.ofList, Table.insert, Table.empty, Variable.plain]

end Shadeloom
