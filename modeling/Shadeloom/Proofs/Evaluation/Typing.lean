import Mathlib
import Shadeloom.Proofs.Evaluation.Stepping
import Shadeloom.Proofs.Graph.Layouts
/-!
# Values and sockets

In a graph that is made by calls, the values of an evaluated node are one for each of its output
sockets, of the type of the socket. So a socket that is linked always finds the value that its source
has computed: the default of a socket is read only where nothing is linked. This holds at every point
of an evaluation, and in the definitions of instances as in the outermost graph.
-/
namespace Shadeloom

open Machine

/-- What an operation computes are values for the output sockets that follow from it. -/
theorem NodeOp.types_eval {op : NodeOp} {inputs outputs : List Value} {id : Nat}
    (computed : op.eval inputs id = .ok outputs) :
    outputs.map Value.type = op.outputSockets.map OutputSocket.type := by
  cases op with
  | colorRamp ramp =>
    unfold eval at computed
    dsimp only at computed
    split at computed <;> cases computed
    rfl
  | _ => cases computed <;> rfl

namespace Machine

/-- What a node in a standard layout computes are values for its output sockets. -/
theorem types_evalNode {setting : Setting} {supplied : Assignment} {id : Nat} {node : Node}
    {inputs outputs : List Value} (standard : node.Standard)
    (computed : evalNode setting supplied id node inputs = .ok outputs) :
    outputs.map Value.type = node.outputs.map OutputSocket.type := by
  unfold evalNode at computed
  split at computed
  · rename_i port op
    cases computed
    rw [standard.outputs (by rw [op]; exact nofun), op, List.map_singleton, Value.type_convert]
    rfl
  · rename_i port op
    cases computed
    rw [standard.outputs (by rw [op]; exact nofun), op]
    rfl
  · -- Each output of the definition is converted to the type of the socket that shows it.
    unfold evalInstance at computed
    split at computed
    · cases computed
    · split at computed
      · cases computed
      · obtain ⟨results, -, computed⟩ := bind_eq_ok_iff.1 computed
        cases computed
        rw [List.map_map]
        exact List.map_congr_left fun socket _ => Value.type_convert _ _
  · rename_i other
    rw [standard.outputs fun group => ?_]
    · exact NodeOp.types_eval computed
    · cases op : node.op <;> rw [op] at group <;> cases group
      exact other _ op

/-- The values of the nodes that a machine has evaluated, wherever they are kept. -/
def recorded (machine : Machine) : Table Nat (List Value) :=
  match machine.phase with
  | .failed _ values => values
  | _ => machine.values

/-- The nodes that a machine has evaluated: those of its order that it has tried, but for the last
one if it has stopped there. -/
def evaluated (machine : Machine) : List Nat :=
  match machine.phase with
  | .failed _ _ => machine.order.take (machine.cursor - 1)
  | _ => machine.order.take machine.cursor

/-- Whether a node is evaluated, or it is the one at which a machine is or has stopped. -/
def Reaches (machine : Machine) (id : Nat) : Prop :=
  ∃ count ≤ machine.evaluated.length, machine.order[count]? = some id

/-- What it means that values match sockets while a machine evaluates. -/
structure Matches (setting : Setting) (machine : Machine) : Prop where
  /-- The evaluated nodes, and no others, have values. -/
  known : ∀ id, (machine.recorded.get? id).isSome = true ↔ id ∈ machine.evaluated
  /-- They are what the node computes from what it reads, one for each of its output sockets. -/
  typed : ∀ id values, machine.recorded.get? id = some values →
    ∃ node, setting.graph.node? id = some node ∧
      evalNode setting machine.supplied id node
        (readAll setting.graph machine.recorded id node) = .ok values ∧
      values.map Value.type = node.outputs.map OutputSocket.type
  /-- A linked socket reads the value of the output socket that it is linked to. -/
  linked : ∀ id node place socket source, machine.Reaches id →
    setting.graph.node? id = some node → node.inputs[place]? = some socket →
      setting.graph.source? ⟨id, place⟩ = some source →
        ∃ values value, machine.recorded.get? source.node = some values ∧
          values[source.place]? = some value ∧
          (readAll setting.graph machine.recorded id node)[place]? =
            some (value.convert socket.type)

variable {setting : Setting} {supplied : Assignment} {machine : Machine}

/-- A running machine keeps its values itself. -/
theorem recorded_of_running (running : machine.phase = .running) :
    machine.recorded = machine.values := by
  unfold recorded
  rw [running]

/-- A running machine has evaluated all nodes that it has tried. -/
theorem evaluated_of_running (running : machine.phase = .running) :
    machine.evaluated = machine.order.take machine.cursor := by
  unfold evaluated
  rw [running]

/-- A list is what comes before a place, what stands there, and the rest. -/
theorem eq_take_append {ids : List Nat} {count id : Nat} (here : ids[count]? = some id) :
    ids = ids.take count ++ id :: ids.drop (count + 1) := by
  obtain ⟨below, rfl⟩ := List.getElem?_eq_some_iff.1 here
  rw [← List.drop_eq_getElem_cons below, List.take_append_drop]

/-- What the steps of a machine keep: the nodes that it has evaluated have their values. -/
structure Progresses (setting : Setting) (supplied : Assignment) (machine : Machine) : Prop where
  order : setting.graph.IsOrder machine.order
  given : machine.supplied = supplied
  swept : Swept setting supplied machine.evaluated machine.recorded

/-- A step keeps the values of the evaluated nodes. -/
theorem Progresses.step (sound : setting.graph.Sound) (acyclic : setting.graph.Acyclic)
    (progresses : Progresses setting supplied machine) :
    Progresses setting supplied (step setting machine) := by
  by_cases running : machine.phase = .running
  · obtain ⟨order, given, swept⟩ := progresses
    rw [evaluated_of_running running, recorded_of_running running] at swept
    have steps := steps_step setting running
    generalize Machine.step setting machine = after at steps ⊢
    cases steps with
    | completes last => exact ⟨order, given, swept⟩
    | refused next _ => exact ⟨order, given, swept⟩
    | @evaluates id node produced next found computed =>
      have split := eq_take_append next
      have taken : machine.order.take (machine.cursor + 1) =
          machine.order.take machine.cursor ++ [id] := by
        rw [List.take_add_one, next]
        rfl
      rw [readAll_eq_reads node (known_before sound acyclic (split ▸ order) swept), given]
        at computed
      have advanced := swept.next sound acyclic (split ▸ order) found computed
      rw [← taken] at advanced
      refine ⟨order, given, ?_⟩
      unfold evaluated recorded
      dsimp only
      rw [running]
      exact advanced
  · rwa [show Machine.step setting machine = machine from stepMany_stopped 1 running]

/-- Calls keep the values of the evaluated nodes. -/
theorem Progresses.callAll (sound : setting.graph.Sound) (acyclic : setting.graph.Acyclic)
    (progresses : Progresses setting supplied machine) (calls : List Call) :
    Progresses setting supplied (callAll setting machine calls) := by
  have many (count : Nat) {machine : Machine} (progresses : Progresses setting supplied machine) :
      Progresses setting supplied (stepMany setting count machine) := by
    induction count generalizing machine with
    | zero => exact progresses
    | succ count ih => exact ih (progresses.step sound acyclic)
  induction calls generalizing machine with
  | nil => exact progresses
  | cons how rest ih =>
    refine ih ?_
    cases how with
    | step => exact progresses.step sound acyclic
    | run => exact many _ progresses

/-- The evaluated nodes are the first ones of the order. -/
theorem exists_evaluated_eq (machine : Machine) :
    ∃ count, machine.evaluated = machine.order.take count := by
  unfold evaluated
  split
  · exact ⟨_, rfl⟩
  · exact ⟨_, rfl⟩

/-- What comes before a node that is reached is evaluated. -/
theorem mem_evaluated_of_take {count id : Nat} (within : count ≤ machine.evaluated.length)
    (before : id ∈ machine.order.take count) : id ∈ machine.evaluated := by
  obtain ⟨tried, same⟩ := machine.exists_evaluated_eq
  rw [same, List.length_take] at within
  rw [same]
  exact List.take_subset_take_left _ (by omega) before

/-- An evaluated node is reached. -/
theorem reaches_of_evaluated {id : Nat} (done : id ∈ machine.evaluated) : machine.Reaches id := by
  obtain ⟨count, here⟩ := List.mem_iff_getElem?.1 done
  refine ⟨count, (List.getElem?_eq_some_iff.1 here).1.le, ?_⟩
  obtain ⟨tried, same⟩ := machine.exists_evaluated_eq
  rw [same, List.getElem?_take] at here
  split at here
  · exact here
  · cases here

/-- Nothing is evaluated if a start is refused. -/
theorem matches_refused {error : EvalError} (refused : prepare setting supplied = .error error)
    (calls : List Call) :
    Matches setting (callAll setting (fresh.start setting supplied) calls) := by
  unfold start
  rw [refused, callAll_stopped (by simp [fail])]
  refine ⟨fun id => ?_, fun id values known => ?_, fun id node place socket source reached => ?_⟩
  · show false = true ↔ id ∈ ([] : List Nat)
    simp
  · cases known
  · obtain ⟨count, -, here⟩ := reached
    cases here

/-- Values match sockets while a machine progresses. -/
theorem Progresses.matches (standard : setting.graph.Standard) (acyclic : setting.graph.Acyclic)
    (progresses : Progresses setting supplied machine) : Matches setting machine := by
  obtain ⟨order, given, swept⟩ := progresses
  have sources (id : Nat) (reached : machine.Reaches id) (place : Nat) (source : Socket)
      (linked : setting.graph.source? ⟨id, place⟩ = some source) :
      (machine.recorded.get? source.node).isSome = true := by
    obtain ⟨count, within, here⟩ := reached
    have before := (eq_take_append here ▸ order).mem_before standard.toSound acyclic
      (Graph.leads_of_source? linked)
    exact (swept.known _).2 (mem_evaluated_of_take within before)
  have typed (id : Nat) (values : List Value) (known : machine.recorded.get? id = some values) :
      ∃ node, setting.graph.node? id = some node ∧
        evalNode setting machine.supplied id node
          (readAll setting.graph machine.recorded id node) = .ok values ∧
        values.map Value.type = node.outputs.map OutputSocket.type := by
    have done := (swept.known id).1 (Option.isSome_iff_exists.2 ⟨values, known⟩)
    have reached := reaches_of_evaluated done
    obtain ⟨node, found⟩ : ∃ node, setting.graph.node? id = some node := by
      obtain ⟨count, -, here⟩ := reached
      exact Option.isSome_iff_exists.1 ((order.mem id).1 (List.mem_of_getElem? here))
    have computed := swept.valued id done node found
    rw [← readAll_eq_reads node (sources id reached), valuation, known, Option.getD_some] at computed
    exact ⟨node, found, given ▸ computed, types_evalNode (standard.layouts id node found) computed⟩
  refine ⟨swept.known, typed, fun id node place socket source reached found here linked => ?_⟩
  obtain ⟨values, known⟩ := Option.isSome_iff_exists.1 (sources id reached place source linked)
  obtain ⟨sender, sent, -, types⟩ := typed source.node values known
  obtain ⟨sender', sent', below⟩ := standard.hasOutput linked
  rw [sent, Option.some.injEq] at sent'
  have lengths := congrArg List.length types
  rw [List.length_map, List.length_map, sent'] at lengths
  obtain ⟨value, there⟩ : ∃ value, values[source.place]? = some value :=
    ⟨values[source.place], List.getElem?_eq_getElem (lengths ▸ below)⟩
  refine ⟨values, value, known, there, ?_⟩
  unfold readAll
  rw [List.getElem?_map, List.getElem?_zipIdx, here]
  simp [read, linked, known, there]

end Machine

/-- The settings in which an evaluation evaluates graphs: that of the outermost graph, and those of
the definitions as deep as instances may be nested. -/
inductive Setting.Occurs (graph : Graph) (library : Library) (config : EvalConfig) : Setting → Prop
  | outermost : Occurs graph library config (.outermost graph library config)
  | nested {group : String} {definition : Graph} {depth : Nat}
    (found : library.get? group = some definition) (within : depth < config.maxDepth) :
    Occurs graph library config ⟨definition, library, config, nestedWithin library config depth⟩

/-- However a machine is driven that evaluates a graph made by calls or a definition of its library,
the values of its nodes match their sockets, and every linked socket reads what its source has
computed. -/
theorem Machine.matches_callAll {name : String} {edits : List Edit} {library : Library}
    {config : EvalConfig} (acyclic : (Edit.made name edits).Acyclic)
    (definitions : ∀ group definition, library.get? group = some definition →
      definition.Acyclic ∧ ∃ name edits, definition = Edit.made name edits)
    {setting : Setting} (occurs : setting.Occurs (Edit.made name edits) library config)
    (supplied : Assignment) (calls : List Call) :
    Matches setting (callAll setting (fresh.start setting supplied) calls) := by
  obtain ⟨standard, acyclic⟩ : setting.graph.Standard ∧ setting.graph.Acyclic := by
    cases occurs with
    | outermost => exact ⟨Edit.made_standard name edits, acyclic⟩
    | nested found within =>
      obtain ⟨acyclic, name, edits, rfl⟩ := definitions _ _ found
      exact ⟨Edit.made_standard name edits, acyclic⟩
  obtain ⟨order, ready, isOrder⟩ | ⟨name, -, -, refused⟩ | ⟨name, -, -, -, refused⟩ :=
    prepare_spec standard.toSound acyclic supplied
  · have started : Progresses setting supplied (fresh.start setting supplied) := by
      unfold start
      rw [ready]
      exact ⟨isOrder, rfl, swept_start setting supplied⟩
    exact (started.callAll standard.toSound acyclic calls).matches standard acyclic
  · exact matches_refused refused calls
  · exact matches_refused refused calls

/-- A graph in which a node stands between a vector input and a scalar output. -/
def Edit.between (node : Edit) : List Edit :=
  [.addInput "v" .vector, node, .addOutput "y" .scalar, .connect ⟨0, 0⟩ ⟨1, 0⟩,
    .connect ⟨1, 0⟩ ⟨2, 0⟩]

/-- A definition that takes the absolute value of the mean of a vector. -/
def Graph.absoluteMean : Graph :=
  Edit.made "g" (Edit.between (.addNode (.math .absolute) rfl))

/-- A library of the definition alone. -/
def Library.ofMean : Library :=
  .ofList [("g", Graph.absoluteMean)]

/-- A graph with an instance of the definition. -/
def Graph.instanceOfMean : Graph :=
  Edit.made "root" (Edit.between (.addInstance Graph.absoluteMean))

/-- A vector for the inputs of both graphs. -/
def Assignment.ofMean : Assignment :=
  .ofList [("v", .vector ⟨1.0, -2.0, -5.0⟩)]

/-- Values match sockets after two steps in a graph with an instance, and after a run in the
definition of the instance. -/
theorem Machine.matches_callAll_instance :
    evaluate Graph.instanceOfMean .ofMean .standard .ofMean = .ok (.ofList [("y", .scalar 2.0)]) ∧
      Matches (.outermost Graph.instanceOfMean .ofMean .standard)
        (callAll (.outermost Graph.instanceOfMean .ofMean .standard)
          (fresh.start (.outermost Graph.instanceOfMean .ofMean .standard) .ofMean) [.step, .step]) ∧
      Matches ⟨Graph.absoluteMean, .ofMean, .standard, nestedWithin .ofMean .standard 63⟩
        (callAll ⟨Graph.absoluteMean, .ofMean, .standard, nestedWithin .ofMean .standard 63⟩
          (fresh.start ⟨Graph.absoluteMean, .ofMean, .standard, nestedWithin .ofMean .standard 63⟩
            .ofMean) [.run]) := by
  have inner : Graph.absoluteMean.Acyclic :=
    (Edit.made_standard _ _).toSound.acyclic_of_ascending (by decide +kernel)
  have outer : Graph.instanceOfMean.Acyclic :=
    (Edit.made_standard _ _).toSound.acyclic_of_ascending (by decide +kernel)
  have definitions (group : String) (definition : Graph)
      (found : Library.ofMean.get? group = some definition) :
      definition.Acyclic ∧ ∃ name edits, definition = Edit.made name edits := by
    unfold Library.ofMean at found
    rw [Table.get?_ofList (by simp)] at found
    simp only [List.mem_singleton, Prod.mk.injEq] at found
    obtain ⟨-, rfl⟩ := found
    exact ⟨inner, _, _, rfl⟩
  refine ⟨by decide +kernel, ?_, ?_⟩
  · exact matches_callAll outer definitions .outermost _ _
  · have found : Library.ofMean.get? "g" = some Graph.absoluteMean := by
      unfold Library.ofMean
      rw [Table.get?_ofList (by simp)]
      exact List.mem_singleton_self _
    exact matches_callAll outer definitions (.nested found (by decide)) _ _

end Shadeloom
