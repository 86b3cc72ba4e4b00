import Mathlib
import Shadeloom.Evaluation.Machine
import Shadeloom.Proofs.Graph.Order
import Shadeloom.Proofs.Results
/-!
# Sweeps

A run of a machine over an order of nodes comes to what a sweep over that order comes to: each node
is evaluated in turn from the values of those before it, and the first one that is refused stops
the sweep.
-/
namespace Shadeloom

namespace Machine

/-- The values of nodes and the outputs after the nodes of a list are evaluated in turn. -/
def sweep (setting : Setting) (supplied : Assignment) :
    List Nat → Table Nat (List Value) → Assignment →
      Except EvalError (Table Nat (List Value) × Assignment)
  | [], values, outputs => .ok (values, outputs)
  | id :: rest, values, outputs =>
    match setting.graph.node? id with
    | none => .error (.vanished id)
    | some node =>
      let inputs := readAll setting.graph values id node
      match evalNode setting supplied id node inputs with
      | .error error => .error error
      | .ok produced =>
        sweep setting supplied rest (values.insert id produced) (report outputs node.op inputs)

/-- A machine that does not run stays as it is. -/
theorem stepMany_stopped {setting : Setting} {machine : Machine} (count : Nat)
    (stopped : machine.phase ≠ .running) : stepMany setting count machine = machine := by
  induction count with
  | zero => rfl
  | succ count ih =>
    have same : step setting machine = machine := by
      unfold step
      split
      · rename_i running; exact absurd running stopped
      · rfl
    rw [stepMany, same, ih]

/-- A sweep in two parts goes on from what the first part comes to. -/
theorem sweep_append (setting : Setting) (supplied : Assignment) (early late : List Nat)
    (values : Table Nat (List Value)) (outputs : Assignment) :
    sweep setting supplied (early ++ late) values outputs =
      (sweep setting supplied early values outputs).bind fun known =>
        sweep setting supplied late known.1 known.2 := by
  induction early generalizing values outputs with
  | nil => rfl
  | cons id rest ih =>
    rw [List.cons_append, sweep, sweep]
    cases setting.graph.node? id with
    | none => rfl
    | some node =>
      dsimp only
      cases evalNode setting supplied id node (readAll setting.graph values id node) with
      | error error => rfl
      | ok produced => exact ih _ _

/-- A sweep goes on from what its first node comes to. -/
theorem sweep_cons (setting : Setting) (supplied : Assignment) (id : Nat) (rest : List Nat)
    (values : Table Nat (List Value)) (outputs : Assignment) :
    sweep setting supplied (id :: rest) values outputs =
      (sweep setting supplied [id] values outputs).bind fun known =>
        sweep setting supplied rest known.1 known.2 :=
  sweep_append setting supplied [id] rest values outputs

/-- A sweep evaluates its first node and goes on from what that has produced. -/
theorem sweep_node {setting : Setting} {supplied : Assignment} {id : Nat} {node : Node}
    (found : setting.graph.node? id = some node) (rest : List Nat)
    (values : Table Nat (List Value)) (outputs : Assignment) :
    sweep setting supplied (id :: rest) values outputs =
      evalNode setting supplied id node (readAll setting.graph values id node) >>=
        fun produced => sweep setting supplied rest (values.insert id produced)
          (report outputs node.op (readAll setting.graph values id node)) := by
  rw [sweep]
  simp only [found]
  cases evalNode setting supplied id node (readAll setting.graph values id node) <;> rfl

/-- A sweep over a node that is not refused knows what the node has produced. -/
theorem sweep_singleton {setting : Setting} {supplied : Assignment} {id : Nat} {node : Node}
    {values : Table Nat (List Value)} {outputs : Assignment} {produced : List Value}
    (found : setting.graph.node? id = some node)
    (computed : evalNode setting supplied id node (readAll setting.graph values id node) =
      .ok produced) :
    sweep setting supplied [id] values outputs =
      .ok (values.insert id produced,
        report outputs node.op (readAll setting.graph values id node)) := by
  rw [sweep_node found, computed]
  rfl

/-- What a step makes of a running machine. -/
inductive Steps (setting : Setting) (machine : Machine) : Machine → Prop
  | completes (last : machine.order[machine.cursor]? = none) :
    Steps setting machine
      { machine with phase := .completed machine.outputs, outputs := .empty }
  | refused {id : Nat} {error : EvalError} (next : machine.order[machine.cursor]? = some id)
    (refused : sweep setting machine.supplied [id] machine.values machine.outputs =
      .error error) :
    Steps setting machine ({ machine with cursor := machine.cursor + 1 }.fail error)
  | evaluates {id : Nat} {node : Node} {produced : List Value}
    (next : machine.order[machine.cursor]? = some id)
    (found : setting.graph.node? id = some node)
    (computed : evalNode setting machine.supplied id node
      (readAll setting.graph machine.values id node) = .ok produced) :
    Steps setting machine { machine with
      cursor := machine.cursor + 1
      values := machine.values.insert id produced
      outputs := report machine.outputs node.op (readAll setting.graph machine.values id node)
      trace :=
        if setting.config.trace then
          machine.trace ++
            [⟨id, node.op.text, readAll setting.graph machine.values id node, produced⟩]
        else machine.trace }

/-- A step completes, is refused, or evaluates the next node. -/
theorem steps_step (setting : Setting) {machine : Machine} (running : machine.phase = .running) :
    Steps setting machine (step setting machine) := by
  obtain ⟨phase, order, cursor, supplied, values, outputs, trace⟩ := machine
  obtain rfl : phase = .running := running
  unfold step
  dsimp only
  cases next : order[cursor]? with
  | none => exact .completes next
  | some id =>
    dsimp only
    unfold visit
    cases found : setting.graph.node? id with
    | none => exact .refused next (by rw [sweep, found])
    | some node =>
      dsimp only
      cases computed : evalNode setting supplied id node
        (readAll setting.graph values id node) with
      | error error => exact .refused next (by rw [sweep_node found, computed]; rfl)
      | ok produced => exact .evaluates next found computed

/-- A running machine comes to what a sweep over the nodes that are left comes to. -/
theorem result_stepMany (setting : Setting) (machine : Machine) (rest : List Nat)
    (running : machine.phase = .running) (left : machine.order.drop machine.cursor = rest) :
    (stepMany setting (rest.length + 1) machine).result =
      (sweep setting machine.supplied rest machine.values machine.outputs).map Prod.snd := by
  induction rest generalizing machine with
  | nil =>
    have done : machine.order[machine.cursor]? = none := by
      rw [List.getElem?_eq_none_iff]
      exact List.drop_eq_nil_iff.1 left
    show (step setting machine).result = _
    simp only [step, running, done, result, sweep]
    rfl
  | cons id rest ih =>
    have next : machine.order[machine.cursor]? = some id := by
      rw [← List.head?_drop, left, List.head?_cons]
    have later : machine.order.drop (machine.cursor + 1) = rest := by
      rw [← List.tail_drop, left, List.tail_cons]
    have steps := steps_step setting running
    rw [List.length_cons, stepMany, sweep_cons]
    generalize step setting machine = after at steps ⊢
    cases steps with
    | completes last => cases next.symm.trans last
    | refused here refused =>
      cases next.symm.trans here
      rw [stepMany_stopped _ (by simp [fail]), refused]
      rfl
    | evaluates here found computed =>
      cases next.symm.trans here
      rw [sweep_singleton found computed]
      exact ih _ running later

end Machine

open Machine

/-- An evaluation is a sweep over the order of the graph. -/
theorem Setting.evaluate_eq (setting : Setting) (supplied : Assignment) :
    setting.evaluate supplied = (prepare setting supplied).bind fun order =>
      (sweep setting supplied order .empty .empty).map Prod.snd := by
  unfold Setting.evaluate start
  cases prepare setting supplied with
  | error error =>
    dsimp only
    unfold Machine.run
    rw [stepMany_stopped _ (by simp [fail])]
    rfl
  | ok order => exact result_stepMany setting _ order rfl rfl

namespace Machine

/-- A sweep is refused by the node at which it stops. -/
theorem sweep_error {setting : Setting} {supplied : Assignment} {ids : List Nat}
    {values : Table Nat (List Value)} {outputs : Assignment} {error : EvalError}
    (stopped : sweep setting supplied ids values outputs = .error error) :
    ∃ id ∈ ids, setting.graph.node? id = none ∧ error = .vanished id ∨
      ∃ node known, setting.graph.node? id = some node ∧ evalNode setting supplied id node
        (readAll setting.graph known id node) = .error error := by
  induction ids generalizing values outputs with
  | nil => cases stopped
  | cons id rest ih =>
    unfold sweep at stopped
    split at stopped
    · rename_i absent
      cases stopped
      exact ⟨id, by simp, .inl ⟨absent, rfl⟩⟩
    · rename_i node found
      dsimp only at stopped
      split at stopped
      · rename_i refused
        cases stopped
        exact ⟨id, by simp, .inr ⟨node, _, found, refused⟩⟩
      · obtain ⟨other, mem, reason⟩ := ih stopped
        exact ⟨other, List.mem_cons_of_mem _ mem, reason⟩

/-- An evaluation that is refused is so before it starts, or by a node of its graph. -/
theorem evaluate_refused {setting : Setting} {supplied : Assignment} {error : EvalError}
    (refused : setting.evaluate supplied = .error error) :
    prepare setting supplied = .error error ∨
      ∃ ids, prepare setting supplied = .ok ids ∧ ∃ id ∈ ids,
        (setting.graph.node? id = none ∧ error = .vanished id) ∨
        ∃ node known, setting.graph.node? id = some node ∧ evalNode setting supplied id node
          (readAll setting.graph known id node) = .error error := by
  rw [Setting.evaluate_eq] at refused
  rcases bind_eq_error_iff.1 refused with unready | ⟨ids, ready, stopped⟩
  · exact .inl unready
  · exact .inr ⟨ids, ready, sweep_error (map_eq_error_iff.1 stopped)⟩

/-- An evaluation that starts follows the order of its graph. -/
theorem order_of_prepare {setting : Setting} {supplied : Assignment} {ids : List Nat}
    (ready : prepare setting supplied = .ok ids) : setting.graph.order = .ok ids := by
  unfold prepare at ready
  simp only [bind, Except.bind, throw, throwThe, MonadExceptOf.throw, pure, Except.pure] at ready
  grind

/-- An evaluation of an acyclic sound graph is refused for the names of its assignment or by a
node. -/
theorem prepare_spec {setting : Setting} (sound : setting.graph.Sound)
    (acyclic : setting.graph.Acyclic) (supplied : Assignment) :
    (∃ order, prepare setting supplied = .ok order ∧ setting.graph.IsOrder order) ∨
      (∃ name, supplied.contains name = true ∧ setting.graph.input? name = none ∧
        prepare setting supplied = .error (.unknownInput name)) ∨
      ∃ name, setting.config.requireInputs = true ∧
        name ∈ setting.graph.exposedInputs.map Prod.fst ∧ supplied.contains name = false ∧
          prepare setting supplied = .error (.missingInput name) := by
  obtain ⟨order, ordered, isOrder⟩ := sound.order_spec acyclic
  unfold prepare
  rw [ordered]
  cases unknown : supplied.keys.find? fun name => (setting.graph.input? name).isNone with
  | some name =>
    have absent := List.find?_some unknown
    have given := Table.contains_iff_mem.2 (List.mem_of_find?_eq_some unknown)
    exact .inr (.inl ⟨name, given, by simpa using absent, rfl⟩)
  | none =>
    by_cases strict : setting.config.requireInputs = true
    · cases missing : setting.graph.exposedInputs.find? fun entry => !supplied.contains entry.1 with
      | some entry =>
        have absent := List.find?_some missing
        refine .inr (.inr ⟨entry.1, strict, List.mem_map_of_mem (List.mem_of_find?_eq_some missing),
          by simpa using absent, ?_⟩)
        simp only [strict, if_true]
        rfl
      | none =>
        refine .inl ⟨order, ?_, isOrder⟩
        simp only [strict, if_true]
        rfl
    · refine .inl ⟨order, ?_, isOrder⟩
      simp only [strict]
      rfl

end Machine

end Shadeloom
