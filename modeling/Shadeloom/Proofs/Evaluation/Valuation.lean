import Mathlib
import Shadeloom.Proofs.Evaluation.Sweep
import Shadeloom.Proofs.Results
/-!
# Valuations

A valuation gives every node the values of its output sockets. It is valid when each node computes
its values from those that it reads. An acyclic sound graph evaluates exactly when it has a valid
valuation, and its outputs are what this delivers; so no order of evaluation has to be spoken of.
-/
namespace Shadeloom

/-- Whether two assignments give the same values to the same names. -/
def Assignment.Equal (a b : Assignment) : Prop :=
  ∀ name, a.get? name = b.get? name

namespace Graph

/-- The values that the input sockets of a node read under a valuation. -/
def reads (graph : Graph) (valuation : Nat → List Value) (id : Nat) (node : Node) : List Value :=
  node.inputs.zipIdx.map fun (socket, place) =>
    (((graph.source? ⟨id, place⟩).bind fun source =>
      (valuation source.node)[source.place]?).getD socket.default).convert socket.type

/-- Nodes read the same under valuations that agree on what they are linked from. -/
theorem reads_congr {graph : Graph} {valuation valuation' : Nat → List Value} {id : Nat}
    (node : Node) (same : ∀ place source, graph.source? ⟨id, place⟩ = some source →
      valuation source.node = valuation' source.node) :
    graph.reads valuation id node = graph.reads valuation' id node := by
  unfold reads
  refine List.map_congr_left fun (socket, place) _ => ?_
  dsimp only
  cases linked : graph.source? ⟨id, place⟩ with
  | none => simp
  | some source => simp [same place source linked]

/-- An output that is shown, with its node. -/
def shownOutput? (graph : Graph) (id : Nat) : Option (Node × OutputPort) :=
  match graph.node? id with
  | some node =>
    match node.op with
    | .output port => if port.exposed then some (node, port) else none
    | _ => none
  | none => none

/-- A shown output is the node of an output that is exposed. -/
theorem shownOutput?_eq_some_iff {graph : Graph} {id : Nat} {node : Node} {port : OutputPort} :
    graph.shownOutput? id = some (node, port) ↔
      graph.node? id = some node ∧ node.op = .output port ∧ port.exposed = true := by
  unfold shownOutput?
  constructor
  · intro shown
    split at shown
    · rename_i other found
      split at shown
      · rename_i port' op
        split at shown
        · rename_i exposed
          cases shown
          exact ⟨found, op, exposed⟩
        · cases shown
      · cases shown
    · cases shown
  · rintro ⟨found, op, exposed⟩
    simp [found, op, exposed]

/-- The name of a shown output with the value that it has under a valuation. -/
def delivery? (graph : Graph) (valuation : Nat → List Value) (id : Nat) : Option (String × Value) :=
  (graph.shownOutput? id).map fun (node, port) =>
    (port.name, ((graph.reads valuation id node).head?.getD (.scalar 0.0)).convert port.type)

/-- Whether a valuation gives a name a value through an output that is shown. -/
def Delivers (graph : Graph) (valuation : Nat → List Value) (name : String) (value : Value) :
    Prop :=
  ∃ id, graph.delivery? valuation id = some (name, value)

/-- Whether no two outputs that are shown have the same name. -/
def OutputsApart (graph : Graph) : Prop :=
  ∀ id id' shown shown', graph.shownOutput? id = some shown → graph.shownOutput? id' = some shown' →
    shown.2.name = shown'.2.name → id = id'

end Graph

open Machine

/-- Whether every node computes its values from those that it reads. -/
def Valued (setting : Setting) (supplied : Assignment) (valuation : Nat → List Value) : Prop :=
  ∀ id node, setting.graph.node? id = some node →
    evalNode setting supplied id node (setting.graph.reads valuation id node) =
      .ok (valuation id)

namespace Machine

/-- The valuation of a table; nodes that are not in it have no values. -/
def valuation (values : Table Nat (List Value)) (id : Nat) : List Value :=
  (values.get? id).getD []

/-- A node whose links all come from evaluated nodes reads what the valuation gives. -/
theorem readAll_eq_reads {graph : Graph} {values : Table Nat (List Value)} {id : Nat} (node : Node)
    (known : ∀ place source, graph.source? ⟨id, place⟩ = some source →
      (values.get? source.node).isSome = true) :
    readAll graph values id node = graph.reads (valuation values) id node := by
  unfold readAll Graph.reads
  refine List.map_congr_left fun (socket, place) _ => ?_
  unfold read
  dsimp only
  cases linked : graph.source? ⟨id, place⟩ with
  | none => simp
  | some source =>
    obtain ⟨outputs, found⟩ := Option.isSome_iff_exists.1 (known place source linked)
    simp [valuation, found]

/-- The outputs with those of the nodes of a list under a valuation. -/
def reportAll (graph : Graph) (valuation : Nat → List Value) (outputs : Assignment)
    (ids : List Nat) : Assignment :=
  (ids.filterMap (graph.delivery? valuation)).foldl
    (fun outputs entry => outputs.insert entry.1 entry.2) outputs

/-- What a node reports is what it delivers. -/
theorem reportAll_cons {graph : Graph} {valuation : Nat → List Value} {id : Nat} {node : Node}
    (found : graph.node? id = some node) (outputs : Assignment) (rest : List Nat) :
    reportAll graph valuation outputs (id :: rest) =
      reportAll graph valuation (report outputs node.op (graph.reads valuation id node)) rest := by
  unfold reportAll report Graph.delivery? Graph.shownOutput?
  rw [List.filterMap_cons, found]
  dsimp only
  cases node.op with
  | output port => cases shown : port.exposed <;> simp [shown]
  | _ => rfl

/-- What holds of a sweep that has evaluated some nodes: these, and no others, have values, which
they compute from the values that they read. -/
structure Swept (setting : Setting) (supplied : Assignment) (done : List Nat)
    (values : Table Nat (List Value)) : Prop where
  known : ∀ id, (values.get? id).isSome = true ↔ id ∈ done
  valued : ∀ id ∈ done, ∀ node, setting.graph.node? id = some node →
    evalNode setting supplied id node (setting.graph.reads (valuation values) id node) =
      .ok (valuation values id)

section Order

variable {setting : Setting} {supplied : Assignment}

/-- A node in an order reads from nodes before it alone. -/
theorem known_before (sound : setting.graph.Sound) (acyclic : setting.graph.Acyclic)
    {before after : List Nat} {id : Nat} (order : setting.graph.IsOrder (before ++ id :: after))
    {values : Table Nat (List Value)} (swept : Swept setting supplied before values) (place : Nat)
    (source : Socket) (linked : setting.graph.source? ⟨id, place⟩ = some source) :
    (values.get? source.node).isSome = true :=
  (swept.known source.node).2
    (order.mem_before sound acyclic (Graph.leads_of_source? linked))

/-- Giving values to a new node changes no valuation of others. -/
theorem valuation_insert {values : Table Nat (List Value)} (id other : Nat)
    (produced : List Value) : valuation (values.insert id produced) other =
      if id = other then produced else valuation values other := by
  unfold valuation
  rw [Table.get?_insert]
  split <;> rfl

/-- Evaluating the next node of an order extends what is evaluated. -/
theorem Swept.next (sound : setting.graph.Sound) (acyclic : setting.graph.Acyclic)
    {before after : List Nat} {id : Nat} (order : setting.graph.IsOrder (before ++ id :: after))
    {values : Table Nat (List Value)} (swept : Swept setting supplied before values) {node : Node}
    (found : setting.graph.node? id = some node) {produced : List Value}
    (computed : evalNode setting supplied id node
      (setting.graph.reads (valuation values) id node) = .ok produced) :
    Swept setting supplied (before ++ [id]) (values.insert id produced) := by
  have fresh := order.not_mem_before
  -- What is linked into a node that comes no later is not the new node.
  have unread (other : Nat) (split : ∃ former latter, before ++ id :: after =
      former ++ other :: latter ∧ id ∉ former) (place : Nat) (source : Socket)
      (linked : setting.graph.source? ⟨other, place⟩ = some source) :
      valuation values source.node = valuation (values.insert id produced) source.node := by
    obtain ⟨former, latter, split, apart⟩ := split
    have mem := (split ▸ order).mem_before sound acyclic (Graph.leads_of_source? linked)
    rw [valuation_insert, if_neg]
    rintro rfl
    exact apart mem
  constructor
  · intro other
    rw [Table.get?_insert, List.mem_append, List.mem_singleton, ← swept.known other]
    split
    · rename_i same; simp [same]
    · rename_i apart; simp [Ne.symm apart]
  · intro other mem node' found'
    rcases List.mem_append.1 mem with here | last
    · obtain ⟨former, latter, rfl⟩ := List.append_of_mem here
      have apart : id ≠ other := by rintro rfl; exact fresh here
      rw [valuation_insert, if_neg apart, ← swept.valued other here node' found']
      refine congrArg _ (Graph.reads_congr node' (unread other ⟨former, latter ++ id :: after,
        by simp, fun mem => fresh (by simp [mem])⟩)).symm
    · rw [List.mem_singleton] at last
      subst last
      rw [found, Option.some.injEq] at found'
      subst found'
      rw [valuation_insert, if_pos rfl, ← computed]
      exact congrArg _ (Graph.reads_congr node (unread other ⟨before, after, rfl, fresh⟩)).symm

/-- A sweep that comes to an end has found a valid valuation, and reports what it delivers. -/
theorem sweep_ok (sound : setting.graph.Sound) (acyclic : setting.graph.Acyclic)
    (before : List Nat) {rest : List Nat} (order : setting.graph.IsOrder (before ++ rest))
    {values values' : Table Nat (List Value)} {outputs outputs' : Assignment}
    (swept : Swept setting supplied before values)
    (done : sweep setting supplied rest values outputs = .ok (values', outputs')) :
    Swept setting supplied (before ++ rest) values' ∧
      (∀ id ∈ before, valuation values' id = valuation values id) ∧
        outputs' = reportAll setting.graph (valuation values') outputs rest := by
  induction rest generalizing before values outputs with
  | nil =>
    cases done
    exact ⟨by rwa [List.append_nil], fun _ _ => rfl, rfl⟩
  | cons id rest ih =>
    obtain ⟨node, found⟩ := Option.isSome_iff_exists.1 ((order.mem id).1 (by simp))
    rw [sweep_node found, readAll_eq_reads node (known_before sound acyclic order swept)] at done
    obtain ⟨produced, computed, done⟩ := bind_eq_ok_iff.1 done
    have order' : setting.graph.IsOrder ((before ++ [id]) ++ rest) := by
      rwa [List.append_assoc, List.singleton_append]
    have next := swept.next sound acyclic order found computed
    obtain ⟨final, kept, reported⟩ := ih (before ++ [id]) order' next done
    have early (other : Nat) (mem : other ∈ before) :
        valuation values' other = valuation values other := by
      rw [kept other (by simp [mem]), valuation_insert, if_neg]
      rintro rfl
      exact order.not_mem_before mem
    have reads : setting.graph.reads (valuation values) id node =
        setting.graph.reads (valuation values') id node :=
      Graph.reads_congr node fun place source linked => (early source.node
        (order.mem_before sound acyclic (Graph.leads_of_source? linked))).symm
    refine ⟨by rwa [List.append_assoc, List.singleton_append] at final, early, ?_⟩
    rw [reported, reportAll_cons found, reads]

/-- A sweep comes to an end if every node can be evaluated once a predicate holds of the values of
the nodes that it reads, and the predicate holds of its values then. -/
theorem sweep_predicted (sound : setting.graph.Sound) (acyclic : setting.graph.Acyclic)
    {P : Nat → List Value → Prop}
    (step : ∀ id node valuation, setting.graph.node? id = some node →
      (∀ place source, setting.graph.source? ⟨id, place⟩ = some source →
        P source.node (valuation source.node)) →
      ∃ produced, evalNode setting supplied id node (setting.graph.reads valuation id node) =
        .ok produced ∧ P id produced)
    (before : List Nat) {rest : List Nat} (order : setting.graph.IsOrder (before ++ rest))
    {values : Table Nat (List Value)} (outputs : Assignment)
    (swept : Swept setting supplied before values)
    (holds : ∀ id ∈ before, P id (valuation values id)) :
    ∃ values' outputs', sweep setting supplied rest values outputs = .ok (values', outputs') ∧
      ∀ id ∈ before ++ rest, P id (valuation values' id) := by
  induction rest generalizing before values outputs with
  | nil => exact ⟨values, outputs, rfl, by simpa using holds⟩
  | cons id rest ih =>
    obtain ⟨node, found⟩ := Option.isSome_iff_exists.1 ((order.mem id).1 (by simp))
    obtain ⟨produced, computed, here⟩ := step id node (valuation values) found
      fun place source linked =>
        holds source.node (order.mem_before sound acyclic (Graph.leads_of_source? linked))
    have order' : setting.graph.IsOrder ((before ++ [id]) ++ rest) := by
      rwa [List.append_assoc, List.singleton_append]
    have next := swept.next sound acyclic order found computed
    obtain ⟨values', outputs', done, all⟩ := ih (before ++ [id]) order'
      (report outputs node.op (setting.graph.reads (valuation values) id node)) next
      fun other mem => by
        rw [valuation_insert]
        split
        · rename_i same; exact same ▸ here
        · rename_i apart
          refine holds other ?_
          simpa [Ne.symm apart] using mem
    refine ⟨values', outputs', ?_, by simpa using all⟩
    rw [sweep_node found, readAll_eq_reads node (known_before sound acyclic order swept), computed]
    exact done

end Order

/-- No node is evaluated before a sweep starts. -/
theorem swept_start (setting : Setting) (supplied : Assignment) :
    Swept setting supplied [] .empty :=
  ⟨by simp, by simp⟩

end Machine

section Evaluation

variable {setting : Setting} {supplied : Assignment}

/-- The reports of all nodes together are what a valuation delivers. -/
theorem get?_reportAll {graph : Graph} (apart : graph.OutputsApart) {ids : List Nat}
    (order : graph.IsOrder ids) (valuation : Nat → List Value) (name : String) (value : Value) :
    (reportAll graph valuation .empty ids).get? name = some value ↔
      graph.Delivers valuation name value := by
  have names : ((ids.filterMap (graph.delivery? valuation)).map Prod.fst).Nodup := by
    rw [List.Nodup, List.pairwise_map, List.pairwise_filterMap]
    refine order.distinct.imp fun {a b} different entry here entry' there same => ?_
    obtain ⟨shown, found, rfl⟩ := Option.map_eq_some_iff.1 here
    obtain ⟨shown', found', rfl⟩ := Option.map_eq_some_iff.1 there
    exact different (apart a b shown shown' found found' same)
  unfold reportAll
  rw [Table.get?_foldl_insert names, List.mem_filterMap]
  simp only [Table.get?_empty, reduceCtorEq, false_and, or_false]
  constructor
  · rintro ⟨id, -, delivered⟩
    exact ⟨id, delivered⟩
  · rintro ⟨id, delivered⟩
    obtain ⟨shown, found, -⟩ := Option.map_eq_some_iff.1 delivered
    have here := (Graph.shownOutput?_eq_some_iff.1 found).1
    exact ⟨id, (order.mem id).2 (Option.isSome_iff_exists.2 ⟨_, here⟩), delivered⟩

/-- A sweep over an order that comes to an end gives a valid valuation, and its outputs are what
this delivers. -/
theorem sweep_valued (sound : setting.graph.Sound) (acyclic : setting.graph.Acyclic)
    (apart : setting.graph.OutputsApart) {ids : List Nat} (order : setting.graph.IsOrder ids)
    {values : Table Nat (List Value)} {outputs : Assignment}
    (swept : sweep setting supplied ids .empty .empty = .ok (values, outputs)) :
    Valued setting supplied (valuation values) ∧ ∀ name value,
      outputs.get? name = some value ↔ setting.graph.Delivers (valuation values) name value := by
  obtain ⟨final, -, rfl⟩ := sweep_ok sound acyclic [] order (swept_start _ _) swept
  refine ⟨fun id node found => ?_, get?_reportAll apart order _⟩
  exact final.valued id ((order.mem id).2 (Option.isSome_iff_exists.2 ⟨node, found⟩)) node found

/-- Nothing is delivered otherwise by valuations that agree on all nodes. -/
theorem delivery?_congr (sound : setting.graph.Sound) {first second : Nat → List Value}
    (agree : ∀ id, (setting.graph.node? id).isSome = true → first id = second id) (id : Nat) :
    setting.graph.delivery? first id = setting.graph.delivery? second id := by
  unfold Graph.delivery?
  refine Option.map_congr fun (node, port) _ => ?_
  dsimp only
  rw [Graph.reads_congr node fun place source linked =>
    agree source.node (sound.isSome_of_leads (Graph.leads_of_source? linked)).1]

/-- A sweep over any order comes to an end if there is a valid valuation, and its outputs are what
this delivers. -/
theorem sweep_of_valued (sound : setting.graph.Sound) (acyclic : setting.graph.Acyclic)
    (apart : setting.graph.OutputsApart) {ids : List Nat} (order : setting.graph.IsOrder ids)
    {known : Nat → List Value} (valued : Valued setting supplied known) :
    ∃ values outputs, sweep setting supplied ids .empty .empty = .ok (values, outputs) ∧
      ∀ name value, outputs.get? name = some value ↔ setting.graph.Delivers known name value := by
  obtain ⟨values, outputs, swept, agree⟩ := sweep_predicted sound acyclic
    (P := fun id produced => produced = known id) (fun id node other found same =>
      ⟨_, by rw [Graph.reads_congr node same]; exact valued id node found, rfl⟩)
    [] order .empty (swept_start setting supplied) (by simp)
  refine ⟨values, outputs, swept, fun name value => ?_⟩
  rw [(sweep_valued sound acyclic apart order swept).2]
  exact exists_congr fun id => by
    rw [delivery?_congr sound fun id here => agree id ((order.mem id).2 here)]

/-- What an acyclic sound graph evaluates to is what its nodes report one after the other under a
valid valuation. -/
theorem Setting.evaluate_reports (sound : setting.graph.Sound) (acyclic : setting.graph.Acyclic)
    {outputs : Assignment} (done : setting.evaluate supplied = .ok outputs) :
    ∃ ids valuation, setting.graph.order = .ok ids ∧ setting.graph.IsOrder ids ∧
      Valued setting supplied valuation ∧ outputs = reportAll setting.graph valuation .empty ids := by
  rw [Setting.evaluate_eq] at done
  obtain ⟨ids, ready, order⟩ | ⟨_, _, _, refused⟩ | ⟨_, _, _, _, refused⟩ :=
    prepare_spec sound acyclic supplied
  · rw [ready] at done
    change (sweep setting supplied ids .empty .empty).map Prod.snd = .ok outputs at done
    obtain ⟨⟨values, reported⟩, swept, rfl⟩ := map_eq_ok_iff.1 done
    obtain ⟨final, -, same⟩ := sweep_ok sound acyclic [] order (swept_start _ _) swept
    refine ⟨ids, valuation values, order_of_prepare ready, order, fun id node found => ?_, same⟩
    exact final.valued id ((order.mem id).2 (Option.isSome_iff_exists.2 ⟨node, found⟩)) node found
  · rw [refused] at done
    cases done
  · rw [refused] at done
    cases done

/-- What an acyclic sound graph evaluates to is what a valid valuation delivers. -/
theorem Setting.evaluate_ok (sound : setting.graph.Sound) (acyclic : setting.graph.Acyclic)
    (apart : setting.graph.OutputsApart) {outputs : Assignment}
    (done : setting.evaluate supplied = .ok outputs) :
    ∃ valuation, Valued setting supplied valuation ∧ ∀ name value,
      outputs.get? name = some value ↔ setting.graph.Delivers valuation name value := by
  obtain ⟨ids, valuation, -, order, valued, rfl⟩ := Setting.evaluate_reports sound acyclic done
  exact ⟨valuation, valued, get?_reportAll apart order valuation⟩

/-- An acyclic sound graph evaluates if all names given are those of inputs, all inputs that are
shown are given where they have to be, and values can be predicted: every node can be evaluated once
the prediction holds of what it reads, and then the prediction holds of its values. -/
theorem Setting.evaluate_of_predicted (sound : setting.graph.Sound)
    (acyclic : setting.graph.Acyclic) (apart : setting.graph.OutputsApart)
    (known : ∀ name, supplied.contains name = true → (setting.graph.input? name).isSome = true)
    (given : setting.config.requireInputs = true →
      ∀ name ∈ setting.graph.exposedInputs.map Prod.fst, supplied.contains name = true)
    {P : Nat → List Value → Prop}
    (step : ∀ id node valuation, setting.graph.node? id = some node →
      (∀ place source, setting.graph.source? ⟨id, place⟩ = some source →
        P source.node (valuation source.node)) →
      ∃ produced, evalNode setting supplied id node (setting.graph.reads valuation id node) =
        .ok produced ∧ P id produced) :
    ∃ valuation outputs, setting.evaluate supplied = .ok outputs ∧
      Valued setting supplied valuation ∧
      (∀ id, (setting.graph.node? id).isSome = true → P id (valuation id)) ∧
      ∀ name value, outputs.get? name = some value ↔ setting.graph.Delivers valuation name value := by
  obtain ⟨ids, ready, order⟩ | ⟨name, here, absent, -⟩ | ⟨name, strict, here, absent, -⟩ :=
    prepare_spec sound acyclic supplied
  · obtain ⟨values, outputs, swept, holds⟩ := sweep_predicted sound acyclic step []
      order .empty (swept_start setting supplied) (by simp)
    obtain ⟨valued, delivered⟩ := sweep_valued sound acyclic apart order swept
    refine ⟨valuation values, outputs, ?_, valued, fun id here => holds id ((order.mem id).2 here),
      delivered⟩
    rw [Setting.evaluate_eq, ready]
    show (sweep setting supplied ids .empty .empty).map Prod.snd = _
    rw [swept]
    rfl
  · have := known name here
    rw [absent] at this
    cases this
  · have := given strict name here
    rw [absent] at this
    cases this

/-- An acyclic sound graph with a valid valuation evaluates to what this delivers. -/
theorem Setting.evaluate_of_valued (sound : setting.graph.Sound)
    (acyclic : setting.graph.Acyclic) (apart : setting.graph.OutputsApart)
    (known : ∀ name, supplied.contains name = true → (setting.graph.input? name).isSome = true)
    (given : setting.config.requireInputs = true →
      ∀ name ∈ setting.graph.exposedInputs.map Prod.fst, supplied.contains name = true)
    {valuation : Nat → List Value} (valued : Valued setting supplied valuation) :
    ∃ outputs, setting.evaluate supplied = .ok outputs ∧
      ∀ name value, outputs.get? name = some value ↔ setting.graph.Delivers valuation name value := by
  obtain ⟨valuation', outputs, done, -, agree, delivered⟩ :=
    Setting.evaluate_of_predicted sound acyclic apart known given
      (P := fun id produced => produced = valuation id) fun id node other found same =>
        ⟨_, by rw [Graph.reads_congr node same]; exact valued id node found, rfl⟩
  refine ⟨outputs, done, fun name value => ?_⟩
  rw [delivered]
  exact exists_congr fun id => by rw [delivery?_congr sound agree]

end Evaluation

end Shadeloom
