import Mathlib
import Shadeloom.Proofs.Build.Sharing
/-!
# What the variables of a name share

All variables of a name read one input, and all that read its components share one node that splits
it. Which of these a tree uses is said by the variables that it reaches, so it depends neither on
whether sockets are used again nor on what has been built before. Ports and nodes that split vectors
are added for these alone, each of them once.
-/
namespace Shadeloom

open Relation

/-- What the variables of a name share: an input, and the node that splits its vector. -/
inductive Supply where
  | input (name : String)
  | split (name : String)
  deriving DecidableEq

/-- Whether a variable uses a supply. -/
def Variable.Uses (v : Variable) : Supply → Prop
  | .input name => v.ReadsInput ∧ v.name = name
  | .split name => v.ReadsComponent ∧ v.name = name

/-- The number of ports and of nodes that split the vectors of inputs. -/
def Graph.portCount (graph : Graph) : Nat :=
  graph.countNodes fun op => !op.kind.isComputing

/-- A node that is added counts as a port if it computes nothing. -/
theorem Graph.Sound.portCount_addNode {graph : Graph} (sound : graph.Sound) (node : Node) :
    (graph.addNode node).portCount =
      graph.portCount + if node.op.kind.isComputing then 0 else 1 := by
  have count : (graph.addNode node).portCount =
      graph.portCount + if !node.op.kind.isComputing then 1 else 0 := sound.countNodes_addNode node
  rw [count]
  cases node.op.kind.isComputing <;> rfl

namespace Expr

/-- Whether a variable that a tree reaches uses a supply. -/
def Uses (e : Expr) (supply : Supply) : Prop :=
  ∃ v, ReflTransGen FedBy e (.var v) ∧ v.Uses supply

variable {e e' : Expr} {supply : Supply}

/-- A tree uses what it uses itself as a variable and what is used by the trees that it is fed with. -/
theorem uses_iff_or : e.Uses supply ↔ (∃ v, e = .var v ∧ v.Uses supply) ∨
    ∃ operand, e.FedBy operand ∧ operand.Uses supply := by
  constructor
  · rintro ⟨v, path, uses⟩
    rcases path.cases_head with rfl | ⟨operand, fedBy, later⟩
    · exact .inl ⟨v, rfl, uses⟩
    · exact .inr ⟨operand, fedBy, v, later, uses⟩
  · rintro (⟨v, rfl, uses⟩ | ⟨operand, fedBy, v, path, uses⟩)
    · exact ⟨v, .refl, uses⟩
    · exact ⟨v, .head fedBy path, uses⟩

/-- A variable is fed with nothing. -/
theorem uses_var_iff {v : Variable} : (Expr.var v).Uses supply ↔ v.Uses supply := by
  rw [uses_iff_or]
  constructor
  · rintro (⟨v', same, uses⟩ | ⟨operand, fedBy, -⟩)
    · cases same
      exact uses
    · cases fedBy
  · exact fun uses => .inl ⟨v, rfl, uses⟩

/-- A literal or an operation uses what is used by the trees that it is fed with. -/
theorem uses_iff (computed : e.isComputed = true) :
    e.Uses supply ↔ ∃ operand, e.FedBy operand ∧ operand.Uses supply := by
  rw [uses_iff_or, or_iff_right]
  rintro ⟨v, rfl, -⟩
  cases computed

/-- Trees that are the same use the same supplies. -/
theorem uses_of_same (same : e.same e' = true) (uses : e.Uses supply) : e'.Uses supply := by
  obtain ⟨v, path, uses⟩ := uses
  obtain ⟨reached, path', alike⟩ := path_of_same same path
  cases reached with
  | var w =>
    rw [Expr.same, decide_eq_true_eq] at alike
    exact ⟨w, path', alike ▸ uses⟩
  | _ => cases alike

end Expr

namespace Scope

/-- The inputs that a scope has and the vectors that it has split. -/
def supplies (scope : Scope) : Finset Supply :=
  (scope.graph.inputs.keys.map Supply.input ++ scope.splits.keys.map Supply.split).toFinset

/-- Whether a scope has all that is used by the trees that have been built. -/
def Covers (scope : Scope) : Prop :=
  ∀ entry ∈ scope.built, ∀ supply, entry.1.Uses supply → supply ∈ scope.supplies

/-- What a scope has after a step: what the step uses and it had not is added, with a node for each. -/
structure Gains (uses : Supply → Prop) (before after : Scope) : Prop where
  covers : after.Covers
  supplies : ∀ supply, supply ∈ after.supplies ↔ supply ∈ before.supplies ∨ uses supply
  count : after.graph.portCount + before.supplies.card =
    before.graph.portCount + after.supplies.card

section

variable {library : Library} {held : List Nat} {before after : Scope} {uses : Supply → Prop}

/-- A scope has an input when its graph has it. -/
theorem mem_supplies_input {name : String} :
    .input name ∈ before.supplies ↔ (before.graph.input? name).isSome = true := by
  rw [Graph.input?, Table.isSome_get?, Table.contains_iff_mem]
  simp [Scope.supplies]

/-- A scope has split a vector when a node is kept that splits it. -/
theorem mem_supplies_split {name : String} :
    .split name ∈ before.supplies ↔ (before.splits.get? name).isSome = true := by
  rw [Table.isSome_get?, Table.contains_iff_mem]
  simp [Scope.supplies]

/-- Scopes with the same inputs and splits have the same supplies. -/
theorem supplies_congr (inputs : after.graph.inputs = before.graph.inputs)
    (splits : after.splits = before.splits) : after.supplies = before.supplies := by
  rw [Scope.supplies, Scope.supplies, inputs, splits]

/-- A step that builds no tree covers what has been built. -/
theorem Covers.gains (covers : before.Covers) (built : after.built = before.built)
    (supplies : ∀ supply, supply ∈ after.supplies ↔ supply ∈ before.supplies ∨ uses supply)
    (count : after.graph.portCount + before.supplies.card =
      before.graph.portCount + after.supplies.card) : before.Gains uses after where
  covers entry mem supply used :=
    (supplies supply).2 (.inl (covers entry (built ▸ mem) supply used))
  supplies := supplies
  count := count

/-- A step that adds no port and splits nothing gains nothing. -/
theorem Covers.gains_nothing (covers : before.Covers) (built : after.built = before.built)
    (inputs : after.graph.inputs = before.graph.inputs) (splits : after.splits = before.splits)
    (count : after.graph.portCount = before.graph.portCount) :
    before.Gains (fun _ => False) after := by
  have same := supplies_congr inputs splits
  refine covers.gains built (fun supply => ?_) ?_
  · rw [same, or_false]
  · rw [same, count]

/-- What is gained by one step and by another. -/
theorem Gains.trans {middle : Scope} {uses' uses'' : Supply → Prop}
    (early : before.Gains uses middle) (late : middle.Gains uses' after)
    (either : ∀ supply, uses'' supply ↔ uses supply ∨ uses' supply) :
    before.Gains uses'' after where
  covers := late.covers
  supplies supply := by rw [late.supplies, early.supplies, either, or_assoc]
  count := by
    have := early.count
    have := late.count
    omega

/-- A step gains what it uses, however that is said. -/
theorem Gains.congr {uses' : Supply → Prop} (gains : before.Gains uses after)
    (same : ∀ supply, uses' supply ↔ uses supply) : before.Gains uses' after :=
  ⟨gains.covers, fun supply => by rw [gains.supplies, same], gains.count⟩

/-- A link gains nothing. -/
theorem Covers.connect (covers : before.Covers) (tidy : before.Tidy library held)
    {source target : Socket} (offers : source.node ∉ held) (into : target.node ∈ held)
    (done : before.connect source target = .ok after) : before.Gains (fun _ => False) after := by
  obtain ⟨-, connects, same⟩ := tidy.connect offers into done
  exact covers.gains_nothing (by rw [same]) connects.inputs (by rw [same]) connects.countNodes

/-- A node that computes something gains nothing. -/
theorem Covers.addNode (covers : before.Covers) (sound : before.graph.Sound) {node : Node}
    (computing : node.op.kind.isComputing = true) :
    before.Gains (fun _ => False) (before.addNode node) := by
  have count := sound.portCount_addNode node
  rw [if_pos computing] at count
  exact covers.gains_nothing rfl (Graph.inputs_addNode _ _) rfl count

/-- An input that is asked for is gained. -/
theorem Covers.addInput (covers : before.Covers) (sound : before.graph.Sound) (name : String)
    (type : SocketType) : before.Gains (· = .input name) (before.addInput name type).2 := by
  have adds : before.graph.AddsInput (before.addInput name type).2.graph name type
      (before.addInput name type).1 := sound.addInput name type
  have supplies : (before.addInput name type).2.supplies = insert (.input name) before.supplies := by
    ext supply
    rw [Finset.mem_insert]
    cases supply with
    | input other =>
      rw [mem_supplies_input, mem_supplies_input, adds.input?, Supply.input.injEq]
      split
      · rename_i same
        simp [same]
      · rename_i apart
        rw [or_iff_right (Ne.symm apart)]
    | split other =>
      rw [mem_supplies_split, mem_supplies_split, or_iff_right nofun]
      rfl
  have count : (before.addInput name type).2.graph.portCount = before.graph.portCount +
      if (before.graph.input? name).isNone && true then 1 else 0 :=
    adds.countNodes fun op op' same => congrArg (fun kind => !NodeKind.isComputing kind) same
  refine covers.gains rfl (fun supply => ?_) ?_
  · rw [supplies, Finset.mem_insert, or_comm]
  · rw [Bool.and_true] at count
    rw [supplies, count]
    cases known : before.graph.input? name with
    | none =>
      have fresh : .input name ∉ before.supplies := by
        rw [mem_supplies_input, known]
        exact Bool.false_ne_true
      rw [Finset.card_insert_of_notMem fresh]
      simp only [Option.isNone_none, if_true]
      omega
    | some id =>
      have here : .input name ∈ before.supplies := by
        rw [mem_supplies_input, known]
        rfl
      rw [Finset.insert_eq_of_mem here]
      rfl

/-- The vector of an input that is split is gained. -/
theorem Covers.split (covers : before.Covers) (tidy : before.Tidy library held) {name : String}
    {input id : Nat} (offers : before.Offers held input)
    (done : before.split name input = .ok (id, after)) : before.Gains (· = .split name) after := by
  obtain ⟨known, rfl⟩ | ⟨absent, rfl, graph, -, connects, rfl⟩ := tidy.split_eq_ok offers done
  · refine covers.gains rfl (fun supply => ⟨.inl, ?_⟩) rfl
    rintro (mem | rfl)
    · exact mem
    · exact mem_supplies_split.2 (Option.isSome_of_eq_some known)
  · have inputs : graph.inputs = before.graph.inputs :=
      connects.inputs.trans (Graph.inputs_addNode _ _)
    have supplies : Scope.supplies
        { before with graph, splits := before.splits.insert name before.graph.nextNode } =
          insert (.split name) before.supplies := by
      ext supply
      rw [Finset.mem_insert]
      cases supply with
      | input other =>
        rw [mem_supplies_input, mem_supplies_input, or_iff_right nofun, Graph.input?, inputs]
        rfl
      | split other =>
        rw [mem_supplies_split, mem_supplies_split, Table.get?_insert, Supply.split.injEq]
        split
        · rename_i same
          simp [same]
        · rename_i apart
          rw [or_iff_right (Ne.symm apart)]
    have fresh : .split name ∉ before.supplies := by
      rw [mem_supplies_split, absent]
      exact Bool.false_ne_true
    have added : (before.graph.addNode (.ofOp .separateXyz)).portCount =
        before.graph.portCount + 1 := tidy.runnable.sound.portCount_addNode _
    have count : graph.portCount = before.graph.portCount + 1 := connects.countNodes.trans added
    refine covers.gains rfl (fun supply => ?_) ?_
    · rw [supplies, Finset.mem_insert, or_comm]
    · rw [supplies, Finset.card_insert_of_notMem fresh]
      show graph.portCount + _ = _
      omega

/-- What a variable uses is gained when it is read. -/
theorem Covers.readVariable (covers : before.Covers) (tidy : before.Tidy library held)
    {v : Variable} {socket : Socket} (done : before.readVariable v = .ok (socket, after)) :
    before.Gains v.Uses after := by
  obtain ⟨named, rfl⟩ | ⟨plain, defaults, type, input, asked, asks, read⟩ := readVariable_reads done
  · refine (covers.gains_nothing rfl rfl rfl rfl).congr fun supply => ?_
    rw [iff_false]
    cases supply with
    | input name => exact fun uses => named uses.1
    | split name => exact fun uses => named uses.1.1
  · have start := (tidy.withDefaults defaults).tidy
    have noted : before.Gains (fun _ => False) { before with defaults } :=
      covers.gains_nothing rfl rfl rfl rfl
    have gains : before.Gains (· = .input v.name)
        (Scope.addInput { before with defaults } v.name type).2 :=
      noted.trans (noted.covers.addInput start.runnable.sound v.name type) fun supply => by
        rw [false_or]
    obtain ⟨advances, -, -, offers⟩ := start.addInput v.name type
    rw [asks] at gains advances offers
    obtain ⟨whole, rfl⟩ | ⟨component, id, split⟩ := read
    · refine gains.congr fun supply => ?_
      cases supply with
      | input name => simp [Variable.Uses, plain, eq_comm]
      | split name => simp [Variable.Uses, whole]
    · refine gains.trans (gains.covers.split advances.tidy offers split) fun supply => ?_
      cases supply with
      | input name => simp [Variable.Uses, plain, eq_comm]
      | split name => simp [Variable.Uses, component, eq_comm]

/-- A tree that is kept is covered by what has been gained for it. -/
theorem Gains.remember {e : Expr} (gains : before.Gains e.Uses after) (reuse : Bool)
    (socket : Socket) : before.Gains e.Uses (after.remember reuse e socket) := by
  unfold Scope.remember
  split
  · refine ⟨fun entry mem supply uses => ?_, gains.supplies, gains.count⟩
    rcases List.mem_cons.1 mem with rfl | mem
    · exact (gains.supplies supply).2 (.inr uses)
    · exact gains.covers entry mem supply uses
  · exact gains

end

end Scope

section

variable {library : Library} {reuse : Bool}

/-- Building a tree gains what it uses, and feeding a node what its operands use. -/
theorem lower_gains (runnable : Library.Runnable library) (reuse : Bool) :
    (∀ held e scope socket after, scope.Tidy library held →
      lower library reuse e scope = .ok (socket, after) → scope.Covers →
        scope.Gains e.Uses after) ∧
    ∀ held operands id scope after, scope.Tidy library (id :: held) →
      feed library reuse operands id scope = .ok after → scope.Covers →
        scope.Gains (fun supply => ∃ e ∈ operands.map Prod.snd, e.Uses supply) after := by
  apply @lower_tidy_induct library reuse runnable
    (fun _ e scope _ after => scope.Covers → scope.Gains e.Uses after)
    (fun _ operands _ scope after => scope.Covers →
      scope.Gains (fun supply => ∃ e ∈ operands.map Prod.snd, e.Uses supply) after)
  case remembered =>
    intro held e scope socket tidy found covers
    obtain ⟨entry, mem, same⟩ := Scope.exists_of_remembered found
    refine covers.gains rfl (fun supply => ⟨.inl, ?_⟩) rfl
    rintro (old | uses)
    · exact old
    · exact covers entry mem supply (Expr.uses_of_same same uses)
  case read =>
    intro held v scope socket after tidy fresh reads covers
    have gains : scope.Gains (Expr.var v).Uses after :=
      (covers.readVariable tidy reads).congr fun supply => Expr.uses_var_iff
    exact gains.remember reuse socket
  case make =>
    intro held e scope recipe fed tidy fresh planned feeds covers
    have made := covers.addNode tidy.runnable.sound (Recipe.isComputing planned)
    have gains : scope.Gains e.Uses fed := by
      refine made.trans (feeds made.covers) fun supply => ?_
      rw [false_or, Expr.uses_iff (Recipe.isComputed_of_make planned), Recipe.map_operands planned]
      rfl
    exact gains.remember reuse _
  case nil =>
    intro held id scope covers
    exact (covers.gains_nothing rfl rfl rfl rfl).congr fun supply => by simp
  case cons =>
    intro held place e rest id scope source built linked after tidy advances offers links first others
      covers
    have early := first covers
    have link := early.covers.connect advances.tidy offers (by simp) links
    have head : scope.Gains e.Uses linked := early.trans link fun supply => by rw [or_false]
    exact head.trans (others link.covers) fun supply => by simp

/-- A node that is added and fed gains what its operands use. -/
theorem feed_gains (runnable : Library.Runnable library) {operands : List (Nat × Expr)}
    {scope fed : Scope} {node : Node} {held : List Nat} (tidy : scope.Tidy library held)
    (covers : scope.Covers) (shaped : ∀ port, node.op ≠ .input port) (refers : node.Refers library)
    (computing : node.op.kind.isComputing = true)
    (done : feed library reuse operands scope.graph.nextNode (scope.addNode node) = .ok fed) :
    scope.Gains (fun supply => ∃ e ∈ operands.map Prod.snd, e.Uses supply) fed := by
  have added := tidy.addNode node (fun port same => absurd same (shaped port)) refers
  have made := covers.addNode tidy.runnable.sound computing
  have later := (lower_gains runnable reuse).2 held operands _ _ fed added.tidy done made.covers
  exact made.trans later fun supply => by rw [false_or]

end

end Shadeloom
