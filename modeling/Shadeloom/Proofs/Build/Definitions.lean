import Mathlib
import Shadeloom.Proofs.Build.Inlining
import Shadeloom.Proofs.Build.Reordering
/-!
# Definitions in place of variables

A statement that defines a name that another statement uses makes an input of the name, whose readers
come to read the definition when outputs are relinked. Without the input and the output of the name,
what is left is a graph of the other statement with the definition inlined. So both are built or
refused alike and give the same value.
-/
namespace Shadeloom

open Relation Shadeloom.Expr

namespace Graph

variable {graph after : Graph} {definition : Definition} {e : Expr} {socket source : Socket}
  {input output : Nat} {type type' : SocketType}

/-- A tree that is no variable of a name is not computed by the input of the name. -/
theorem Computes.ne_input (computes : graph.Computes e socket) {name : String}
    (other : ∀ v, e = .var v → v.name ≠ name)
    (found : graph.node? input = some (.newInput name type)) : socket.node ≠ input := by
  rintro rfl
  cases computes with
  | @input v id type' _ _ here _ =>
    rw [here] at found
    exact other v rfl (Node.newInput_inj (Option.some.inj found)).1
  | component _ _ _ _ _ splits _ =>
    rw [splits] at found
    cases found
  | @made _ recipe id _ planned here _ _ _ =>
    rw [here, Option.some.injEq] at found
    exact Recipe.not_input planned _ (congrArg Node.op found)

/-- No node that leads to a socket which computes a tree that does not need a name reads the input of
the name. -/
theorem Computes.unread (sound : graph.Sound) (computes : graph.Computes e socket) {name : String}
    (unneeded : ∀ v, e.Needs (.var v) → v.name ≠ name)
    (found : graph.node? input = some (.newInput name type)) {a : Nat}
    (path : ReflTransGen graph.Leads a socket.node) (place : Nat) :
    graph.source? ⟨a, place⟩ ≠ some ⟨input, 0⟩ := by
  have root {id : Nat} {name : String} {type : SocketType}
      (here : graph.node? id = some (.newInput name type)) (path : ReflTransGen graph.Leads a id) :
      graph.source? ⟨a, place⟩ ≠ some ⟨input, 0⟩ := by
    rcases path.cases_tail with rfl | ⟨last, -, sender, receiver, linked, -, rfl⟩
    · rw [sound.source?_input here rfl]
      nofun
    · have none := sound.source?_input here rfl receiver.place
      exact absurd linked (by simp [none])
  induction computes with
  | input _ _ here _ => exact root here path
  | @component v _ _ id split _ _ _ _ here splits linked =>
    have apart : id ≠ input := by
      rintro rfl
      rw [here] at found
      exact unneeded v .root (Node.newInput_inj (Option.some.inj found)).1
    -- The node that splits a vector is entered at one socket alone.
    have only {place : Nat} {sender : Socket} (entered : graph.source? ⟨split, place⟩ = some sender) :
        sender = ⟨id, 0⟩ := by
      obtain ⟨node, there, below⟩ := sound.hasInput entered
      rw [splits, Option.some.injEq] at there
      subst there
      obtain rfl : place = 0 := Nat.lt_one_iff.1 below
      exact Option.some.inj (entered.symm.trans linked)
    rcases path.cases_tail with rfl | ⟨last, before, sender, receiver, entered, rfl, same⟩
    · exact fun reads => apart (congrArg Socket.node (only reads).symm)
    · obtain ⟨node, place⟩ := receiver
      cases same
      rw [only entered] at before
      exact root here before
  | @made e recipe id sources planned _ linked computed free ih =>
    have unneeded (operand : Nat × Expr) (mem : operand ∈ recipe.operands) (v : Variable)
        (needed : operand.2.Needs (.var v)) : v.name ≠ name :=
      unneeded v ((Needs.operand .root planned mem).trans needed)
    -- What enters the node computes one of the operands.
    have entering {place : Nat} {sender : Socket} (entered : graph.source? ⟨id, place⟩ = some sender) :
        ∃ operand ∈ recipe.operands, sender = sources operand.1 := by
      by_cases fed : place ∈ recipe.operands.map Prod.fst
      · obtain ⟨operand, mem, rfl⟩ := List.mem_map.1 fed
        exact ⟨operand, mem, Option.some.inj (entered.symm.trans (linked operand mem))⟩
      · rw [free place fed] at entered
        cases entered
    rcases path.cases_tail with rfl | ⟨last, before, sender, receiver, entered, rfl, same⟩
    · intro reads
      obtain ⟨operand, mem, same⟩ := entering reads
      exact (computed operand mem).ne_input (fun v equal => unneeded operand mem v (equal ▸ .root)) found
        (congrArg Socket.node same.symm)
    · obtain ⟨node, place⟩ := receiver
      cases same
      obtain ⟨operand, mem, rfl⟩ := entering entered
      exact ih operand mem (unneeded operand mem) before

/-- Whether the first output of a graph has the name of a definition and is fed by a socket that
computes its value, and the name is that of an input as well. -/
structure Defines (definition : Definition) (graph : Graph) (input output : Nat)
    (source : Socket) : Prop where
  listed : graph.input? definition.name = some input
  inputNode : ∃ type, graph.node? input = some (.newInput definition.name type)
  first : graph.outputs.head? = some output
  outputNode : ∃ type, graph.node? output = some (.newOutput definition.name type)
  fed : graph.source? ⟨output, 0⟩ = some source
  computes : graph.Computes definition.value source

/-- What a graph is without the input and the output of a definition, once the readers of the input
read the definition. -/
structure Inlines (definition : Definition) (before after : Graph) (input output : Nat)
    (source : Socket) : Prop where
  defines : before.Defines definition input output source
  node? : ∀ id, after.node? id = if id = input ∨ id = output then none else before.node? id
  source? : ∀ id place, id ≠ input → id ≠ output →
    after.source? ⟨id, place⟩ = (before.source? ⟨id, place⟩).map (redirect ⟨input, 0⟩ source)
  input? : ∀ name, after.input? name =
    if name = definition.name then none else before.input? name
  outputs : after.outputs = before.outputs.filter fun id => id ≠ output

/-- A node that is neither the input nor the output stays. -/
theorem Inlines.stays (inlines : graph.Inlines definition after input output source) {id : Nat}
    {node : Node} (found : graph.node? id = some node) (apart : id ≠ input)
    (apart' : id ≠ output) : after.node? id = some node := by
  rw [inlines.node?, if_neg (by simp [apart, apart']), found]

/-- An input of another name stays. -/
theorem Inlines.input?_of_ne (inlines : graph.Inlines definition after input output source)
    {name : String} (other : name ≠ definition.name) : after.input? name = graph.input? name := by
  rw [inlines.input?, if_neg other]

/-- A node with another operation than an output is not the output. -/
theorem Inlines.ne_output (inlines : graph.Inlines definition after input output source) {id : Nat}
    {node : Node} (found : graph.node? id = some node) (plain : ∀ port, node.op ≠ .output port) :
    id ≠ output := by
  rintro rfl
  obtain ⟨type, here⟩ := inlines.defines.outputNode
  rw [found, Option.some.injEq] at here
  exact plain _ (congrArg Node.op here)

/-- An input of another name is not the input. -/
theorem Inlines.ne_input (inlines : graph.Inlines definition after input output source) {id : Nat}
    {name : String} {type : SocketType} (found : graph.node? id = some (.newInput name type))
    (other : name ≠ definition.name) : id ≠ input := by
  rintro rfl
  obtain ⟨type', here⟩ := inlines.defines.inputNode
  rw [found] at here
  exact other (Node.newInput_inj (Option.some.inj here)).1

/-- What computes a tree computes it with the definition inlined, once the readers of the input read
the definition. -/
theorem Computes.inlined (computes : graph.Computes e socket)
    (inlines : graph.Inlines definition after input output source) (single : definition.IsSingle)
    (present : definition.value ≠ .empty) (unset : e.Every IsUnset) (whole : e.Every definition.IsWhole)
    (value : ¬ e.Every definition.IsOther → after.Computes definition.value source) :
    after.Computes (definition.inline e) (redirect ⟨input, 0⟩ source socket) := by
  induction computes with
  | @input v id type readable listed found whole' =>
    by_cases defined : v.name = definition.name
    · obtain rfl : id = input := Option.some.inj ((defined ▸ listed).symm.trans inlines.defines.listed)
      rw [Definition.inline_var defined, redirect_self]
      exact value fun every => every.self v rfl defined
    · have apart := inlines.ne_input found defined
      rw [Definition.inline_var_of_ne defined, redirect_of_node_ne apart]
      exact .input readable ((inlines.input?_of_ne defined).trans listed)
        (inlines.stays found apart (inlines.ne_output found nofun)) whole'
  | @component v subscript place id split readable selects known listed found splits linked =>
    have other : v.name ≠ definition.name := by
      intro defined
      rcases (whole.self v rfl defined).2 with none | all
      · rw [none] at selects
        cases selects
      · rw [all] at selects
        cases selects
        cases known
    have apart := inlines.ne_input found other
    have inner : split ≠ input := by
      rintro rfl
      obtain ⟨type, here⟩ := inlines.defines.inputNode
      rw [splits] at here
      cases here
    have inner' := inlines.ne_output splits nofun
    rw [Definition.inline_var_of_ne other, redirect_of_node_ne inner]
    refine .component readable selects known ((inlines.input?_of_ne other).trans listed)
      (inlines.stays found apart (inlines.ne_output found nofun)) (inlines.stays splits inner inner') ?_
    rw [inlines.source? split 0 inner inner', linked, Option.map_some, redirect_of_node_ne apart]
  | @made e recipe id sources planned found linked computed free ih =>
    have inner : id ≠ input := by
      rintro rfl
      obtain ⟨type, here⟩ := inlines.defines.inputNode
      rw [found, Option.some.injEq] at here
      exact Recipe.not_input planned _ (congrArg Node.op here)
    have inner' : id ≠ output := inlines.ne_output found fun port same => by
      obtain ⟨op, node, plain, -⟩ := (Recipe.isPlain_of_empty planned).node
      rw [node] at same
      rw [show op = .output port from same] at plain
      cases plain
    have moved (place : Nat) := inlines.source? id place inner inner'
    rw [redirect_of_node_ne inner]
    change after.Computes _ ⟨id, (definition.inlineRecipe recipe).output⟩
    refine .made (fun place => redirect ⟨input, 0⟩ source (sources place))
      (Definition.make_inline single present unset.self planned) (inlines.stays found inner inner')
      (fun operand mem => ?_) (fun operand mem => ?_) fun place none => ?_
    · obtain ⟨old, here, rfl⟩ := List.mem_map.1 mem
      rw [moved, linked old here]
      rfl
    · obtain ⟨old, here, rfl⟩ := List.mem_map.1 mem
      refine ih old here (Recipe.every_operands isRootwise_isUnset unset planned old here)
        (Recipe.every_operands (Definition.isRootwise_isWhole definition) whole planned old here)
        fun used => value fun every => used ?_
      exact Recipe.every_operands (Definition.isRootwise_isOther definition) every planned old here
    · rw [moved, free place, Option.map_none]
      simpa [Definition.inlineRecipe, Function.comp_def] using none

end Graph

namespace Definition

/-- An output that is asked for with a definition inlined in its tree. -/
def inlineRequest (definition : Definition) (request : Request) : Request :=
  { request with tree := definition.inline request.tree }

/-- The output of a definition. -/
def request (definition : Definition) (type : SocketType) : Request :=
  ⟨definition.name, type, definition.value⟩

/-- What a definition and some outputs have to be to inline the definition in the outputs. -/
structure Suits (definition : Definition) (others : List Request) : Prop where
  single : definition.IsSingle
  present : definition.value ≠ .empty
  unused : definition.value.Every definition.IsOther
  valueUnset : definition.value.Every IsUnset
  unset : ∀ request ∈ others, request.tree.Every IsUnset
  whole : ∀ request ∈ others, request.tree.Every definition.IsWhole
  used : ∃ request ∈ others, ∃ v, request.tree.Needs (.var v) ∧ v.name = definition.name

variable {definition : Definition} {others : List Request} {type : SocketType}
  {shownInputs shownOutputs : List String} {e : Expr}

/-- What does not use the name reads nothing but all of the value. -/
theorem every_isWhole (unused : e.Every definition.IsOther) : e.Every definition.IsWhole :=
  fun part mem v same defined => absurd defined (unused part mem v same)

/-- What is needed for a definition and for some outputs takes no settings and reads all of the
value. -/
theorem Suits.every (suits : definition.Suits others)
    (needed : (⟨definition.request type :: others, shownInputs, shownOutputs⟩ : Requests).Needs e) :
    e.Every IsUnset ∧ e.Every definition.IsWhole := by
  obtain ⟨request, mem, needed⟩ := needed
  have both : request.tree.Every IsUnset ∧ request.tree.Every definition.IsWhole := by
    rcases List.mem_cons.1 mem with rfl | mem
    · exact ⟨suits.valueUnset, every_isWhole suits.unused⟩
    · exact ⟨suits.unset request mem, suits.whole request mem⟩
  exact ⟨both.1.needs isRootwise_isUnset needed,
    both.2.needs (isRootwise_isWhole definition) needed⟩

/-- What is needed for a definition and for some outputs is needed for the outputs with the definition
inlined. -/
theorem Suits.needs (suits : definition.Suits others)
    (needed : (⟨definition.request type :: others, shownInputs, shownOutputs⟩ : Requests).Needs e) :
    (⟨others.map definition.inlineRequest, shownInputs, shownOutputs⟩ : Requests).Needs
      (definition.inline e) := by
  obtain ⟨request, mem, needed⟩ := needed
  rcases List.mem_cons.1 mem with rfl | mem
  · obtain ⟨request, mem, v, reads, defined⟩ := suits.used
    refine ⟨definition.inlineRequest request, List.mem_map_of_mem mem, ?_⟩
    have value := needs_inline suits.single suits.present (suits.unset request mem) reads
    rw [inline_var defined] at value
    rw [inline_eq_self (suits.unused.needs (isRootwise_isOther definition) needed)]
    exact value.trans needed
  · exact ⟨definition.inlineRequest request, List.mem_map_of_mem mem,
      needs_inline suits.single suits.present (suits.unset request mem) needed⟩

end Definition

namespace Graph

variable {graph after : Graph} {definition : Definition} {others : List Request}
  {input output : Nat} {source : Socket} {type : SocketType} {shownInputs shownOutputs : List String}

/-- A graph of a definition and of other outputs is one of the outputs with the definition inlined,
without the input and the output of the definition. -/
theorem Realizes.inlined
    (realizes : graph.Realizes ⟨definition.request type :: others, shownInputs, shownOutputs⟩)
    (suits : definition.Suits others)
    (inlines : graph.Inlines definition after input output source)
    (runnable : after.Runnable .empty) :
    after.Realizes ⟨others.map definition.inlineRequest, shownInputs, shownOutputs⟩ := by
  obtain ⟨inputType, found⟩ := inlines.defines.inputNode
  obtain ⟨rest, listed⟩ : ∃ rest, graph.outputs = output :: rest :=
    ⟨graph.outputs.tail, (List.cons_head?_tail inlines.defines.first).symm⟩
  have yields := realizes.outputs
  rw [listed, List.forall₂_cons] at yields
  obtain ⟨-, yields⟩ := yields
  -- The definition does not read itself, so it is computed as before.
  have value : after.Computes definition.value source := by
    have computed := inlines.defines.computes.inlined inlines suits.single suits.present
      suits.valueUnset (Definition.every_isWhole suits.unused) fun used => absurd suits.unused used
    rwa [Definition.inline_eq_self suits.unused,
      redirect_of_node_ne (inlines.defines.computes.ne_input suits.unused.self found)] at computed
  have moved {e : Expr} {place : Socket} (computes : graph.Computes e place)
      (needed : (⟨definition.request type :: others, shownInputs, shownOutputs⟩ : Requests).Needs e) :
      after.Computes (definition.inline e) (redirect ⟨input, 0⟩ source place) :=
    computes.inlined inlines suits.single suits.present (suits.every needed).1 (suits.every needed).2
      fun _ => value
  have distinct := realizes.runnable.sound.outputsDistinct
  rw [listed, List.nodup_cons] at distinct
  have outputs : after.outputs = rest := by
    rw [inlines.outputs, listed, List.filter_cons_of_neg (by simp)]
    exact List.filter_eq_self.2 fun id mem => by
      simpa using fun same : id = output => distinct.1 (same ▸ mem)
  have vars {v : Variable} (other : v.name ≠ definition.name)
      (needed : (⟨definition.request type :: others, shownInputs, shownOutputs⟩ : Requests).Needs
        (.var v)) :
      (⟨others.map definition.inlineRequest, shownInputs, shownOutputs⟩ : Requests).Needs
        (.var v) := by
    have needs := suits.needs needed
    rwa [Definition.inline_var_of_ne other] at needs
  refine ⟨runnable, ?_, fun name id here => ?_, fun id here => ?_⟩
  · rw [outputs, List.forall₂_map_left_iff]
    obtain ⟨length, each⟩ := List.forall₂_iff_get.1 yields
    refine List.forall₂_iff_get.2 ⟨length, fun place below below' => ?_⟩
    have mem : rest.get ⟨place, below'⟩ ∈ rest := List.get_mem _ _
    obtain ⟨node, sender, linked, computes⟩ := each place below below'
    have apart : rest.get ⟨place, below'⟩ ≠ output := fun same => distinct.1 (same ▸ mem)
    have apart' : rest.get ⟨place, below'⟩ ≠ input := by
      intro same
      rw [same, found] at node
      cases node
    refine ⟨inlines.stays node apart' apart, _, ?_,
      moved computes ⟨_, List.mem_cons_of_mem _ (List.get_mem _ _), .root⟩⟩
    rw [inlines.source? _ 0 apart' apart, linked, Option.map_some]
  · have other : name ≠ definition.name := by
      rintro rfl
      rw [inlines.input?, if_pos rfl] at here
      cases here
    rw [inlines.input?_of_ne other] at here
    obtain ⟨⟨type', node, vector⟩, v, needs, same⟩ := realizes.inputs name id here
    have stays := inlines.stays node (inlines.ne_input node other) (inlines.ne_output node nofun)
    refine ⟨⟨type', stays, fun whole => ?_⟩, v, vars (same ▸ other) needs, same⟩
    obtain ⟨w, needs, same, subscript⟩ := vector whole
    exact ⟨w, vars (same ▸ other) needs, same, subscript⟩
  · rw [inlines.node?] at here
    split at here
    · cases here
    · rename_i inner
      rw [not_or] at inner
      cases realizes.accounted id here with
      | held mem => cases mem
      | output mem =>
        rw [listed, List.mem_cons] at mem
        exact .output (outputs ▸ mem.resolve_left inner.2)
      | @input name listed =>
        refine .input ((inlines.input?_of_ne ?_).trans listed)
        rintro rfl
        exact inner.1 (Option.some.inj (listed.symm.trans inlines.defines.listed))
      | computes needs computes =>
        have computed := moved computes needs
        rw [redirect_of_node_ne inner.1] at computed
        exact .computes (suits.needs needs) computed

end Graph

end Shadeloom
