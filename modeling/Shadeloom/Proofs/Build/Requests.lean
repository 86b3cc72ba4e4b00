import Mathlib
import Shadeloom.Proofs.Build.Realization
/-!
# What statements ask for

Where no statement is about groups, a statement asks for an output or says which ports are shown, and
whether it is refused depends on nothing but the statement. A build that has not refused any holds
the outputs that have been asked for, each fed by a socket that computes its tree, and nothing that
no output needs.
-/
namespace Shadeloom

open Shadeloom.Expr

/-- An output that a statement asks for. -/
structure Request where
  name : String
  type : SocketType
  tree : Expr

/-- What statements have asked for. -/
structure Requests where
  outputs : List Request
  /-- The inputs to be shown. -/
  shownInputs : List String
  /-- The outputs to be shown. -/
  shownOutputs : List String

/-- Whether a directive is about groups. -/
def Directive.isGrouping : Directive → Bool
  | inputs => false
  | outputs => false
  | _ => true

namespace Expr

/-- Whether a tree is no directive about groups. -/
def IsUngrouped (e : Expr) : Prop :=
  ∀ name directive, e.operation? = some name → Builder.directive? name = some directive →
    directive.isGrouping = false

/-- The expression of a statement. -/
def content : Expr → Expr
  | .binary .assign _ tree => tree
  | e => e

end Expr

namespace Requests

/-- Nothing has been asked for. -/
def none : Requests := ⟨[], [], []⟩

/-- One more output is asked for. -/
def add (requests : Requests) (name : String) (type : SocketType) (tree : Expr) : Requests :=
  { requests with outputs := requests.outputs ++ [⟨name, type, tree⟩] }

/-- What a statement that is not refused adds to what has been asked for. -/
inductive Step (requests : Requests) : Expr → Requests → Prop
  | empty : Step requests .empty requests
  | inputs {name : String} {args : Expr} {names : List String}
    (directive : Builder.directive? name = some .inputs)
    (listed : args.arguments.mapM (Builder.plainName name) = .ok names) :
    Step requests (.call name args)
      { requests with shownInputs := requests.shownInputs ++ names }
  | outputs {name : String} {args : Expr} {names : List String}
    (directive : Builder.directive? name = some .outputs)
    (listed : args.arguments.mapM (Builder.plainName name) = .ok names) :
    Step requests (.call name args)
      { requests with shownOutputs := requests.shownOutputs ++ names }
  | named {target value : Expr} {name : String} {type : SocketType}
    (targeted : Builder.outputTarget target = .ok (name, type)) (lowerable : value.Lowerable) :
    Step requests (.binary .assign target value) (requests.add name type value)
  | bare {e : Expr} (bare : e.IsBare) (lowerable : e.Lowerable) :
    Step requests e (requests.add Builder.bareOutput .scalar e)

/-- What statements that are not refused add to what has been asked for. -/
inductive Run : Requests → List Expr → Requests → Prop
  | nil (requests : Requests) : Run requests [] requests
  | cons {first second last : Requests} {e : Expr} {rest : List Expr} (step : first.Step e second)
    (run : Run second rest last) : Run first (e :: rest) last

/-- Outputs that have been asked for are not forgotten. -/
theorem Step.sub {before after : Requests} {e : Expr} (step : before.Step e after) :
    ∀ request ∈ before.outputs, request ∈ after.outputs := by
  intro request mem
  cases step with
  | empty => exact mem
  | inputs _ _ => exact mem
  | outputs _ _ => exact mem
  | named _ _ => exact List.mem_append_left _ mem
  | bare _ _ => exact List.mem_append_left _ mem

/-- Outputs that have been asked for are not forgotten. -/
theorem Run.sub {before after : Requests} {es : List Expr} (run : before.Run es after) :
    ∀ request ∈ before.outputs, request ∈ after.outputs := by
  induction run with
  | nil => exact fun request mem => mem
  | cons step _ ih => exact fun request mem => ih request (step.sub request mem)

end Requests

/-- Whether an output has the name and the type that are asked for, and is fed by a socket that
computes the tree. -/
def Graph.Yields (graph : Graph) (request : Request) (id : Nat) : Prop :=
  graph.node? id = some (.newOutput request.name request.type) ∧
    ∃ socket, graph.source? ⟨id, 0⟩ = some socket ∧ graph.Computes request.tree socket

/-- An output still yields what is asked for when the graph has grown. -/
theorem Graph.Yields.grow {graph after : Graph} {request : Request} {id : Nat} {fed : List Nat}
    (yields : graph.Yields request id) (grows : graph.Grows after fed)
    (idle : ∀ id ∈ fed, graph.Idle id) (apart : id ∉ fed) : after.Yields request id := by
  obtain ⟨found, socket, linked, computes⟩ := yields
  refine ⟨grows.node?_of_not_input found fun port same => (by cases same), socket,
    (grows.source? _ (Option.isSome_iff_exists.2 ⟨_, found⟩) apart).trans linked,
    computes.grow grows idle fun mem => ?_⟩
  exact idle _ mem _ _ linked rfl

namespace Builder

/-- Whether a build holds what has been asked for and nothing that a demand does not ask for. -/
structure Realizes (needed : Expr → Prop) (options : BuildOptions) (requests : Requests)
    (builder : Builder) : Prop where
  options : builder.options = options
  opened : builder.opened = []
  library : builder.library = .empty
  tidy : builder.root.Tidy .empty []
  realizes : builder.root.Realizes needed []
  outputs : List.Forall₂ builder.root.graph.Yields requests.outputs builder.root.graph.outputs
  declaredInputs : builder.root.declaredInputs = requests.shownInputs
  declaredOutputs : builder.root.declaredOutputs = requests.shownOutputs

/-- Nothing has been asked for before the first statement. -/
theorem realizes_start (needed : Expr → Prop) (options : BuildOptions) :
    (start options).Realizes needed options .none where
  options := rfl
  opened := rfl
  library := rfl
  tidy := Scope.tidy_empty _ _
  realizes := by
    refine ⟨fun entry mem => (by cases mem), fun name id found => ?_, fun name id listed => ?_,
      fun id here => ?_, rfl⟩
    · simp [start, Scope.empty] at found
    · simp [start, Scope.empty, Graph.empty, Graph.input?] at listed
    · simp [start, Scope.empty, Graph.empty, Graph.node?, Slots.empty, Slots.get?] at here
  outputs := .nil
  declaredInputs := rfl
  declaredOutputs := rfl

section

variable {needed : Expr → Prop} {options : BuildOptions} {requests requests' : Requests}
  {builder after : Builder}

/-- What has been asked for is still there when it is forgotten what has been built. -/
theorem Realizes.forget (realizes : builder.Realizes needed options requests) :
    { builder with root := builder.root.forget }.Realizes needed options requests where
  options := realizes.options
  opened := realizes.opened
  library := realizes.library
  tidy := realizes.tidy.forget
  realizes := by
    refine ⟨fun entry mem => (by cases mem), fun name id found => ?_, realizes.realizes.inputs,
      realizes.realizes.accounted, realizes.realizes.instances⟩
    simp [Scope.forget] at found
  outputs := realizes.outputs
  declaredInputs := realizes.declaredInputs
  declaredOutputs := realizes.declaredOutputs

/-- The innermost scope of a build without open groups is its root. -/
theorem Realizes.scope_eq (realizes : builder.Realizes needed options requests) :
    builder.scope = builder.root := by
  unfold Builder.scope
  rw [realizes.opened]

/-- The innermost scope of a build without open groups is replaced as its root. -/
theorem Realizes.setScope_eq (realizes : builder.Realizes needed options requests) (scope : Scope) :
    builder.setScope scope = { builder with root := scope } := by
  unfold Builder.setScope
  rw [realizes.opened]

/-- An output that is added is being fed. -/
theorem realizes_addOutput {scope : Scope} (tidy : scope.Tidy .empty [])
    (realizes : scope.Realizes needed []) {name : String} {type : SocketType} {id : Nat}
    {graph : Graph} (adds : scope.graph.AddsOutput graph name type id) :
    Scope.Realizes needed [id] { scope with graph } := by
  refine realizes.grow tidy adds.grows (by simp)
    (fun other mem => by rw [adds.outputs]; exact List.mem_append_left _ mem) (by simp)
    (realizes.inputs_of_same adds.inputs fun other node found => ?_) fun other here fresh => ?_
  · rw [adds.node?, if_neg]
    · exact found
    · rintro rfl
      rw [adds.fresh] at found
      cases found
  · rw [adds.node?] at here
    split at here
    · rename_i same
      exact .held (by simp [same])
    · rw [fresh] at here
      cases here

/-- An output is built exactly when its tree can be built anywhere, and then it is there. -/
theorem Realizes.output (realizes : builder.Realizes needed options requests) (demand : IsDemand needed)
    {name : String} {type : SocketType} {e : Expr} (needs : needed e) :
    (∀ after, builder.output name type e = .ok after → e.Lowerable) ∧
      (e.Lowerable → ∃ after, builder.output name type e = .ok after ∧
        after.Realizes needed options (requests.add name type e)) := by
  have tidy := realizes.tidy
  have adds := tidy.runnable.sound.addOutput name type
  have held := tidy.addOutput adds
  have fresh := realizes_addOutput tidy realizes.realizes adds
  have unfolded : builder.output name type e = (do
      if e.isEmpty then throw (.missingOperand name)
      let scope ← lowerInto .empty builder.options.optimize e
        ⟨(builder.root.graph.addOutput name type).1, 0⟩
        { builder.root with graph := (builder.root.graph.addOutput name type).2 }
      .ok { builder with root := scope }) := by
    unfold Builder.output
    simp only [realizes.scope_eq, realizes.library, realizes.setScope_eq]
  generalize (builder.root.graph.addOutput name type).1 = id at adds held fresh unfolded
  generalize (builder.root.graph.addOutput name type).2 = graph at adds held fresh unfolded
  constructor
  · intro after done
    rw [unfolded] at done
    split at done
    · cases done
    · obtain ⟨scope, lowered, -⟩ := bind_eq_ok_iff.1 done
      obtain ⟨⟨source, built⟩, lowers, -⟩ := bind_eq_ok_iff.1 lowered
      exact ((lower_realizes demand _).1 e _ _ _ _ held fresh needs lowers).2.lowerable
  · intro lowerable
    have present : ¬ e.isEmpty = true := by
      intro missing
      cases e with
      | empty =>
        cases lowerable with
        | make planned _ => cases planned
      | _ => cases missing
    obtain ⟨source, built, lowers⟩ :=
      (lower_runs demand builder.options.optimize).1 e _ _ held fresh needs lowerable
    obtain ⟨advances, offers⟩ := (lower_keeps Library.runnable_empty _).1 e _ _ _ _ held lowers
    obtain ⟨built', computes⟩ := (lower_realizes demand _).1 e _ _ _ _ held fresh needs lowers
    have node : graph.node? id = some (.newOutput name type) := (adds.node? id).trans (if_pos rfl)
    obtain ⟨linked, links⟩ := advances.tidy.runnable.sound.exists_connect computes.hasOutput
      (advances.grows.hasInput ⟨_, node, Nat.zero_lt_one⟩ : built.graph.HasInput ⟨id, 0⟩)
    have connected : built.connect source ⟨id, 0⟩ = .ok { built with graph := linked } :=
      bind_eq_ok_iff.2 ⟨linked, lift_eq_ok_iff.2 links, rfl⟩
    obtain ⟨linking, connects, -⟩ := advances.tidy.connect offers.2 (by simp) connected
    have early : graph.Grows built.graph [id] := advances.grows.weaken (by simp)
    have grows := early.trans linking.grows (by simp)
    have idle : ∀ other ∈ [id], graph.Idle other := fun other mem =>
      (held.idle other mem).2
    have outputs : linked.outputs = builder.root.graph.outputs ++ [id] :=
      linking.outputs.trans (advances.outputs.trans adds.outputs)
    have last : linked.Yields ⟨name, type, e⟩ id := by
      refine ⟨grows.node?_of_not_input node fun port same => (by cases same), source, ?_,
        computes.grow linking.grows (fun other mem => (advances.tidy.idle other mem).2)
          (by simpa using offers.2)⟩
      exact (connects.source? _).trans (if_pos rfl)
    refine ⟨{ builder with root := { built with graph := linked } }, ?_, ?_⟩
    · rw [unfolded, if_neg present]
      exact bind_eq_ok_iff.2 ⟨_, bind_eq_ok_iff.2 ⟨_, lowers, connected⟩, rfl⟩
    · refine ⟨realizes.options, realizes.opened, realizes.library, linking.tidy.release (by simp),
        (built'.connect advances.tidy (by simp) connects).release (.output ?_), ?_, ?_, ?_⟩
      · show id ∈ linked.outputs
        rw [outputs]
        simp
      · show List.Forall₂ linked.Yields _ linked.outputs
        rw [outputs]
        refine List.rel_append ?_ (.cons last .nil)
        refine List.Forall₂.imp (fun request other yields => ?_) realizes.outputs
        have apart : other ∉ [id] := by
          intro mem
          have found := yields.1
          rw [List.mem_singleton.1 mem, adds.fresh] at found
          cases found
        exact (yields.grow adds.grows (by simp) (by simp)).grow grows idle apart
      · exact (linking.declaredInputs.trans advances.declaredInputs).trans realizes.declaredInputs
      · exact (linking.declaredOutputs.trans advances.declaredOutputs).trans
          realizes.declaredOutputs

/-- What is shown is noted, if the arguments are names. -/
theorem Realizes.shown (realizes : builder.Realizes needed options requests) {directive : Directive}
    (ungrouped : directive.isGrouping = false) {name : String} {args : Expr}
    (called : directive? name = some directive) :
    (∀ after, builder.directive directive name args.arguments = .ok after →
      ∃ requests', requests.Step (.call name args) requests') ∧
      ∀ names, args.arguments.mapM (plainName name) = .ok names →
        (directive = .inputs ∧ ∃ after, builder.directive directive name args.arguments = .ok after ∧
          after.Realizes needed options { requests with shownInputs := requests.shownInputs ++ names }) ∨
        directive = .outputs ∧ ∃ after, builder.directive directive name args.arguments = .ok after ∧
          after.Realizes needed options { requests with shownOutputs := requests.shownOutputs ++ names } := by
  have inputs := realizes.declaredInputs
  have outputs := realizes.declaredOutputs
  cases directive with
  | inputs =>
    refine ⟨fun after done => ?_, fun names listed => .inl ⟨rfl, _, bind_eq_ok_iff.2 ⟨names, listed,
      rfl⟩, ?_⟩⟩
    · obtain ⟨names, listed, -⟩ := bind_eq_ok_iff.1 done
      exact ⟨_, .inputs called listed⟩
    · rw [realizes.setScope_eq, realizes.scope_eq]
      exact { realizes with
        tidy := { realizes.tidy with }
        realizes := { realizes.realizes with }
        declaredInputs := congrArg (· ++ names) inputs }
  | outputs =>
    refine ⟨fun after done => ?_, fun names listed => .inr ⟨rfl, _, bind_eq_ok_iff.2 ⟨names, listed,
      rfl⟩, ?_⟩⟩
    · obtain ⟨names, listed, -⟩ := bind_eq_ok_iff.1 done
      exact ⟨_, .outputs called listed⟩
    · rw [realizes.setScope_eq, realizes.scope_eq]
      exact { realizes with
        tidy := { realizes.tidy with }
        realizes := { realizes.realizes with }
        declaredOutputs := congrArg (· ++ names) outputs }
  | groupStart => cases ungrouped
  | groupEnd => cases ungrouped
  | groupAdd => cases ungrouped

/-- At the start of a statement everything is there that has been asked for. -/
theorem Realizes.atStatement (realizes : builder.Realizes needed options requests) :
    builder.atStatement.Realizes needed options requests := by
  unfold Builder.atStatement
  split
  · rw [realizes.setScope_eq, realizes.scope_eq]
    exact realizes.forget
  · exact realizes

end

end Builder

namespace Expr

/-- An expression without a name is its own content. -/
theorem IsBare.content_eq {e : Expr} (bare : e.IsBare) : e.content = e := by
  unfold content
  split
  · exact absurd rfl (bare.unnamed _ _)
  · rfl

end Expr

/-- A demand for what has been asked for and for the content of a statement is one for what has been
asked for after it. -/
theorem Requests.Step.needs {needed : Expr → Prop} {before after : Requests} {e : Expr}
    (step : before.Step e after) (needs : ∀ request ∈ before.outputs, needed request.tree)
    (content : needed e.content) : ∀ request ∈ after.outputs, needed request.tree := by
  have add {name : String} {type : SocketType} {tree : Expr} (here : needed tree) :
      ∀ request ∈ (before.add name type tree).outputs, needed request.tree := by
    intro request mem
    rcases List.mem_append.1 mem with old | new
    · exact needs request old
    · rw [List.mem_singleton.1 new]
      exact here
  cases step with
  | empty => exact needs
  | inputs _ _ => exact needs
  | outputs _ _ => exact needs
  | named _ _ => exact add content
  | bare bare _ => exact add (bare.content_eq ▸ content)

/-- What statements ask for are contents of them. -/
theorem Requests.Run.needs {needed : Expr → Prop} {before after : Requests} {es : List Expr}
    (run : before.Run es after) (needs : ∀ request ∈ before.outputs, needed request.tree)
    (contents : ∀ e ∈ es, needed e.content) : ∀ request ∈ after.outputs, needed request.tree := by
  induction run with
  | nil => exact needs
  | cons step _ ih =>
    exact ih (step.needs needs (contents _ (by simp))) fun e mem => contents e (by simp [mem])

namespace Builder

variable {needed : Expr → Prop} {options : BuildOptions} {requests requests' : Requests}
  {builder : Builder}

/-- A statement that is built asks for something that can be built anywhere. -/
theorem Realizes.exists_step (realizes : builder.Realizes needed options requests)
    (demand : IsDemand needed) {e : Expr} (ungrouped : e.IsUngrouped) (needs : needed e.content)
    {after : Builder} (done : builder.statement e = .ok after) :
    ∃ requests', requests.Step e requests' := by
  have ready := realizes.atStatement
  obtain rfl | ⟨name, args, directive, rfl, called⟩ | ⟨target, tree, rfl⟩ | bare :=
    e.statement_cases
  · exact ⟨requests, .empty⟩
  · rw [statement_of_directive called] at done
    exact (ready.shown (ungrouped name directive rfl called) called).1 after done
  · obtain ⟨⟨name, type⟩, targeted, done⟩ := bind_eq_ok_iff.1 done
    exact ⟨_, .named targeted ((ready.output demand needs).1 after done)⟩
  · rw [statement_of_bare bare] at done
    rw [bare.content_eq] at needs
    exact ⟨_, .bare bare ((ready.output demand needs).1 after done)⟩

/-- A statement that asks for something that can be built anywhere is built, and what it asks for
is there afterwards. -/
theorem Realizes.statement (realizes : builder.Realizes needed options requests)
    (demand : IsDemand needed) {e : Expr} (ungrouped : e.IsUngrouped)
    (step : requests.Step e requests')
    (needs : ∀ request ∈ requests'.outputs, needed request.tree) :
    ∃ after, builder.statement e = .ok after ∧ after.Realizes needed options requests' := by
  have ready := realizes.atStatement
  cases step with
  | empty => exact ⟨_, rfl, ready⟩
  | inputs called listed =>
    rw [statement_of_directive called]
    obtain ⟨-, done⟩ | ⟨other, -⟩ := (ready.shown rfl called).2 _ listed
    · exact done
    · cases other
  | outputs called listed =>
    rw [statement_of_directive called]
    obtain ⟨other, -⟩ | ⟨-, done⟩ := (ready.shown rfl called).2 _ listed
    · cases other
    · exact done
  | named targeted lowerable =>
    have needs := needs _ (List.mem_append_right _ (List.mem_singleton_self _))
    obtain ⟨after, done, final⟩ := (ready.output demand needs).2 lowerable
    exact ⟨after, bind_eq_ok_iff.2 ⟨_, targeted, done⟩, final⟩
  | bare bare lowerable =>
    rw [statement_of_bare bare]
    have needs := needs _ (List.mem_append_right _ (List.mem_singleton_self _))
    exact (ready.output demand needs).2 lowerable

/-- Statements that are built ask for what can be built anywhere. -/
theorem Realizes.exists_run (realizes : builder.Realizes needed options requests)
    (demand : IsDemand needed) {es : List Expr} (ungrouped : ∀ e ∈ es, e.IsUngrouped)
    (needs : ∀ request ∈ requests.outputs, needed request.tree)
    (contents : ∀ e ∈ es, needed e.content) {after : Builder}
    (done : es.foldlM Builder.statement builder = .ok after) :
    ∃ requests', requests.Run es requests' := by
  induction es generalizing builder requests with
  | nil => exact ⟨requests, .nil requests⟩
  | cons e rest ih =>
    rw [List.foldlM_cons] at done
    obtain ⟨between, first, later⟩ := bind_eq_ok_iff.1 done
    obtain ⟨middle, step⟩ :=
      realizes.exists_step demand (ungrouped e (by simp)) (contents e (by simp)) first
    have needs' := step.needs needs (contents e (by simp))
    obtain ⟨between', first', here⟩ :=
      realizes.statement demand (ungrouped e (by simp)) step needs'
    rw [first] at first'
    cases first'
    obtain ⟨last, run⟩ := ih here (fun e mem => ungrouped e (by simp [mem])) needs'
      (fun e mem => contents e (by simp [mem])) later
    exact ⟨last, .cons step run⟩

/-- Statements that ask for what can be built anywhere are built, and all that they ask for is
there in the end. -/
theorem Realizes.statements (realizes : builder.Realizes needed options requests)
    (demand : IsDemand needed) {es : List Expr} (ungrouped : ∀ e ∈ es, e.IsUngrouped)
    (run : requests.Run es requests')
    (needs : ∀ request ∈ requests'.outputs, needed request.tree) :
    ∃ after, es.foldlM Builder.statement builder = .ok after ∧
      after.Realizes needed options requests' := by
  induction run generalizing builder with
  | nil => exact ⟨builder, rfl, realizes⟩
  | @cons first second last e rest step run ih =>
    obtain ⟨between, done, here⟩ := realizes.statement demand (ungrouped e (by simp)) step
      fun request mem => needs request (run.sub request mem)
    obtain ⟨after, later, final⟩ := ih here (fun e mem => ungrouped e (by simp [mem])) needs
    refine ⟨after, ?_, final⟩
    rw [List.foldlM_cons]
    exact bind_eq_ok_iff.2 ⟨between, done, later⟩

end Builder

namespace Requests

/-- Whether a tree is needed for an output that has been asked for. -/
def Needs (requests : Requests) (e : Expr) : Prop :=
  ∃ request ∈ requests.outputs, request.tree.Needs e

/-- What is needed for regular outputs is a demand. -/
theorem isDemand_needs {requests : Requests} {zero : Float}
    (regular : ∀ request ∈ requests.outputs, request.tree.Every (IsRegular zero)) :
    IsDemand requests.Needs where
  operands _ _ := fun ⟨request, mem, needed⟩ planned _ here =>
    ⟨request, mem, needed.operand planned here⟩
  regular := ⟨zero, fun _ ⟨request, mem, needed⟩ =>
    (regular request mem).needs (isRootwise_isRegular zero) needed⟩

end Requests

/-- Whether a graph holds the outputs that have been asked for and nothing that they do not need. -/
structure Graph.Realizes (requests : Requests) (graph : Graph) : Prop where
  runnable : graph.Runnable .empty
  outputs : List.Forall₂ graph.Yields requests.outputs graph.outputs
  inputs : ∀ name id, graph.input? name = some id → graph.IsDemanded requests.Needs name id
  accounted : ∀ id, (graph.node? id).isSome = true → graph.Accounts requests.Needs [] id

namespace Expr

variable {zero : Float} {e : Expr} {requests : Requests}

/-- What holds of every part of a tree holds of every part of the contents of its statements. -/
theorem Every.contents {p : Expr → Prop} (every : e.Every p) :
    ∀ statement ∈ e.arguments, statement.content.Every p := by
  intro statement mem
  have every := every.arguments statement mem
  unfold content
  split
  · rw [every_binary] at every
    exact every.2.2
  · exact every

/-- Statements that are built one after the other ask for what can be built, whatever the options. -/
theorem exists_run_of_statements (regular : e.Every (IsRegular zero))
    (ungrouped : ∀ statement ∈ e.arguments, statement.IsUngrouped) {options : BuildOptions}
    {builder : Builder}
    (built : e.arguments.foldlM Builder.statement (.start options) = .ok builder) :
    ∃ requests, Requests.none.Run e.arguments requests := by
  have demand := isDemand_needs (fun root => ∃ statement ∈ e.arguments, root = statement.content)
    fun root ⟨statement, mem, same⟩ => same ▸ regular.contents statement mem
  exact (Builder.realizes_start _ options).exists_run demand ungrouped
    (fun request mem => by cases mem)
    (fun statement mem => ⟨statement.content, ⟨statement, mem, rfl⟩, .root⟩) built

/-- A tree whose statements ask for something that cannot be built is refused, whatever the
options. -/
theorem exists_run_of_build (regular : e.Every (IsRegular zero))
    (ungrouped : ∀ statement ∈ e.arguments, statement.IsUngrouped) {options : BuildOptions}
    {site : Site} (built : e.build options = .ok site) :
    ∃ requests, Requests.none.Run e.arguments requests := by
  obtain ⟨builder, built, -⟩ := bind_eq_ok_iff.1 built
  exact exists_run_of_statements regular ungrouped built

/-- A tree whose statements ask for what can be built is built into a graph that realizes this, and
is what the cleanup of the graph makes of it. -/
theorem build_eq (regular : e.Every (IsRegular zero))
    (ungrouped : ∀ statement ∈ e.arguments, statement.IsUngrouped)
    (run : Requests.none.Run e.arguments requests) (options : BuildOptions) :
    ∃ graph defaults, graph.Realizes requests ∧ e.build options =
      (cleanUp ⟨defaults, requests.shownInputs, requests.shownOutputs⟩ options
        ⟨graph, .empty⟩).1.map fun _ => (cleanUp ⟨defaults, requests.shownInputs,
          requests.shownOutputs⟩ options ⟨graph, .empty⟩).2 := by
  have demand := Requests.isDemand_needs
    (run.needs (fun request mem => by cases mem) regular.contents)
  obtain ⟨builder, built, realizes⟩ := (Builder.realizes_start requests.Needs options).statements
    demand ungrouped run fun request mem => ⟨request, mem, .root⟩
  refine ⟨builder.root.graph, builder.root.defaults, ⟨realizes.tidy.runnable, realizes.outputs,
    realizes.realizes.inputs, realizes.realizes.accounted⟩, ?_⟩
  unfold Expr.build
  rw [built]
  show builder.finish = _
  unfold Builder.finish Builder.close Scope.declarations
  rw [realizes.opened, realizes.options, realizes.library, realizes.declaredInputs,
    realizes.declaredOutputs]

end Expr

end Shadeloom
