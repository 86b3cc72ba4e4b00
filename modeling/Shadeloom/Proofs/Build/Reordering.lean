import Mathlib
import Shadeloom.Proofs.Build.Choices
import Shadeloom.Proofs.Build.Redirecting
/-!
# Statements in another order

Where a source has no groups, the order of its statements changes the numbers of nodes, which nodes
are shared and which output is relinked first, but not whether the source is built and not what it
computes. Statements in another order ask for the same outputs in another order, so the one graph
realizes what the other one does once its outputs are listed in the order of the other one, and
outputs are relinked alike in every order.
-/
namespace Shadeloom

open Shadeloom.Expr

namespace Requests

/-- What is asked for by two parts of a source, one after the other. -/
def append (early late : Requests) : Requests :=
  ⟨early.outputs ++ late.outputs, early.shownInputs ++ late.shownInputs,
    early.shownOutputs ++ late.shownOutputs⟩

/-- Whether the same is asked for in another order. -/
structure Reorders (requests requests' : Requests) : Prop where
  outputs : requests.outputs.Perm requests'.outputs
  shownInputs : requests.shownInputs.Perm requests'.shownInputs
  shownOutputs : requests.shownOutputs.Perm requests'.shownOutputs

/-- A statement adds what it asks for by itself. -/
theorem Step.exists_part {before after : Requests} {e : Expr} (step : before.Step e after) :
    ∃ part, Step .none e part ∧ after = before.append part := by
  cases step with
  | empty => exact ⟨.none, .empty, by simp [append, none]⟩
  | inputs called listed => exact ⟨_, .inputs called listed, by simp [append, none]⟩
  | outputs called listed => exact ⟨_, .outputs called listed, by simp [append, none]⟩
  | named targeted lowerable =>
    exact ⟨_, .named targeted lowerable, by simp [append, add, none]⟩
  | bare bare lowerable => exact ⟨_, .bare bare lowerable, by simp [append, add, none]⟩

/-- What a statement asks for by itself is added to whatever has been asked for. -/
theorem Step.append {part : Requests} {e : Expr} (step : Step .none e part) (before : Requests) :
    before.Step e (before.append part) := by
  cases step with
  | empty =>
    have same : before.append .none = before := by simp [Requests.append, none]
    rw [same]
    exact .empty
  | inputs called listed =>
    simpa [Requests.append, none] using @Step.inputs before _ _ _ called listed
  | outputs called listed =>
    simpa [Requests.append, none] using @Step.outputs before _ _ _ called listed
  | named targeted lowerable =>
    simpa [Requests.append, add, none] using @Step.named before _ _ _ _ targeted lowerable
  | bare bare lowerable =>
    simpa [Requests.append, add, none] using @Step.bare before _ bare lowerable

/-- Statements add what each of them asks for by itself. -/
theorem run_iff {before after : Requests} {es : List Expr} :
    before.Run es after ↔
      ∃ parts, List.Forall₂ (Step .none) es parts ∧ after = parts.foldl append before := by
  constructor
  · intro run
    induction run with
    | nil => exact ⟨[], .nil, rfl⟩
    | cons step _ ih =>
      obtain ⟨part, alone, rfl⟩ := step.exists_part
      obtain ⟨parts, each, rfl⟩ := ih
      exact ⟨part :: parts, .cons alone each, rfl⟩
  · rintro ⟨parts, each, rfl⟩
    induction each generalizing before with
    | nil => exact .nil before
    | cons head _ ih => exact .cons (head.append before) ih

/-- What is asked for part after part. -/
theorem foldl_append (parts : List Requests) (before : Requests) :
    parts.foldl append before = before.append ⟨parts.flatMap outputs, parts.flatMap shownInputs,
      parts.flatMap shownOutputs⟩ := by
  induction parts generalizing before with
  | nil => simp [append]
  | cons part rest ih => simp [ih, append]

/-- Statements in another order ask for the same in another order. -/
theorem Run.perm {requests : Requests} {es es' : List Expr} (run : Requests.none.Run es requests)
    (reordered : es.Perm es') :
    ∃ requests', Requests.none.Run es' requests' ∧ requests.Reorders requests' := by
  obtain ⟨parts, each, rfl⟩ := run_iff.1 run
  have moved : Relation.Comp List.Perm (List.Forall₂ (Step .none)) es' parts :=
    ⟨es, reordered.symm, each⟩
  rw [← List.forall₂_comp_perm_eq_perm_comp_forall₂] at moved
  obtain ⟨parts', each', same⟩ := moved
  refine ⟨_, run_iff.2 ⟨parts', each', rfl⟩, ?_⟩
  rw [foldl_append, foldl_append]
  exact ⟨(same.symm.flatMap_right _).append_left _, (same.symm.flatMap_right _).append_left _,
    (same.symm.flatMap_right _).append_left _⟩

/-- What is needed does not depend on the order in which outputs are asked for. -/
theorem Reorders.needs_eq {requests requests' : Requests} (reorders : requests.Reorders requests') :
    requests'.Needs = requests.Needs := by
  unfold Needs
  simp only [reorders.outputs.mem_iff]

end Requests

namespace Graph

section

variable {graph : Graph} {outputs : List Nat}

/-- A graph with its outputs in another order. -/
def withOutputs (graph : Graph) (outputs : List Nat) : Graph :=
  { graph with outputs }

/-- A sound graph agrees with itself with its outputs in another order. -/
theorem Sound.agrees_withOutputs (sound : graph.Sound) (outputs : List Nat) :
    graph.Agrees (graph.withOutputs outputs) where
  node? _ := rfl
  source? target := source?_congr (graph.withOutputs outputs) graph sound.orderly sound.orderly rfl
    target
  input? _ := rfl

/-- A graph stays sound when its outputs are put into another order. -/
theorem Sound.withOutputs (sound : graph.Sound) (reordered : outputs.Perm graph.outputs) :
    (graph.withOutputs outputs).Sound where
  orderly := sound.orderly
  slots := sound.slots
  numbers := sound.numbers
  joined := sound.joined
  single := sound.single
  inputNamed := sound.inputNamed
  outputNamed id mem := sound.outputNamed id (reordered.mem_iff.1 mem)
  outputsDistinct := reordered.nodup_iff.2 sound.outputsDistinct
  inputShaped := sound.inputShaped

/-- A graph can still be evaluated when its outputs are put into another order. -/
theorem Runnable.withOutputs {library : Library} (runnable : graph.Runnable library)
    (reordered : outputs.Perm graph.outputs) : (graph.withOutputs outputs).Runnable library where
  sound := runnable.sound.withOutputs reordered
  acyclic := runnable.acyclic.congr (runnable.sound.agrees_withOutputs outputs).source?
  refers := runnable.refers

/-- A graph that agrees with another one has grown out of it. -/
theorem Agrees.grows {graph' : Graph} (agrees : graph.Agrees graph') : graph.Grows graph' [] where
  node? id _ found := ⟨.scalar, (agrees.node? id).trans found⟩
  source? target _ _ := agrees.source? target
  input? name _ listed := (agrees.input? name).trans listed

/-- A graph that holds what is asked for holds what is asked for in another order, once its outputs
are in that order. -/
theorem Realizes.exists_withOutputs {requests requests' : Requests}
    (realizes : graph.Realizes requests') (reorders : requests.Reorders requests') :
    ∃ outputs, outputs.Perm graph.outputs ∧ (graph.withOutputs outputs).Realizes requests := by
  have moved : Relation.Comp List.Perm (List.Forall₂ graph.Yields) requests.outputs graph.outputs :=
    ⟨requests'.outputs, reorders.outputs, realizes.outputs⟩
  rw [← List.forall₂_comp_perm_eq_perm_comp_forall₂] at moved
  obtain ⟨outputs, yields, same⟩ := moved
  have agrees := realizes.runnable.sound.agrees_withOutputs outputs
  refine ⟨outputs, same, realizes.runnable.withOutputs same, ?_, fun name id listed => ?_,
    fun id here => ?_⟩
  · exact yields.imp fun request id here => here.grow agrees.grows (by simp) (by simp)
  · rw [← reorders.needs_eq]
    obtain ⟨⟨type, found, vector⟩, asked⟩ := realizes.inputs name id listed
    exact ⟨⟨type, found, vector⟩, asked⟩
  · rw [← reorders.needs_eq]
    cases realizes.accounted id here with
    | held mem => cases mem
    | output mem => exact .output (same.mem_iff.2 mem)
    | input listed => exact .input listed
    | computes needs computes =>
      exact .computes needs (computes.grow agrees.grows (by simp) (by simp))

/-- The outputs of a graph that holds what is asked for have the names of the requests. -/
theorem Realizes.map_portName? {requests : Requests} (realizes : graph.Realizes requests) :
    graph.outputs.map (Cleanup.portName? graph) = (requests.outputs.map Request.name).map some := by
  have named := realizes.outputs.imp fun request id (yields : graph.Yields request id) =>
    show Cleanup.portName? graph id = some request.name by
      unfold Cleanup.portName?
      rw [yields.1]
      rfl
  generalize graph.outputs = outputs at named
  generalize requests.outputs = asked at named
  induction named with
  | nil => rfl
  | cons head _ ih => rw [List.map_cons, List.map_cons, List.map_cons, head, ih]

end

section

variable {graph graph' : Graph}

/-- A graph that agrees with a wired one serves for it, and may be left of it. -/
theorem Agrees.leaves (agrees : graph.Agrees graph') (runnable : graph'.Runnable .empty)
    (wired : graph'.IsWired) : graph.Leaves (fun _ => true) graph' where
  runnable := runnable
  wired := wired
  serves setting supplied _ := by
    refine serves_of_agree (fun id => by rw [agrees.node?])
      (fun name here => by rwa [← agrees.input?]) (fun valuation _ id node _ found found' => ?_)
      fun valuation id => ?_
    · rw [agrees.node?, found, Option.some.injEq] at found'
      rw [← found', reads_of_same rfl agrees.source?]
    · rw [filter_true]
      unfold delivery? shownOutput?
      rw [agrees.node?]
      refine Option.map_congr fun (node, port) _ => ?_
      dsimp only
      rw [reads_of_same rfl agrees.source?]
  reads name reads := reads.of_nodes agrees.input? agrees.source? fun id old found =>
    ⟨old, (agrees.node? id).trans found, Node.resembles_of_op rfl rfl⟩

/-- A graph mirrors itself. -/
theorem Sound.mirrors (sound : graph.Sound) :
    graph.Mirrors (fun a b => a = b ∧ (graph.node? a).isSome = true) graph where
  node? a b := by
    rintro ⟨rfl, here⟩
    obtain ⟨node, found⟩ := Option.isSome_iff_exists.1 here
    exact ⟨node, found, found⟩
  source? a b := by
    rintro ⟨rfl, -⟩ place
    cases linked : graph.source? ⟨a, place⟩ with
    | none => exact .none
    | some source => exact .some ⟨rfl, rfl, (sound.isSome_of_leads (leads_of_source? linked)).1⟩
  left a here := ⟨a, rfl, here⟩
  right b here := ⟨b, rfl, here⟩
  inputs a b name := by
    rintro ⟨rfl, -⟩
    exact Iff.rfl
  outputs := by
    refine List.forall₂_same.2 fun id mem => ⟨rfl, ?_⟩
    obtain ⟨node, port, found, -⟩ := sound.outputNamed id mem
    exact Option.isSome_iff_exists.2 ⟨node, found⟩

end

end Graph

/-- Sites that evaluate like a third one evaluate alike. -/
theorem Site.EvaluateAlike.trans {names : List String} {first second third : Site}
    (early : EvaluateAlike names first second) (late : EvaluateAlike names second third) :
    EvaluateAlike names first third := by
  intro config supplied given
  exact (early config supplied given).trans (late config supplied given)
    fun _ _ _ same same' name => (same name).trans (same' name)

namespace Cleanup

open Shadeloom.Graph

/-- What is hidden does not depend on the order in which others are declared. -/
theorem isHidden_perm {declared declared' : List String} (reordered : declared.Perm declared') :
    isHidden declared' = isHidden declared := by
  funext name
  have empty : declared'.isEmpty = declared.isEmpty := by
    rw [Bool.eq_iff_iff, List.isEmpty_iff_length_eq_zero, List.isEmpty_iff_length_eq_zero,
      reordered.length_eq]
  have contains : declared'.contains name = declared.contains name := by
    rw [Bool.eq_iff_iff, List.contains_iff_mem, List.contains_iff_mem, reordered.mem_iff]
  unfold isHidden Scope.isDeclared
  rw [empty, contains]

/-- What outputs are relinked to can be evaluated, and it is rewired. -/
theorem rewires_of_relinkOutputs {graph : Graph} {library : Library} {total : Nat} {between : Site}
    (runnable : graph.Runnable library)
    (done : relinkOutputs ⟨graph, library⟩ = .ok total between) :
    between.graph.Runnable library ∧ graph.Rewires between.graph ∧ between.library = library := by
  obtain ⟨⟨runs, rewires⟩, same⟩ := @relinkOutputs_keeps
    (fun now => now.Runnable library ∧ graph.Rewires now) (fun _ here => here.1.sound)
    (fun _ _ _ _ ⟨runs, rewires⟩ relinks free =>
      ⟨runs.relinks relinks free, rewires.trans relinks.rewires⟩) _ _ _
    ⟨runnable, .refl graph⟩ done
  exact ⟨runs, rewires, same⟩

/-- What a cleanup comes to is left of the graph once its outputs are relinked. -/
theorem leaves_of_cleanUp {graph : Graph} (runnable : graph.Runnable .empty) (wired : graph.IsWired)
    {declarations : Declarations} {options : BuildOptions} {site : Site}
    (done : ((cleanUp declarations options ⟨graph, .empty⟩).1.map fun _ =>
      (cleanUp declarations options ⟨graph, .empty⟩).2) = .ok site) :
    ∃ total middle last, relinkOutputs ⟨graph, .empty⟩ = .ok total ⟨middle, .empty⟩ ∧
      site = ⟨last, .empty⟩ ∧
        middle.Leaves (fun name => !isHidden declarations.outputs name) last := by
  rw [cleanUp_eq] at done
  split at done
  · rename_i report after all
    cases done
    obtain ⟨total, ⟨middle, library⟩, relinked, trimmed⟩ := bind_eq_ok_iff.1 all
    obtain ⟨runs, rewires, rfl⟩ := rewires_of_relinkOutputs runnable relinked
    obtain ⟨report', last, trimmed', leaves⟩ := @trim_leaves ⟨middle, .empty⟩ runs
      (rewires.isWired wired) declarations options total
    rw [trimmed'] at trimmed
    cases trimmed
    exact ⟨total, middle, last, relinked, rfl, leaves⟩
  · cases done

/-- A graph whose outputs can be relinked is cleaned up, and this leaves a graph of it. -/
theorem cleanUp_of_relinkOutputs {graph middle : Graph} (runnable : graph.Runnable .empty)
    (wired : graph.IsWired) {total : Nat}
    (relinked : relinkOutputs ⟨graph, .empty⟩ = .ok total ⟨middle, .empty⟩)
    (declarations : Declarations) (options : BuildOptions) :
    ∃ last, ((cleanUp declarations options ⟨graph, .empty⟩).1.map fun _ =>
        (cleanUp declarations options ⟨graph, .empty⟩).2) = .ok ⟨last, .empty⟩ ∧
      middle.Leaves (fun name => !isHidden declarations.outputs name) last := by
  obtain ⟨runs, rewires, -⟩ := rewires_of_relinkOutputs runnable relinked
  obtain ⟨report, last, trimmed, leaves⟩ := @trim_leaves ⟨middle, .empty⟩ runs
    (rewires.isWired wired) declarations options total
  refine ⟨last, ?_, leaves⟩
  rw [cleanUp_eq, bind_eq_ok_iff.2 ⟨_, _, relinked, trimmed⟩]

/-- A graph that agrees with one that holds what is asked for, with the outputs in any order, is
cleaned up when this one is, and both evaluate alike. -/
theorem cleanUp_of_agrees {requests : Requests} {graph graph' : Graph}
    (realizes : graph.Realizes requests) (agrees : graph.Agrees graph')
    (runnable' : graph'.Runnable .empty) (wired' : graph'.IsWired)
    (reordered : graph.outputs.Perm graph'.outputs)
    (distinct : (requests.outputs.map Request.name).Nodup) {used : List Variable}
    (among : ∀ request ∈ requests.outputs, request.tree.Every (IsAmong used))
    {declarations : Declarations} {options : BuildOptions} {site : Site}
    (done : ((cleanUp declarations options ⟨graph, .empty⟩).1.map fun _ =>
      (cleanUp declarations options ⟨graph, .empty⟩).2) = .ok site)
    (declarations' : Declarations)
    (hides : isHidden declarations'.outputs = isHidden declarations.outputs)
    (options' : BuildOptions) :
    ∃ site', ((cleanUp declarations' options' ⟨graph', .empty⟩).1.map fun _ =>
        (cleanUp declarations' options' ⟨graph', .empty⟩).2) = .ok site' ∧
      Site.EvaluateAlike (used.map Variable.name) site site' := by
  have runnable := realizes.runnable
  obtain ⟨total, middle, last, relinked, rfl, leaves⟩ := leaves_of_cleanUp runnable realizes.isWired
    done
  have named : (graph.outputs.map (portName? graph)).Nodup := by
    rw [realizes.map_portName?]
    exact distinct.map (Option.some_injective _)
  obtain ⟨total', middle', relinked', agrees'⟩ := @relinkOutputs_of_agrees ⟨graph, .empty⟩
    ⟨graph', .empty⟩ agrees runnable.sound runnable'.sound reordered named total middle relinked
  obtain ⟨runs, rewires, -⟩ := rewires_of_relinkOutputs runnable relinked
  obtain ⟨runs', rewires', -⟩ := rewires_of_relinkOutputs runnable' relinked'
  obtain ⟨last', done', leaves'⟩ :=
    cleanUp_of_relinkOutputs runnable' wired' relinked' declarations' options'
  refine ⟨⟨last', .empty⟩, done', fun config supplied given => ?_⟩
  rw [hides] at leaves'
  have apart := rewires.outputsApart (realizes.outputsApart distinct)
  have moved := (agrees'.leaves runs' (rewires'.isWired wired')).trans leaves'
  simp only [Bool.true_and] at moved
  exact runs.sound.mirrors.concur_leaves runs runs (rewires.isWired realizes.isWired)
    (rewires.isWired realizes.isWired) apart apart (rewires.supplied realizes among given) leaves
    moved

/-- Graphs that hold the same requests in another order are cleaned up alike. -/
theorem cleanUp_of_reorders {requests requests' : Requests} {graph graph' : Graph}
    (realizes : graph.Realizes requests) (realizes' : graph'.Realizes requests')
    (reorders : requests.Reorders requests') (distinct : (requests.outputs.map Request.name).Nodup)
    {used : List Variable}
    (among : ∀ request ∈ requests.outputs, request.tree.Every (IsAmong used))
    (defaults defaults' : Table String Float) (options : BuildOptions) :
    Concur (Site.EvaluateAlike (used.map Variable.name))
      ((cleanUp ⟨defaults, requests.shownInputs, requests.shownOutputs⟩ options
          ⟨graph, .empty⟩).1.map fun _ =>
        (cleanUp ⟨defaults, requests.shownInputs, requests.shownOutputs⟩ options ⟨graph, .empty⟩).2)
      ((cleanUp ⟨defaults', requests'.shownInputs, requests'.shownOutputs⟩ options
          ⟨graph', .empty⟩).1.map fun _ =>
        (cleanUp ⟨defaults', requests'.shownInputs, requests'.shownOutputs⟩ options
          ⟨graph', .empty⟩).2) := by
  obtain ⟨outputs, listed, between⟩ := realizes'.exists_withOutputs reorders
  have agrees := realizes'.runnable.sound.agrees_withOutputs outputs
  have distinct' : (requests'.outputs.map Request.name).Nodup :=
    ((reorders.outputs.map Request.name).nodup_iff).1 distinct
  have among' : ∀ request ∈ requests'.outputs, request.tree.Every (IsAmong used) :=
    fun request mem => among request (reorders.outputs.mem_iff.2 mem)
  have hides := isHidden_perm reorders.shownOutputs
  -- Over the second graph with its outputs in the order of the first one.
  refine (cleanUp_concurs realizes between distinct among
    ⟨defaults, requests.shownInputs, requests.shownOutputs⟩
    ⟨defaults, requests.shownInputs, requests.shownOutputs⟩ rfl options options).trans
    (Concur.of_forth_back (fun site done => ?_) fun site done => ?_)
    fun _ _ _ early late => early.trans late
  · exact cleanUp_of_agrees between agrees.symm realizes'.runnable realizes'.isWired listed distinct
      among done _ hides options
  · obtain ⟨site', done', -⟩ := cleanUp_of_agrees realizes' agrees between.runnable between.isWired
      listed.symm distinct' among' done
      ⟨defaults, requests.shownInputs, requests.shownOutputs⟩ hides.symm options
    exact ⟨site', done'⟩

end Cleanup

namespace Expr

/-- Trees without groups, with the same statements in any order, are built when one of them is, and
what they give evaluates alike. -/
theorem build_of_perm {zero : Float} {e e' : Expr} (regular : e.Every (IsRegular zero))
    (regular' : e'.Every (IsRegular zero))
    (ungrouped : ∀ statement ∈ e.arguments, statement.IsUngrouped)
    (reordered : e.arguments.Perm e'.arguments)
    (distinct : (e.arguments.filterMap outputName?).Nodup) (options : BuildOptions) :
    Concur (Site.EvaluateAlike (e.usedVariables.map Variable.name)) (e.build options)
      (e'.build options) := by
  have ungrouped' : ∀ statement ∈ e'.arguments, statement.IsUngrouped :=
    fun statement mem => ungrouped statement (reordered.mem_iff.2 mem)
  by_cases asks : ∃ requests, Requests.none.Run e.arguments requests
  · obtain ⟨requests, run⟩ := asks
    obtain ⟨requests', run', reorders⟩ := run.perm reordered
    obtain ⟨graph, defaults, realizes, built⟩ := build_eq regular ungrouped run options
    obtain ⟨graph', defaults', realizes', built'⟩ := build_eq regular' ungrouped' run' options
    have named : (requests.outputs.map Request.name).Nodup := by
      rw [run.names]
      exact distinct
    have among : ∀ request ∈ requests.outputs, request.tree.Every (IsAmong e.usedVariables) :=
      run.needs (fun request mem => by cases mem) e.every_isAmong.contents
    rw [built, built']
    exact Cleanup.cleanUp_of_reorders realizes realizes' reorders named among defaults defaults'
      options
  · have refused (site : Site) : e.build options ≠ .ok site :=
      fun built => asks (exists_run_of_build regular ungrouped built)
    have refused' (site : Site) : e'.build options ≠ .ok site := by
      intro built
      obtain ⟨requests', run'⟩ := exists_run_of_build regular' ungrouped' built
      obtain ⟨requests, run, -⟩ := run'.perm reordered.symm
      exact asks ⟨requests, run⟩
    apply Concur.of_forth_back
    · exact fun site built => absurd built (refused site)
    · exact fun site built => absurd built (refused' site)

end Expr

namespace Source

/-- A source is valid when one with the same statements in another order is. -/
theorem validate_of_perm {source source' : String}
    (balanced : isBalanced source' = isBalanced source)
    (reordered : (parse source).arguments.Perm (parse source').arguments) {e : Expr}
    (valid : validate source = .ok e) : validate source' = .ok (parse source') := by
  obtain ⟨whole, rfl, checked⟩ := of_validate valid
  exact validate_of_check (balanced.trans whole) rfl (check_of_perm checked reordered)

/-- Two sources of the same statements, without directives about groups and without images and point
densities, whose outputs have different names, are built or compiled in every order of the
statements or in none, under all choices, and what is built evaluates to the same outputs, or to
none, for all values of the variables. -/
theorem concurs_of_perm (source source' : String)
    (balanced : isBalanced source' = isBalanced source)
    (reordered : (parse source).arguments.Perm (parse source').arguments)
    (ungrouped : ∀ statement ∈ (parse source).arguments, statement.IsUngrouped)
    (nameless : (parse source).Every IsNameless)
    (distinct : ((parse source).arguments.filterMap outputName?).Nodup) (options : BuildOptions) :
    Concur (Site.EvaluateAlike ((parse source).usedVariables.map Variable.name))
        (build source options) (build source' options) ∧
      Concur (Site.EvaluateAlike ((parse source).usedVariables.map Variable.name))
        (compile source options) (compile source' options) := by
  have nameless' := nameless.perm isNameless_comma reordered
  have regular : (parse source).Every (IsRegular 0.0) := fun part mem =>
    ⟨every_zeroIs_parseChars source.toList part mem, nameless part mem⟩
  have regular' : (parse source').Every (IsRegular 0.0) := fun part mem =>
    ⟨every_zeroIs_parseChars source'.toList part mem, nameless' part mem⟩
  have trees := build_of_perm regular regular' ungrouped reordered distinct options
  have built : Concur (Site.EvaluateAlike ((parse source).usedVariables.map Variable.name))
      (build source options) (build source' options) := by
    unfold build
    rw [balanced]
    split
    · exact trees
    · exact .refused _ _
  refine ⟨built, ?_⟩
  unfold compile
  split
  · have valid : Concur (fun first second => first = parse source ∧ second = parse source')
        (validate source) (validate source') := by
      apply Concur.of_forth_back
      · intro e valid
        exact ⟨_, validate_of_perm balanced reordered valid, (of_validate valid).2.1.symm, rfl⟩
      · intro e' valid'
        exact ⟨_, validate_of_perm balanced.symm reordered.symm valid'⟩
    generalize validate source = first at valid
    generalize validate source' = second at valid
    cases valid with
    | refused problem problem' => exact .refused _ _
    | done same =>
      obtain ⟨rfl, rfl⟩ := same
      exact trees.mapError _ _
  · exact built.mapError _ _

/-- The statement that gives an output the value of a variable. -/
def aliasing (name read : String) : Expr :=
  .binary .assign (.var (.plain name)) (.var (.plain read))

/-- Three names for one value, where a name is used before it is defined, and in another order. -/
theorem parse_aliases :
    parse "a=b,c=a,b=x" =
        .binary .comma (aliasing "a" "b") (.binary .comma (aliasing "c" "a") (aliasing "b" "x")) ∧
      parse "b=x,a=b,c=a" =
        .binary .comma (aliasing "b" "x") (.binary .comma (aliasing "a" "b") (aliasing "c" "a")) := by
  have word (name : String) (form : Form.ofChars (Text.trim name.toList) = .atom name.toList)
      (plain : atom name.toList = .var (.plain name)) :
      parseChars name.toList = .var (.plain name) :=
    (parseChars_of_atom form).trans plain
  have a := word "a" (by decide +kernel) (by rfl)
  have b := word "b" (by decide +kernel) (by rfl)
  have c := word "c" (by decide +kernel) (by rfl)
  have x := word "x" (by decide +kernel) (by rfl)
  have statement (text name read : String)
      (form : Form.ofChars (Text.trim text.toList) =
        .operation .assign name.toList read.toList)
      (target : parseChars name.toList = .var (.plain name))
      (value : parseChars read.toList = .var (.plain read)) :
      parseChars text.toList = aliasing name read := by
    rw [parseChars_of_operation form, target, value, aliasing]
  have first := statement "a=b" "a" "b" (by decide +kernel) a b
  have second := statement "c=a" "c" "a" (by decide +kernel) c a
  have third := statement "b=x" "b" "x" (by decide +kernel) b x
  have list (text early late : String)
      (form : Form.ofChars (Text.trim text.toList) =
        .operation .comma early.toList late.toList) :
      parseChars text.toList = .binary .comma (parseChars early.toList) (parseChars late.toList) :=
    parseChars_of_operation form
  constructor
  · rw [parse, list "a=b,c=a,b=x" "a=b" "c=a,b=x" (by decide +kernel),
      list "c=a,b=x" "c=a" "b=x" (by decide +kernel), first, second, third]
  · rw [parse, list "b=x,a=b,c=a" "b=x" "a=b,c=a" (by decide +kernel),
      list "a=b,c=a" "a=b" "c=a" (by decide +kernel), first, second, third]

/-- A statement that gives an output the value of a variable is no directive and takes no names. -/
theorem aliasing_isUngrouped (name read : String) :
    (aliasing name read).IsUngrouped ∧ (aliasing name read).Every IsNameless :=
  ⟨isUngrouped_assign _ _, every_isNameless_assign _ (every_var.2 nofun)⟩

/-- A chain of names is built in an order in which each is used before it is defined as it is built
in another one, and both evaluate alike. -/
theorem aliases_concur :
    Concur (Site.EvaluateAlike ["a", "b", "c", "a", "b", "x"]) (compile "a=b,c=a,b=x" .standard)
      (compile "b=x,a=b,c=a" .standard) := by
  obtain ⟨first, second⟩ := parse_aliases
  have concurs := concurs_of_perm "a=b,c=a,b=x" "b=x,a=b,c=a" (by decide +kernel)
    (by
      rw [first, second]
      exact @List.perm_append_comm _ [aliasing "a" "b", aliasing "c" "a"] [aliasing "b" "x"])
    (by
      rw [first]
      rintro statement (_ | ⟨_, _ | ⟨_, _ | ⟨_, ⟨⟩⟩⟩⟩)
      all_goals exact (aliasing_isUngrouped _ _).1)
    (by
      rw [first]
      refine every_binary.2 ⟨isNameless_comma _ _, (aliasing_isUngrouped _ _).2, every_binary.2
        ⟨isNameless_comma _ _, (aliasing_isUngrouped _ _).2, (aliasing_isUngrouped _ _).2⟩⟩)
    (by rw [first]; decide +kernel) .standard
  have used : (parse "a=b,c=a,b=x").usedVariables.map Variable.name = ["a", "b", "c", "a", "b", "x"] := by
    rw [first]
    decide +kernel
  rw [used] at concurs
  exact concurs.2

end Source

end Shadeloom
