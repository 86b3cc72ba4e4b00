import Mathlib
import Shadeloom.Proofs.Build.Agreement
import Shadeloom.Proofs.Build.Correctness
import Shadeloom.Proofs.Build.Mirroring
/-!
# What the choices of a build change

Where a source has no groups, the choices of a build change which nodes its graph has, but not
whether it is built and not what it computes. Statements ask for the same outputs under all choices,
the graphs that hold these mirror each other until they are relinked and afterwards, and all that a
cleanup does then leaves graphs that serve for them.
-/
namespace Shadeloom

open Shadeloom.Expr

namespace Expr

/-- The name of the output that a statement asks for, unless it is refused. -/
def outputName? : Expr → Option String
  | .empty => none
  | .call name _ =>
    match Builder.directive? name with
    | some _ => none
    | none => some Builder.bareOutput
  | .binary .assign target _ =>
    match Builder.outputTarget target with
    | .ok (name, _) => some name
    | .error _ => none
  | _ => some Builder.bareOutput

/-- An expression without a name asks for the output that all such have. -/
theorem IsBare.outputName?_eq {e : Expr} (bare : e.IsBare) :
    e.outputName? = some Builder.bareOutput := by
  cases e with
  | empty => exact absurd rfl bare.present
  | call name args => simp only [outputName?, bare.call name args rfl]
  | binary op lhs rhs =>
    cases op with
    | assign => exact absurd rfl (bare.unnamed lhs rhs)
    | _ => rfl
  | _ => rfl

end Expr

namespace Requests

/-- What a statement asks for is an output of its name. -/
theorem Step.names {before after : Requests} {e : Expr} (step : before.Step e after) :
    after.outputs.map Request.name = before.outputs.map Request.name ++ e.outputName?.toList := by
  cases step with
  | empty => simp [outputName?]
  | inputs called _ => simp [outputName?, called]
  | outputs called _ => simp [outputName?, called]
  | named targeted _ => simp [outputName?, targeted, add]
  | bare bare _ => simp [bare.outputName?_eq, add]

/-- What statements ask for are outputs of their names, in order. -/
theorem Run.names {before after : Requests} {es : List Expr} (run : before.Run es after) :
    after.outputs.map Request.name =
      before.outputs.map Request.name ++ es.filterMap outputName? := by
  induction run with
  | nil => simp
  | @cons first second last e rest step _ ih =>
    rw [ih, step.names, List.append_assoc]
    cases named : e.outputName? <;> simp [named]

end Requests

namespace Graph

namespace Rewires

variable {before after : Graph}

/-- A wired graph stays so when it is rewired. -/
theorem isWired (rewires : before.Rewires after) (wired : before.IsWired) : after.IsWired :=
  wired.of_nodes
    (fun id new found => ⟨new, (rewires.node? id).symm.trans found, Node.resembles_of_op rfl rfl⟩)
    (fun name => by unfold input?; rw [rewires.inputs]) rewires.outputs
    fun id _ _ _ _ => rewires.linked ⟨id, 0⟩

/-- A graph that is rewired shows the same outputs. -/
theorem outputsApart (rewires : before.Rewires after) (apart : before.OutputsApart) :
    after.OutputsApart := by
  have same (id : Nat) : after.shownOutput? id = before.shownOutput? id := by
    unfold shownOutput?
    rw [rewires.node?]
  intro id id' shown shown' here there
  rw [same] at here there
  exact apart id id' shown shown' here there

/-- The inputs of a graph that is rewired are given a value when the variables of the trees are. -/
theorem supplied (rewires : before.Rewires after) {requests : Requests}
    (realizes : before.Realizes requests) {used : List Variable}
    (among : ∀ request ∈ requests.outputs, request.tree.Every (IsAmong used))
    {supplied : Assignment}
    (given : ∀ name ∈ used.map Variable.name, supplied.contains name = true) (name : String)
    (listed : (after.input? name).isSome = true) : supplied.contains name = true := by
  unfold Graph.input? at listed
  rw [rewires.inputs] at listed
  obtain ⟨v, mem, rfl⟩ := realizes.exists_used among listed
  exact given v.name (List.mem_map_of_mem mem)

end Rewires

/-- Graphs that mirror each other have the same named inputs. -/
theorem Mirrors.isSome_input? {related : Nat → Nat → Prop} {graph graph' : Graph}
    (mirrors : graph.Mirrors related graph') (sound : graph.Sound) (sound' : graph'.Sound)
    (name : String) : (graph.input? name).isSome = (graph'.input? name).isSome := by
  have forth {graph graph' : Graph} {related : Nat → Nat → Prop}
      (mirrors : graph.Mirrors related graph') (sound : graph.Sound) (name : String)
      (listed : (graph.input? name).isSome = true) : (graph'.input? name).isSome = true := by
    obtain ⟨id, listed⟩ := Option.isSome_iff_exists.1 listed
    obtain ⟨node, port, found, -⟩ := sound.input?_spec listed
    obtain ⟨id', rel⟩ := mirrors.left id (Option.isSome_iff_exists.2 ⟨node, found⟩)
    exact Option.isSome_iff_exists.2 ⟨id', (mirrors.inputs id id' name rel).1 listed⟩
  rw [Bool.eq_iff_iff]
  exact ⟨forth mirrors sound name, forth mirrors.symm sound' name⟩

/-- Graphs that mirror each other accept the same of an assignment. -/
theorem Mirrors.accepted_eq {related : Nat → Nat → Prop} {graph graph' : Graph}
    (mirrors : graph.Mirrors related graph') (sound : graph.Sound) (sound' : graph'.Sound)
    (supplied : Assignment) : graph.accepted supplied = graph'.accepted supplied := by
  unfold accepted
  congr 1
  funext name _
  exact mirrors.isSome_input? sound sound' name

end Graph

/-- Whether two sites evaluate to the same, however this is done, when values are given for some
names at least; each site takes the values of the names that it has as inputs. -/
def Site.EvaluateAlike (names : List String) (site site' : Site) : Prop :=
  ∀ config supplied, (∀ name ∈ names, supplied.contains name = true) →
    Concur Assignment.Equal
      (evaluate site.graph site.library config (site.graph.accepted supplied))
      (evaluate site'.graph site'.library config (site'.graph.accepted supplied))

namespace Graph

variable {related : Nat → Nat → Prop} {shows : String → Bool} {graph graph' last last' : Graph}
  {config : EvalConfig} {supplied : Assignment}

/-- Graphs that mirror each other evaluate to the same, or neither evaluates. -/
theorem Mirrors.concur (mirrors : graph.Mirrors related graph')
    (runnable : graph.Runnable .empty) (runnable' : graph'.Runnable .empty)
    (apart : graph.OutputsApart) (apart' : graph'.OutputsApart)
    (given : ∀ name, (graph.input? name).isSome = true → supplied.contains name = true) :
    Concur Assignment.Equal (Shadeloom.evaluate graph .empty config (graph.accepted supplied))
      (Shadeloom.evaluate graph' .empty config (graph'.accepted supplied)) := by
  have forth {related : Nat → Nat → Prop} {graph graph' : Graph}
      (mirrors : graph.Mirrors related graph') (runnable : graph.Runnable .empty)
      (runnable' : graph'.Runnable .empty) (apart : graph.OutputsApart)
      (apart' : graph'.OutputsApart)
      (given : ∀ name, (graph.input? name).isSome = true → supplied.contains name = true)
      {outputs : Assignment}
      (done : Shadeloom.evaluate graph .empty config (graph.accepted supplied) = .ok outputs) :
      ∃ outputs', Shadeloom.evaluate graph' .empty config (graph'.accepted supplied) =
        .ok outputs' ∧ Assignment.Equal outputs outputs' := by
    have accepted := mirrors.accepted_eq runnable.sound runnable'.sound supplied
    obtain ⟨outputs', done', same⟩ := mirrors.evaluate runnable.sound runnable'.sound
      runnable.acyclic runnable'.acyclic apart apart'
      (fun name here => (contains_accepted.1 (accepted ▸ here)).2) (fun name mem => by
        have here := isSome_input?_of_exposed mem
        rw [← mirrors.isSome_input? runnable.sound runnable'.sound] at here
        exact contains_accepted.2 ⟨given name here, here⟩) done
    exact ⟨outputs', accepted ▸ done', fun name => (same name).symm⟩
  apply Concur.of_forth_back
  · exact fun _ done => forth mirrors runnable runnable' apart apart' given done
  · intro outputs' done'
    obtain ⟨outputs, done, -⟩ := forth mirrors.symm runnable' runnable apart' apart
      (fun name here => given name
        ((mirrors.isSome_input? runnable.sound runnable'.sound name).trans here)) done'
    exact ⟨outputs, done⟩

/-- A graph and what it is left as concur on the outputs that are shown. -/
theorem Leaves.concur (leaves : graph.Leaves shows last) (runnable : graph.Runnable .empty)
    (wired : graph.IsWired) (apart : graph.OutputsApart)
    (given : ∀ name, (graph.input? name).isSome = true → supplied.contains name = true) :
    Concur (fun outputs outputs' => ∀ name,
        outputs'.get? name = (outputs.get? name).filter fun _ => shows name)
      (Shadeloom.evaluate graph .empty config (graph.accepted supplied))
      (Shadeloom.evaluate last .empty config (last.accepted supplied)) :=
  (leaves.serves (.outermost graph .empty config) supplied given).concur runnable wired
    leaves.runnable leaves.wired apart given

/-- What graphs are left as that mirror each other evaluates to the same, or neither evaluates. -/
theorem Mirrors.concur_leaves (mirrors : graph.Mirrors related graph')
    (runnable : graph.Runnable .empty) (runnable' : graph'.Runnable .empty) (wired : graph.IsWired)
    (wired' : graph'.IsWired) (apart : graph.OutputsApart) (apart' : graph'.OutputsApart)
    (given : ∀ name, (graph.input? name).isSome = true → supplied.contains name = true)
    (leaves : graph.Leaves shows last) (leaves' : graph'.Leaves shows last') :
    Concur Assignment.Equal (Shadeloom.evaluate last .empty config (last.accepted supplied))
      (Shadeloom.evaluate last' .empty config (last'.accepted supplied)) := by
  have given' (name : String) (listed : (graph'.input? name).isSome = true) :
      supplied.contains name = true :=
    given name ((mirrors.isSome_input? runnable.sound runnable'.sound name).trans listed)
  -- From what is left to the graph, over to the graph that mirrors it, and to what is left of that.
  have late : Concur (fun outputs outputs' => ∀ name,
        outputs'.get? name = (outputs.get? name).filter fun _ => shows name)
      (Shadeloom.evaluate graph .empty config (graph.accepted supplied))
      (Shadeloom.evaluate last' .empty config (last'.accepted supplied)) :=
    (mirrors.concur runnable runnable' apart apart' given).trans
      (leaves'.concur runnable' wired' apart' given')
      fun _ _ _ same there name => (there name).trans (congrArg _ (same name).symm)
  exact (leaves.concur runnable wired apart given).symm.trans late fun _ _ _ here there name =>
    (here name).trans (there name).symm

end Graph

namespace Cleanup

open Shadeloom.Graph

/-- Cleanups of graphs that realize the same requests concur, whatever choices are made, and what
they give evaluates alike. -/
theorem cleanUp_concurs {requests : Requests} {graph graph' : Graph}
    (realizes : graph.Realizes requests) (realizes' : graph'.Realizes requests)
    (distinct : (requests.outputs.map Request.name).Nodup) {used : List Variable}
    (among : ∀ request ∈ requests.outputs, request.tree.Every (IsAmong used))
    (declarations declarations' : Declarations) (declared : declarations'.outputs = declarations.outputs)
    (options options' : BuildOptions) :
    Concur (Site.EvaluateAlike (used.map Variable.name))
      ((cleanUp declarations options ⟨graph, .empty⟩).1.map fun _ =>
        (cleanUp declarations options ⟨graph, .empty⟩).2)
      ((cleanUp declarations' options' ⟨graph', .empty⟩).1.map fun _ =>
        (cleanUp declarations' options' ⟨graph', .empty⟩).2) := by
  rw [cleanUp_eq, cleanUp_eq]
  cases @relinkOutputs_lockstep _ ⟨graph, .empty⟩ ⟨graph', .empty⟩ (realizes.mirrors realizes')
      realizes.runnable realizes'.runnable with
  | refused left right =>
    obtain ⟨error, after, stopped⟩ := left.bind (trim declarations options)
    obtain ⟨error', after', stopped'⟩ := right.bind (trim declarations' options')
    rw [stopped, stopped']
    exact .refused error error'
  | @done relinked relinked' middle middle' left right mirrors runnable runnable' rewires rewires' =>
    have wired := rewires.isWired realizes.isWired
    have wired' := rewires'.isWired realizes'.isWired
    have apart := rewires.outputsApart (realizes.outputsApart distinct)
    have apart' := rewires'.outputsApart (realizes'.outputsApart distinct)
    obtain ⟨report, last, trims, leaves⟩ :=
      @trim_leaves ⟨middle, .empty⟩ runnable wired declarations options relinked
    obtain ⟨report', last', trims', leaves'⟩ :=
      @trim_leaves ⟨middle', .empty⟩ runnable' wired' declarations' options' relinked'
    rw [bind_eq_ok_iff.2 ⟨_, _, left, trims⟩, bind_eq_ok_iff.2 ⟨_, _, right, trims'⟩]
    refine .done fun config supplied given => ?_
    rw [declared] at leaves'
    exact mirrors.concur_leaves runnable runnable' wired wired' apart apart'
      (rewires.supplied realizes among given) leaves leaves'

end Cleanup

/-- Builds of a tree without groups concur, whatever choices are made, and what they give evaluates
alike. -/
theorem Expr.concurs_build {zero : Float} {e : Expr} (regular : e.Every (IsRegular zero))
    (ungrouped : ∀ statement ∈ e.arguments, statement.IsUngrouped)
    (distinct : (e.arguments.filterMap outputName?).Nodup) (options options' : BuildOptions) :
    Concur (Site.EvaluateAlike (e.usedVariables.map Variable.name)) (e.build options)
      (e.build options') := by
  by_cases asks : ∃ requests, Requests.none.Run e.arguments requests
  · obtain ⟨requests, run⟩ := asks
    obtain ⟨graph, defaults, realizes, built⟩ := build_eq regular ungrouped run options
    obtain ⟨graph', defaults', realizes', built'⟩ := build_eq regular ungrouped run options'
    rw [built, built']
    have named : (requests.outputs.map Request.name).Nodup := by
      rw [run.names]
      exact distinct
    have among : ∀ request ∈ requests.outputs, request.tree.Every (IsAmong e.usedVariables) :=
      run.needs (fun request mem => by cases mem) e.every_isAmong.contents
    exact Cleanup.cleanUp_concurs realizes realizes' named among
      ⟨defaults, requests.shownInputs, requests.shownOutputs⟩
      ⟨defaults', requests.shownInputs, requests.shownOutputs⟩ rfl options options'
  · have refused (options : BuildOptions) (site : Site) : e.build options ≠ .ok site :=
      fun built => asks (exists_run_of_build regular ungrouped built)
    apply Concur.of_forth_back
    · exact fun site built => absurd built (refused options site)
    · exact fun site built => absurd built (refused options' site)

/-- A source without directives about groups and without images and point densities, whose outputs
have different names, is built under any choices or under none, and under any two choices what is
built evaluates to the same outputs, or to none, for all values of its variables. -/
theorem Source.build_concurs (source : String)
    (ungrouped : ∀ statement ∈ (parse source).arguments, statement.IsUngrouped)
    (nameless : (parse source).Every IsNameless)
    (distinct : ((parse source).arguments.filterMap outputName?).Nodup)
    (options options' : BuildOptions) :
    Concur (Site.EvaluateAlike ((parse source).usedVariables.map Variable.name))
      (build source options) (build source options') := by
  have regular : (parse source).Every (IsRegular 0.0) := fun part mem =>
    ⟨every_zeroIs_parseChars source.toList part mem, nameless part mem⟩
  unfold build
  split
  · exact Expr.concurs_build regular ungrouped distinct options options'
  · exact .refused _ _

/-- A source that names the value of a sum is built with nodes used again and parts taken away, and
without, and both evaluate alike. -/
theorem Source.build_sum_concurs :
    ∃ site site', build "s = x + 2" .standard = .ok site ∧ build "s = x + 2" .literal = .ok site' ∧
      Site.EvaluateAlike ["s", "x"] site site' := by
  obtain ⟨balanced, parsed, checked⟩ := of_validate validate_sum
  have asks : Expr.AsksFor (.binary .assign (.var (.plain "s")) .sum) "s" .scalar .sum :=
    .scalar "s" .sum
  have zeros : (parse "s = x + 2").Every (ZeroIs 0.0) :=
    every_zeroIs_parseChars "s = x + 2".toList
  have built (options : BuildOptions) : ∃ site, build "s = x + 2" options = .ok site := by
    obtain ⟨site, built, -⟩ := asks.build_evaluates isArithmetic_sum
      (asks.isComputable isArithmetic_sum checked) (parsed ▸ zeros) (by rw [usedVariables_sum]; decide) (by decide) options
    exact ⟨site, by rw [build, if_pos balanced, parsed, built]⟩
  obtain ⟨site, first⟩ := built .standard
  obtain ⟨site', second⟩ := built .literal
  have concurs := build_concurs "s = x + 2"
    (by
      rw [parsed, asks.arguments_eq isArithmetic_sum]
      simpa using asks.isUngrouped isArithmetic_sum)
    (by rw [parsed]; exact asks.every_isNameless isArithmetic_sum)
    (by rw [parsed]; decide +kernel) .standard .literal
  rw [first, second, parsed] at concurs
  cases concurs with
  | done alike => exact ⟨site, site', first, second, alike⟩

end Shadeloom
