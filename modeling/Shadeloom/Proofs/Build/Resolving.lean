import Mathlib
import Shadeloom.Proofs.Build.Definitions
/-!
# Definitions that are relinked

When the outputs of a graph are relinked, the readers of the input of a definition come to read the
definition. Nothing reads the input then, and neither this nor the output of the definition makes a
difference to what other outputs give. So a definition may as well be inlined.
-/
namespace Shadeloom

open Relation Shadeloom.Expr

namespace Graph

variable {graph middle between after : Graph} {definition : Definition} {others : List Request}
  {input output : Nat} {source : Socket} {type : SocketType} {shownInputs shownOutputs : List String}

/-- An output leads nowhere. -/
theorem Sound.idle_newOutput (sound : graph.Sound) {id : Nat} {name : String}
    (found : graph.node? id = some (.newOutput name type)) : graph.Idle id := by
  intro target socket linked same
  obtain ⟨node, here, below⟩ := sound.hasOutput linked
  rw [same, found] at here
  cases here
  exact absurd below (Nat.not_lt_zero _)

/-- A graph of a definition and of other outputs defines its name if any of them needs it. -/
theorem Realizes.exists_defines
    (realizes : graph.Realizes ⟨definition.request type :: others, shownInputs, shownOutputs⟩)
    {v : Variable} (needs : (⟨definition.request type :: others, shownInputs, shownOutputs⟩ :
      Requests).Needs (.var v)) (same : v.name = definition.name) :
    ∃ input output source, graph.Defines definition input output source := by
  obtain ⟨input, type', listed, found, -⟩ := realizes.exists_input needs
  rw [same] at listed found
  have yields := realizes.outputs
  cases outputs : graph.outputs with
  | nil =>
    rw [outputs] at yields
    cases yields
  | cons output rest =>
    rw [outputs, List.forall₂_cons] at yields
    obtain ⟨⟨node, source, fed, computes⟩, -⟩ := yields
    exact ⟨input, output, source, listed, ⟨type', found⟩, by rw [outputs]; rfl, ⟨type, node⟩, fed,
      computes⟩

namespace Defines

/-- The output of a definition has its name. -/
theorem portName?_eq (defines : graph.Defines definition input output source) :
    Cleanup.portName? graph output = some definition.name := by
  obtain ⟨type, found⟩ := defines.outputNode
  unfold Cleanup.portName?
  rw [found]
  rfl

/-- The readers of the input of a definition that does not need its name can come to read the
definition. -/
theorem exists_relinksOutput (defines : graph.Defines definition input output source)
    (runnable : graph.Runnable .empty)
    (unneeded : ∀ v, definition.value.Needs (.var v) → v.name ≠ definition.name) :
    ∃ middle, graph.RelinksOutput output middle ∧ middle.Runnable .empty ∧ ∀ target,
      middle.source? target = (graph.source? target).map (redirect ⟨input, 0⟩ source) := by
  have sound := runnable.sound
  have named := defines.portName?_eq
  obtain ⟨inputType, found⟩ := defines.inputNode
  by_cases read : ∃ reader, graph.source? reader = some ⟨input, 0⟩
  · have relinkable : graph.Relinkable output ⟨input, 0⟩ source :=
      ⟨definition.name, input, named, defines.listed, rfl, defines.fed, read⟩
    have free : ¬ graph.Entangled ⟨input, 0⟩ source := by
      rintro (same | ⟨reader, reads, path⟩)
      · exact defines.computes.ne_input (fun v equal => unneeded v (equal ▸ .root)) found same
      · exact defines.computes.unread sound unneeded found path reader.place reads
    obtain ⟨middle, relinks⟩ := relinkable.exists_relinks sound free
    exact ⟨middle, .linked relinkable free relinks, runnable.relinks relinks free,
      relinks.source?_eq⟩
  · refine ⟨graph, .left fun input' source' here => ?_, runnable, fun target => ?_⟩
    · obtain ⟨name, id, named', listed, rfl, -, reads⟩ := here
      rw [named, Option.some.injEq] at named'
      rw [← named', defines.listed, Option.some.injEq] at listed
      exact read (listed ▸ reads)
    · cases linked : graph.source? target with
      | none => rfl
      | some socket =>
        rw [Option.map_some, redirect_of_ne fun same => read ⟨target, linked.trans (congrArg _ same)⟩]

/-- Nothing reads the input of a definition once its readers read the definition. -/
theorem idle (defines : graph.Defines definition input output source) (sound : graph.Sound)
    (other : definition.IsOther definition.value)
    (linked : ∀ target,
      middle.source? target = (graph.source? target).map (redirect ⟨input, 0⟩ source)) :
    middle.Idle input := by
  intro target socket here same
  rw [linked] at here
  obtain ⟨old, reads, rfl⟩ := Option.map_eq_some_iff.1 here
  by_cases redirected : old = ⟨input, 0⟩
  · rw [redirected, redirect_self] at same
    obtain ⟨type, found⟩ := defines.inputNode
    exact defines.computes.ne_input other found same
  · rw [redirect_of_ne redirected] at same
    exact redirected (sound.eq_of_reads_input defines.listed reads same)

/-- What is left when the input and the output of a definition go has the definition inlined. -/
theorem inlines (defines : graph.Defines definition input output source) (sound : graph.Sound)
    (rewires : graph.Rewires middle)
    (linked : ∀ target,
      middle.source? target = (graph.source? target).map (redirect ⟨input, 0⟩ source))
    (idle : middle.Idle input) (removes : Removes middle between input)
    (idle' : between.Idle output) (removes' : Removes between after output) :
    graph.Inlines definition after input output source := by
  obtain ⟨-, source?, input?⟩ := removes.stays idle
  obtain ⟨-, source?', input?'⟩ := removes'.stays idle'
  obtain ⟨inputType, found⟩ := defines.inputNode
  obtain ⟨outputType, found'⟩ := defines.outputNode
  refine ⟨defines, fun id => ?_, fun id place apart apart' => ?_, fun name => ?_, ?_⟩
  · rw [removes'.node?, removes.node?, rewires.node?]
    simp only [eq_comm (a := id)]
    split_ifs <;> simp_all
  · rw [source?' id place (Ne.symm apart'), source? id place (Ne.symm apart), linked]
  · refine Option.ext fun id => ?_
    have kept : middle.input? name = graph.input? name := by
      unfold Graph.input?
      rw [rewires.inputs]
    rw [input?', input?, kept]
    split
    · rename_i defined
      rw [defined, defines.listed]
      refine iff_of_false ?_ nofun
      rintro ⟨⟨same, apart⟩, -⟩
      exact apart (Option.some.inj same).symm
    · rename_i other
      rw [and_assoc, and_iff_left_iff_imp]
      intro listed
      obtain ⟨node, port, here, op, named⟩ := sound.input?_spec listed
      constructor
      · rintro rfl
        rw [found, Option.some.injEq] at here
        subst here
        cases op
        exact other named.symm
      · rintro rfl
        rw [found', Option.some.injEq] at here
        subst here
        cases op
  · have apart : input ∉ graph.outputs := by
      intro mem
      obtain ⟨node, port, here, op⟩ := sound.outputNamed input mem
      rw [found, Option.some.injEq] at here
      subst here
      cases op
    have kept : (graph.outputs.filter fun port => port ≠ input) = graph.outputs :=
      List.filter_eq_self.2 fun id mem => by
        simpa using fun same : id = input => apart (same ▸ mem)
    rw [removes'.outputs, removes.outputs, rewires.outputs, kept]

/-- The readers of the input of a definition that does not use its name can come to read the
definition, and what is left without the input and the output of the name shows all other outputs. -/
theorem exists_inlines (defines : graph.Defines definition input output source)
    (runnable : graph.Runnable .empty) (apart : graph.OutputsApart)
    (unused : definition.value.Every definition.IsOther) :
    ∃ middle after, graph.RelinksOutput output middle ∧ middle.Runnable .empty ∧
      after.Runnable .empty ∧ graph.Inlines definition after input output source ∧
        ∀ setting supplied,
          middle.Serves setting supplied (fun name => decide (name ≠ definition.name)) after := by
  obtain ⟨middle, relinked, runs, linked⟩ := defines.exists_relinksOutput runnable fun v needed =>
    (unused.needs (Definition.isRootwise_isOther definition) needed).self v rfl
  obtain ⟨-, rewires⟩ := relinked.keeps runnable.sound
  obtain ⟨inputType, found⟩ := defines.inputNode
  obtain ⟨outputType, found'⟩ := defines.outputNode
  have distinct : input ≠ output := by
    rintro rfl
    rw [found] at found'
    cases found'
  have idle := defines.idle runnable.sound unused.self linked
  have here : middle.node? input = some (.newInput definition.name inputType) :=
    (rewires.node? input).trans found
  obtain ⟨between, removed⟩ := runs.sound.exists_removeNode here
  have removes := runs.sound.removeNode removed
  have here' : between.node? output = some (.newOutput definition.name outputType) := by
    rw [removes.node?, if_neg distinct, rewires.node?, found']
  have idle' := removes.sound.idle_newOutput here'
  obtain ⟨after, removed'⟩ := removes.sound.exists_removeNode here'
  have removes' := removes.sound.removeNode removed'
  refine ⟨middle, after, relinked, runs, (runs.removeNode removes).removeNode removes',
    defines.inlines runnable.sound rewires linked idle removes idle' removes',
    fun setting supplied => ?_⟩
  have early : middle.Serves setting supplied (fun _ => true) between :=
    serves_of_removes here idle removes nofun fun _ => ⟨_, rfl⟩
  have apart' := early.outputsApart (rewires.outputsApart apart)
  have late : between.Serves setting supplied (fun name => decide (name ≠ definition.name)) after := by
    refine serves_of_removes_unshown here' idle' removes' (fun port op _ => ?_)
      (fun other node port away shown => ?_) fun _ => ⟨_, rfl⟩
    · cases op
      exact decide_eq_false (not_not_intro rfl)
    · have here := shownOutput?_eq_some_iff.2 ⟨here', rfl, rfl⟩
      exact decide_eq_true fun same => away (apart' output other _ _ here shown same.symm)
  simpa only [Bool.true_and] using early.trans late

end Defines

/-- An output whose name is that of no input cannot be relinked. -/
theorem not_relinkable {id : Nat} {name : String} (named : Cleanup.portName? graph id = some name)
    (unlisted : graph.input? name = none) (input source : Socket) :
    ¬ graph.Relinkable id input source := by
  rintro ⟨name', id', named', listed, -⟩
  rw [named, Option.some.injEq] at named'
  rw [← named', unlisted] at listed
  cases listed

/-- Outputs that yield requests have their names. -/
theorem exists_named {requests : List Request} {outputs : List Nat}
    (yields : List.Forall₂ graph.Yields requests outputs) : ∀ id ∈ outputs,
      ∃ request ∈ requests, Cleanup.portName? graph id = some request.name := by
  induction yields with
  | nil => nofun
  | @cons request first _ _ head _ ih =>
    rw [List.forall_mem_cons]
    refine ⟨⟨request, by simp, ?_⟩, fun id mem => ?_⟩
    · unfold Cleanup.portName?
      rw [head.1]
      rfl
    · obtain ⟨other, mem, named⟩ := ih id mem
      exact ⟨other, List.mem_cons_of_mem _ mem, named⟩

section

variable {requests : Requests} {shows : String → Bool} {graph' last last' : Graph}
  {config : EvalConfig} {supplied : Assignment}

/-- What is left of a graph gives a value to every output that has been asked for and is shown. -/
theorem Realizes.exists_value (realizes : graph.Realizes requests)
    (distinct : (requests.outputs.map Request.name).Nodup) (leaves : graph.Leaves shows last)
    {request : Request} (mem : request ∈ requests.outputs) (shown : shows request.name = true)
    (given : ∀ name, (graph.input? name).isSome = true → supplied.contains name = true)
    {outputs : Assignment}
    (done : Shadeloom.evaluate last .empty config (last.accepted supplied) = .ok outputs) :
    ∃ value, outputs.get? request.name = some value := by
  have apart := realizes.outputsApart distinct
  have concur := (@Leaves.concur _ _ _ config supplied leaves realizes.runnable realizes.isWired
    apart given).symm
  rw [done] at concur
  obtain ⟨early, evaluated, same⟩ := concur.exists_of_ok
  obtain ⟨valuation, -, delivered⟩ := @IsWired.exists_valued (.outermost graph .empty config)
    supplied graph realizes.isWired realizes.runnable apart early evaluated
  obtain ⟨place, below, rfl⟩ := List.mem_iff_getElem.1 mem
  obtain ⟨length, yields⟩ := List.forall₂_iff_get.1 realizes.outputs
  obtain ⟨found, -⟩ := yields place below (length ▸ below)
  have here := shownOutput?_eq_some_iff.2 ⟨found, rfl, rfl⟩
  have value := (delivered requests.outputs[place].name _).2 ⟨_, Option.map_eq_some_iff.2 ⟨_, here, rfl⟩⟩
  exact ⟨_, (same _).trans (by rw [value, Option.filter_some, if_pos shown])⟩

variable {hidden : String} (realizes : after.Realizes requests) (realizes' : graph'.Realizes requests)
  (distinct : (requests.outputs.map Request.name).Nodup) (runnable : middle.Runnable .empty)
  (wired : middle.IsWired) (apart : middle.OutputsApart)
  (serves : ∀ setting supplied,
    middle.Serves setting supplied (fun name => decide (name ≠ hidden)) after)
  (leaves : middle.Leaves shows last) (leaves' : graph'.Leaves shows last')

include realizes realizes' distinct runnable wired apart serves leaves leaves'

/-- What is left of a graph and of one that holds what is asked for give the same to all outputs but
one, if the first graph without this output holds the same. -/
theorem Realizes.concur_shown
    (given : ∀ name, (middle.input? name).isSome = true → supplied.contains name = true) :
    Concur (fun outputs outputs' => ∀ name, name ≠ hidden → outputs.get? name = outputs'.get? name)
      (Shadeloom.evaluate last .empty config (last.accepted supplied))
      (Shadeloom.evaluate last' .empty config (last'.accepted supplied)) := by
  have between := serves (.outermost middle .empty config) supplied
  have given₁ (name : String) (listed : (after.input? name).isSome = true) :
      supplied.contains name = true := given name (between.inputs name listed)
  have mirrors := realizes.mirrors realizes'
  have given₂ (name : String) (listed : (graph'.input? name).isSome = true) :
      supplied.contains name = true := given₁ name ((mirrors.isSome_input?
        realizes.runnable.sound realizes'.runnable.sound name).trans listed)
  have apart' := realizes'.outputsApart distinct
  -- From what is left to the graph, to the one that holds the same, and to what is left of that.
  have across : Concur (fun outputs outputs' => ∀ name,
        outputs'.get? name = (outputs.get? name).filter fun _ => decide (name ≠ hidden))
      (Shadeloom.evaluate middle .empty config (middle.accepted supplied))
      (Shadeloom.evaluate graph' .empty config (graph'.accepted supplied)) :=
    (between.concur runnable wired realizes.runnable realizes.isWired apart given).trans
      (mirrors.concur realizes.runnable realizes'.runnable (between.outputsApart apart) apart' given₁)
      fun _ _ _ here there name => (there name).symm.trans (here name)
  have rest : Concur (fun outputs outputs' => ∀ name, name ≠ hidden →
        outputs'.get? name = (outputs.get? name).filter fun _ => shows name)
      (Shadeloom.evaluate middle .empty config (middle.accepted supplied))
      (Shadeloom.evaluate last' .empty config (last'.accepted supplied)) := by
    refine across.trans (leaves'.concur realizes'.runnable realizes'.isWired apart' given₂)
      fun _ _ _ here there name other => ?_
    rw [there, here]
    simp [other]
  exact (leaves.concur runnable wired apart given).symm.trans rest
    fun _ _ _ here there name other => (here name).trans (there name other).symm

/-- What is left of a graph and of one that holds what is asked for give the same to all outputs but
one, if without this output and the input of its name the first graph holds the same, whether the
input is given a value or not. -/
theorem Realizes.concur_hidden (unlisted : after.input? hidden = none)
    (given : ∀ name, name ≠ hidden → (middle.input? name).isSome = true →
      supplied.contains name = true)
    (strict : config.requireInputs = true → hidden ∈ last.exposedInputs.map Prod.fst →
      supplied.contains hidden = true) :
    Concur (fun outputs outputs' => ∀ name, name ≠ hidden → outputs.get? name = outputs'.get? name)
      (Shadeloom.evaluate last .empty config (last.accepted supplied))
      (Shadeloom.evaluate last' .empty config (last'.accepted supplied)) := by
  -- The input is given its default, which makes no difference to what is left of either graph.
  obtain ⟨more, known, same, alike⟩ := leaves.wired.exists_given supplied hidden
  have contains {name : String} (other : name ≠ hidden) :
      more.contains name = supplied.contains name := by
    rw [← Table.isSome_get?, ← Table.isSome_get?, same name other]
  have given₁ (name : String) (listed : (middle.input? name).isSome = true) :
      more.contains name = true := by
    by_cases equal : name = hidden
    · exact equal ▸ known
    · rw [contains equal]
      exact given name equal listed
  have listed {name : String} (here : (graph'.input? name).isSome = true) :
      (after.input? name).isSome = true := ((realizes.mirrors realizes').isSome_input?
    realizes.runnable.sound realizes'.runnable.sound name).trans here
  have given₂ (name : String) (here : (graph'.input? name).isSome = true) :
      more.contains name = true :=
    given₁ name ((serves (.outermost middle .empty config) more).inputs name (listed here))
  have early := leaves.serves (.outermost middle .empty config) more given₁
  have late := leaves'.serves (.outermost graph' .empty config) more given₂
  have other {name : String} (here : (last'.input? name).isSome = true) : name ≠ hidden := by
    rintro rfl
    have here := listed (late.inputs name here)
    rw [unlisted] at here
    cases here
  have first : Concur Assignment.Equal
      (Shadeloom.evaluate last .empty config (last.accepted supplied))
      (Shadeloom.evaluate last .empty config (last.accepted more)) := by
    refine @IsWired.concur_accepted (.outermost last .empty config) supplied last leaves.wired
      leaves.runnable (early.outputsApart apart) more alike fun required name mem => ?_
    have here := early.inputs name (isSome_input?_of_exposed mem)
    refine ⟨?_, given₁ name here⟩
    by_cases equal : name = hidden
    · exact equal ▸ strict required (equal ▸ mem)
    · exact given name equal here
  have second : Concur Assignment.Equal
      (Shadeloom.evaluate last' .empty config (last'.accepted more))
      (Shadeloom.evaluate last' .empty config (last'.accepted supplied)) := by
    refine @IsWired.concur_accepted (.outermost last' .empty config) more last' leaves'.wired
      leaves'.runnable (late.outputsApart (realizes'.outputsApart distinct)) supplied
      (fun id node port found op => ?_) fun required name mem => ?_
    · have here := leaves'.wired.input id node port found op
      rw [same port.name (other (here ▸ rfl))]
    · have here := isSome_input?_of_exposed mem
      have known := given₂ name (late.inputs name here)
      exact ⟨known, (contains (other here)).symm.trans known⟩
  exact (first.trans (realizes.concur_shown realizes' distinct runnable wired apart serves leaves
    leaves' given₁) fun _ _ _ here there name other => (here name).trans (there name other)).trans
      second fun _ _ _ here there name other => (here name other).trans (there name)

end

end Graph

namespace Cleanup

open Shadeloom.Graph

/-- A graph of which relinking makes something is cleaned up, and what is left is left of this. -/
theorem cleanUp_of_relinksAll {graph middle : Graph} (runnable : graph.Runnable .empty)
    (wired : graph.IsWired) (run : graph.RelinksAll graph.outputs middle)
    (declarations : Declarations) (options : BuildOptions) :
    ∃ last, ((cleanUp declarations options ⟨graph, .empty⟩).1.map fun _ =>
        (cleanUp declarations options ⟨graph, .empty⟩).2) = .ok ⟨last, .empty⟩ ∧
      middle.Leaves (fun name => !isHidden declarations.outputs name) last := by
  obtain ⟨total, graph', relinked, agrees⟩ :=
    @relinkOutputs_ok ⟨graph, .empty⟩ runnable.sound middle run
  obtain ⟨runs, rewires, -⟩ := rewires_of_relinkOutputs runnable relinked
  obtain ⟨last, done, leaves⟩ :=
    cleanUp_of_relinkOutputs runnable wired relinked declarations options
  have leaves := (agrees.leaves runs (rewires.isWired wired)).trans leaves
  simp only [Bool.true_and] at leaves
  exact ⟨last, done, leaves⟩

end Cleanup

/-- Whether two sites give an output the same value, or do not evaluate, however this is done, when
values are given for some names at least but for one, which has to be given only where it is asked
for. -/
def Site.GiveAlike (out hidden : String) (names : List String) (site site' : Site) : Prop :=
  ∀ config supplied, (∀ name ∈ names, name ≠ hidden → supplied.contains name = true) →
    (config.requireInputs = true → hidden ∈ site.graph.exposedInputs.map Prod.fst →
      supplied.contains hidden = true) →
    Concur (fun outputs outputs' =>
        ∃ value, outputs.get? out = some value ∧ outputs'.get? out = some value)
      (evaluate site.graph site.library config (site.graph.accepted supplied))
      (evaluate site'.graph site'.library config (site'.graph.accepted supplied))

namespace Cleanup

open Shadeloom.Graph

/-- A graph of a definition and of other outputs, and one of these with the definition inlined, are
cleaned up and give the same to every output that is shown. -/
theorem cleanUp_inlined {graph graph' : Graph} {definition : Definition} {type : SocketType}
    {others : List Request} {shownInputs shownOutputs : List String}
    (realizes : graph.Realizes ⟨definition.request type :: others, shownInputs, shownOutputs⟩)
    (realizes' : graph'.Realizes
      ⟨others.map definition.inlineRequest, shownInputs, shownOutputs⟩)
    (suits : definition.Suits others)
    (distinct : ((definition.request type :: others).map Request.name).Nodup) {used : List Variable}
    (among : ∀ request ∈ definition.request type :: others, request.tree.Every (IsAmong used))
    (unread : ∀ request ∈ others, ∀ v ∈ used, v.name ≠ request.name)
    (declarations declarations' : Declarations) (declared : declarations'.outputs = declarations.outputs)
    (options : BuildOptions) :
    ∃ site site',
      ((cleanUp declarations options ⟨graph, .empty⟩).1.map fun _ =>
        (cleanUp declarations options ⟨graph, .empty⟩).2) = .ok site ∧
      ((cleanUp declarations' options ⟨graph', .empty⟩).1.map fun _ =>
        (cleanUp declarations' options ⟨graph', .empty⟩).2) = .ok site' ∧
      ∀ request ∈ others, isHidden declarations.outputs request.name = false →
        Site.GiveAlike request.name definition.name (used.map Variable.name) site site' := by
  obtain ⟨request, mem, v, needs, same⟩ := suits.used
  obtain ⟨input, output, source, defines⟩ :=
    realizes.exists_defines ⟨request, List.mem_cons_of_mem _ mem, needs⟩ same
  have apart := realizes.outputsApart distinct
  obtain ⟨middle, after, relinked, runs, runs', inlines, serves⟩ :=
    defines.exists_inlines realizes.runnable apart suits.unused
  obtain ⟨-, rewires⟩ := relinked.keeps realizes.runnable.sound
  have held := realizes.inlined suits inlines runs'
  have kept (name : String) : middle.input? name = graph.input? name := by
    unfold Graph.input?
    rw [rewires.inputs]
  have mirrors := held.mirrors realizes'
  have listed (name : String) (here : (graph'.input? name).isSome = true) :
      name ≠ definition.name ∧ (graph.input? name).isSome = true := by
    rw [← mirrors.isSome_input? held.runnable.sound realizes'.runnable.sound, inlines.input?] at here
    split at here
    · cases here
    · rename_i other
      exact ⟨other, here⟩
  have known {name : String} (here : (graph.input? name).isSome = true) :
      name ∈ used.map Variable.name := by
    obtain ⟨v, mem, rfl⟩ := realizes.exists_used among here
    exact List.mem_map_of_mem mem
  have unlisted {request : Request} (mem : request ∈ others) : graph.input? request.name = none := by
    rw [← Option.not_isSome_iff_eq_none]
    intro here
    obtain ⟨v, used, same⟩ := List.mem_map.1 (known here)
    exact unread request mem v used same
  -- The other outputs are not relinked in either graph.
  have run : graph.RelinksAll graph.outputs middle := by
    have yields := realizes.outputs
    rw [← List.cons_head?_tail defines.first] at yields ⊢
    rw [List.forall₂_cons] at yields
    refine .cons relinked (relinksAll_self fun id mem => ?_)
    obtain ⟨request, mem, named⟩ := exists_named yields.2 id mem
    refine not_relinkable ?_ ((kept _).trans (unlisted mem))
    unfold portName? at named ⊢
    rwa [rewires.node?]
  have run' : graph'.RelinksAll graph'.outputs graph' := by
    refine relinksAll_self fun id mem => ?_
    obtain ⟨_, asked, named⟩ := exists_named realizes'.outputs id mem
    obtain ⟨request, known, rfl⟩ := List.mem_map.1 asked
    refine not_relinkable named (Option.not_isSome_iff_eq_none.1 fun here => ?_)
    have here : (graph.input? request.name).isSome = true := (listed _ here).2
    rw [unlisted known] at here
    cases here
  obtain ⟨last, done, leaves⟩ :=
    cleanUp_of_relinksAll realizes.runnable realizes.isWired run declarations options
  obtain ⟨last', done', leaves'⟩ :=
    cleanUp_of_relinksAll realizes'.runnable realizes'.isWired run' declarations' options
  rw [declared] at leaves'
  refine ⟨⟨last, .empty⟩, ⟨last', .empty⟩, done, done',
    fun request mem shown config supplied given strict => ?_⟩
  have names : (others.map definition.inlineRequest).map Request.name = others.map Request.name := by
    rw [List.map_map]
    rfl
  rw [List.map_cons, List.nodup_cons] at distinct
  have distinct' := names ▸ distinct.2
  have given' (name : String) (other : name ≠ definition.name)
      (here : (middle.input? name).isSome = true) : supplied.contains name = true :=
    given name (known (kept name ▸ here)) other
  have alike := held.concur_hidden realizes' distinct' runs (rewires.isWired realizes.isWired)
    (rewires.outputsApart apart) serves leaves leaves' ((inlines.input? _).trans (if_pos rfl)) given'
    strict
  have other : request.name ≠ definition.name :=
    fun same => distinct.1 (show definition.name ∈ _ from same ▸ List.mem_map_of_mem mem)
  refine (alike.and fun outputs' evaluated => realizes'.exists_value distinct' leaves'
    (List.mem_map_of_mem mem) (congrArg (!·) shown) (fun name here => ?_) evaluated).mono
      fun _ _ ⟨same, result, here⟩ => ⟨result, (same _ other).trans here, here⟩
  exact given name (known (listed name here).2) (listed name here).1

end Cleanup

/-- A statement that names its value is refused unless the value can be built. -/
theorem Requests.Step.lowerable_of_assign {before after : Requests} {target e : Expr}
    (step : before.Step (.binary .assign target e) after) : e.Lowerable := by
  cases step with
  | named _ lowerable => exact lowerable
  | bare bare _ => exact absurd rfl (bare.unnamed target e)

namespace Expr

variable {e : Expr}

/-- A statement that names its value is regular if the value is. -/
theorem every_isRegular_assign {zero : Float} {target : Expr} {name : String} {type : SocketType}
    (targeted : Builder.outputTarget target = .ok (name, type))
    (regular : e.Every (IsRegular zero)) : (binary .assign target e).Every (IsRegular zero) := by
  obtain ⟨v, rfl⟩ : ∃ v, target = .var v := by
    unfold Builder.outputTarget at targeted
    split at targeted
    · exact ⟨_, rfl⟩
    · exact ⟨_, rfl⟩
    · cases targeted
  have nameless := every_isNameless_assign v fun part mem => (regular part mem).2
  exact every_binary.2 ⟨⟨trivial, nameless.self⟩, every_var.2 ⟨trivial, nofun⟩, regular⟩

/-- A definition and a statement that uses it, and the statement with the definition inlined, are
built or refused alike, and what is built gives the statement's output the same value. Both zeros may
not be among the literals, as the inlined statement would be built with one in the place of both. -/
theorem build_inlined {zero : Float} {definition : Definition} {target target' : Expr} {out : String}
    {type type' : SocketType} (defines : Builder.outputTarget target = .ok (definition.name, type))
    (names : Builder.outputTarget target' = .ok (out, type'))
    (zeros : definition.value.Every (ZeroIs zero)) (zeros' : e.Every (ZeroIs zero))
    (unset : definition.value.Every IsUnset) (unset' : e.Every IsUnset)
    (single : ∀ lhs rhs, definition.value ≠ .binary .comma lhs rhs)
    (plain : Text.afterStart? Function.instanceMark definition.name = none)
    (used : ∃ v ∈ e.usedVariables, v.name = definition.name)
    (whole : ∀ v ∈ e.usedVariables, v.name = definition.name →
      v.fallback = none ∧ (v.subscript = none ∨ v.subscript = some ""))
    (apart : ∀ v ∈ definition.value.usedVariables, v.name ≠ definition.name ∧ v.name ≠ out)
    (apart' : ∀ v ∈ e.usedVariables, v.name ≠ out) (shown : out.toList.head? ≠ some '_')
    (options : BuildOptions) :
    Concur (Site.GiveAlike out definition.name
        ((definition.value.usedVariables ++ e.usedVariables).map Variable.name))
      ((binary .comma (.binary .assign target definition.value) (.binary .assign target' e)).build
        options)
      ((binary .assign target' (definition.inline e)).build options) := by
  have regular : definition.value.Every (IsRegular zero) := fun part mem =>
    ⟨zeros part mem, (unset part mem).isNameless⟩
  have regular' : e.Every (IsRegular zero) := fun part mem =>
    ⟨zeros' part mem, (unset' part mem).isNameless⟩
  have both : (binary .comma (.binary .assign target definition.value)
      (.binary .assign target' e)).Every (IsRegular zero) :=
    every_binary.2 ⟨⟨trivial, isNameless_comma _ _⟩, every_isRegular_assign defines regular,
      every_isRegular_assign names regular'⟩
  have inlined := every_isRegular_assign names
    (Definition.every_inline regular regular' fun _ => Definition.isRegular_inline)
  have whole' : e.Every definition.IsWhole := fun part mem v same =>
    whole v (e.every_isAmong part mem v same)
  have unused : definition.value.Every definition.IsOther := fun part mem v same =>
    (apart v (definition.value.every_isAmong part mem v same)).1
  have ungrouped : ∀ statement ∈ [binary .assign target definition.value, .binary .assign target' e],
      statement.IsUngrouped := by
    rintro statement (_ | ⟨_, _ | ⟨_, ⟨⟩⟩⟩)
    all_goals exact isUngrouped_assign _ _
  have ungrouped' : ∀ statement ∈ [binary .assign target' (definition.inline e)],
      statement.IsUngrouped := by
    rintro statement (_ | ⟨_, ⟨⟩⟩)
    exact isUngrouped_assign _ _
  by_cases buildable : definition.value.Lowerable ∧ e.Lowerable
  · obtain ⟨lowerable, lowerable'⟩ := buildable
    have run : Requests.none.Run [binary .assign target definition.value, .binary .assign target' e]
        ⟨[definition.request type, ⟨out, type', e⟩], [], []⟩ :=
      .cons (.named defines lowerable) (.cons (.named names lowerable') (.nil _))
    have run' : Requests.none.Run [binary .assign target' (definition.inline e)]
        ⟨[definition.inlineRequest ⟨out, type', e⟩], [], []⟩ :=
      .cons (.named names (Definition.lowerable_inline single lowerable unset' lowerable')) (.nil _)
    obtain ⟨graph, defaults, realizes, built⟩ := build_eq both ungrouped run options
    obtain ⟨graph', defaults', realizes', built'⟩ := build_eq inlined ungrouped' run' options
    obtain ⟨v, mem, same⟩ := used
    have distinct : definition.name ≠ out := same ▸ apart' v mem
    have among : ∀ request ∈ [definition.request type, ⟨out, type', e⟩], request.tree.Every
        (IsAmong (definition.value.usedVariables ++ e.usedVariables)) := by
      rintro request (_ | ⟨_, _ | ⟨_, ⟨⟩⟩⟩) part here w equal
      · exact List.mem_append_left _ (definition.value.every_isAmong part here w equal)
      · exact List.mem_append_right _ (e.every_isAmong part here w equal)
    have unread : ∀ w ∈ definition.value.usedVariables ++ e.usedVariables, w.name ≠ out := by
      intro w here
      rcases List.mem_append.1 here with here | here
      · exact (apart w here).2
      · exact apart' w here
    have suits : definition.Suits [⟨out, type', e⟩] :=
      ⟨single, lowerable.ne_empty, unused, unset, by simpa using unset', by simpa using whole',
        ⟨_, List.mem_singleton_self _, v, lowerable'.needs_var unset' mem, same⟩⟩
    obtain ⟨site, site', done, done', alike⟩ := @Cleanup.cleanUp_inlined graph graph' definition type
      [⟨out, type', e⟩] [] [] realizes realizes' suits
      (by simpa [Definition.request] using distinct) _ among (by simpa using unread) ⟨defaults, [], []⟩ ⟨defaults', [], []⟩ rfl options
    rw [built, built', done, done']
    refine .done (alike _ (List.mem_singleton_self _) ?_)
    unfold Cleanup.isHidden Scope.isDeclared
    simp [shown]
  · have refused (site : Site) : (binary .comma (.binary .assign target definition.value)
        (.binary .assign target' e)).build options ≠ .ok site := by
      intro built
      obtain ⟨requests, run⟩ := exists_run_of_build both ungrouped built
      obtain _ | ⟨step, _ | ⟨step', -⟩⟩ := run
      exact buildable ⟨step.lowerable_of_assign, step'.lowerable_of_assign⟩
    have refused' (site : Site) :
        (binary .assign target' (definition.inline e)).build options ≠ .ok site := by
      intro built
      obtain ⟨requests, run⟩ := exists_run_of_build inlined ungrouped' built
      obtain _ | ⟨step, -⟩ := run
      obtain ⟨lowerable', lowerable⟩ := Definition.lowerable_of_inline single unset' whole' plain
        step.lowerable_of_assign
      exact buildable ⟨lowerable used, lowerable'⟩
    apply Concur.of_forth_back
    · exact fun site built => absurd built (refused site)
    · exact fun site built => absurd built (refused' site)

/-- A name for a sum that is multiplied with itself, once as a vector, can be left out. -/
theorem build_inlined_sum :
    ∃ site site',
      (binary .comma (.binary .assign (.var (.plain "t")) sum) (.binary .assign (.var (.plain "y"))
        (.binary .mul (.var (.plain "t")) (.var ⟨"t", none, some ""⟩)))).build .standard = .ok site ∧
      (binary .assign (.var (.plain "y")) (.binary .mul sum sum)).build .standard = .ok site' ∧
      Site.GiveAlike "y" "t" ["x", "t", "t"] site site' := by
  have two : (value ⟨"2"⟩).ZeroIs 0.0 :=
    Literal.zeroIs_of_atom (show Source.isValueAtom "2".toList = true by decide +kernel)
  have zeros : sum.Every (ZeroIs 0.0) :=
    every_binary.2 ⟨trivial, every_var.2 trivial, every_value.2 two⟩
  have concur := @build_inlined (.binary .mul (.var (.plain "t")) (.var ⟨"t", none, some ""⟩)) 0.0
    ⟨"t", sum⟩ (.var (.plain "t")) (.var (.plain "y")) "y" .scalar .scalar rfl rfl zeros
    (every_binary.2 ⟨trivial, every_var.2 trivial, every_var.2 trivial⟩)
    (every_binary.2 ⟨isUnset_binary _ _ _, every_var.2 nofun, every_value.2 nofun⟩)
    (every_binary.2 ⟨isUnset_binary _ _ _, every_var.2 nofun, every_var.2 nofun⟩)
    nofun (by decide +kernel) (by decide +kernel) (by decide +kernel) (by decide +kernel)
    (by decide +kernel) (by decide) .standard
  obtain ⟨site', built'⟩ := exists_ok_of_isOk
    (show ((binary .assign (.var (.plain "y")) (.binary .mul sum sum)).build .standard).isOk = true
      by decide +kernel)
  obtain ⟨site, built, alike⟩ := (built' ▸ concur).symm.exists_of_ok
  exact ⟨site, site', built, built', alike⟩

/-- A statement that a name stands for zero, before one that gives an output a value. -/
def afterZero (e : Expr) : Expr :=
  .binary .comma (.binary .assign (.var (.plain "t")) (.value ⟨"0"⟩))
    (.binary .assign (.var (.plain "y")) e)

/-- The statement that gives the output the value, with zero in the place of the name. -/
def withZero (e : Expr) : Expr :=
  .binary .assign (.var (.plain "y")) ((⟨"t", .value ⟨"0"⟩⟩ : Definition).inline e)

/-- The name times the zero with a minus sign. -/
def zeroProduct : Expr :=
  .binary .mul (.var (.plain "t")) (.value ⟨"-0"⟩)

/-- The name plus the inverse of the zero with a minus sign. -/
def zeroInverse : Expr :=
  .binary .add (.var (.plain "t")) (.binary .pow (.value ⟨"-0"⟩) (.value ⟨"-1"⟩))

/-- The graph that is built for the inverse and the name. -/
def inverseAfterZero : Graph where
  name := "root"
  nodes := {
    cells := [some (.ofOp (.output ⟨"t", .scalar, true⟩)), some (.ofOp (.constant 0.0)),
      some (.ofOp (.output ⟨"y", .scalar, true⟩)),
      some ((Node.ofOp (.math .add)).setInputDefault 0 (.scalar 0.0)), none,
      some (((Node.ofOp (.math .power)).setInputDefault 0 (.scalar (-0.0))).setInputDefault 1
        (.scalar (-1.0))), none, none]
    freed := [7, 6, 4] }
  links := [⟨5, ⟨3, 0⟩, ⟨2, 0⟩⟩, ⟨4, ⟨5, 0⟩, ⟨3, 1⟩⟩, ⟨0, ⟨1, 0⟩, ⟨0, 0⟩⟩]
  linkNumbers := ⟨6, [3, 2, 1]⟩
  tangle := none
  inputs := .empty
  outputs := [0, 2]

/-- The graph that is built for the inverse without the name. -/
def inverseWithZero : Graph where
  name := "root"
  nodes := {
    cells := [some (.ofOp (.output ⟨"y", .scalar, true⟩)),
      some ((Node.ofOp (.math .add)).setInputDefault 0 (.scalar 0.0)), none,
      some (((Node.ofOp (.math .power)).setInputDefault 0 (.scalar 0.0)).setInputDefault 1
        (.scalar (-1.0))), none]
    freed := [4, 2] }
  links := [⟨4, ⟨1, 0⟩, ⟨0, 0⟩⟩, ⟨3, ⟨3, 0⟩, ⟨1, 1⟩⟩]
  linkNumbers := ⟨5, [2, 0, 1]⟩
  tangle := none
  inputs := .empty
  outputs := [0]

/-- Sites that give an output the same value do so where no values are given. -/
theorem exists_value_of_giveAlike {site site' : Site} {outputs outputs' : Assignment}
    (alike : Site.GiveAlike "y" "t" ["t"] site site')
    (first : evaluate site.graph site.library .standard (site.graph.accepted .empty) = .ok outputs)
    (second : evaluate site'.graph site'.library .standard (site'.graph.accepted .empty) =
      .ok outputs') :
    ∃ value, outputs.get? "y" = some value ∧ outputs'.get? "y" = some value := by
  have concur := alike .standard .empty (by simp) nofun
  rw [first, second] at concur
  cases concur with
  | done same => exact same

/-- What the inverse and the name evaluate to. -/
theorem evaluate_inverseAfterZero : evaluate inverseAfterZero .empty .standard .empty =
    .ok (.ofList [("y", .scalar (0.0 + Float.pow (-0.0) (-1.0))), ("t", .scalar 0.0)]) := by
  have order : Machine.prepare (.outermost inverseAfterZero .empty .standard) .empty =
      .ok [5, 3, 2, 1, 0] := by decide +kernel
  unfold evaluate Setting.evaluate Machine.start
  rw [order]
  with_unfolding_all rfl

/-- What the inverse without the name evaluates to. -/
theorem evaluate_inverseWithZero : evaluate inverseWithZero .empty .standard .empty =
    .ok (.ofList [("y", .scalar (0.0 + Float.pow 0.0 (-1.0)))]) := by
  have order : Machine.prepare (.outermost inverseWithZero .empty .standard) .empty =
      .ok [3, 1, 0] := by decide +kernel
  unfold evaluate Setting.evaluate Machine.start
  rw [order]
  with_unfolding_all rfl

/-- A name for zero cannot be left out where the literal of the other zero is used as well: of a
product the sign changes, and an inverse stays the same only if those of the two zeros are the same,
which are infinite with different signs. -/
theorem build_inlined_zeros :
    (∃ site site', zeroProduct.afterZero.build .standard = .ok site ∧
      zeroProduct.withZero.build .standard = .ok site' ∧
        ¬ Site.GiveAlike "y" "t" ["t"] site site') ∧
      ∃ site site', zeroInverse.afterZero.build .standard = .ok site ∧
        zeroInverse.withZero.build .standard = .ok site' ∧
          (Site.GiveAlike "y" "t" ["t"] site site' →
            (0.0 + Float.pow (-0.0) (-1.0) : Float) = 0.0 + Float.pow 0.0 (-1.0)) := by
  constructor
  · have after : (zeroProduct.afterZero.build .standard).map (fun site =>
        evaluate site.graph site.library .standard (site.graph.accepted .empty)) =
          .ok (.ok (.ofList [("y", .scalar (-0.0)), ("t", .scalar 0.0)])) := by decide +kernel
    have inlined : (zeroProduct.withZero.build .standard).map (fun site =>
        evaluate site.graph site.library .standard (site.graph.accepted .empty)) =
          .ok (.ok (.ofList [("y", .scalar 0.0)])) := by decide +kernel
    obtain ⟨site, built, first⟩ := map_eq_ok_iff.1 after
    obtain ⟨site', built', second⟩ := map_eq_ok_iff.1 inlined
    refine ⟨site, site', built, built', fun alike => ?_⟩
    obtain ⟨value, here, there⟩ := exists_value_of_giveAlike alike first second
    have apart : (Table.ofList [("y", Value.scalar (-0.0)), ("t", .scalar 0.0)]).get? "y" ≠
        (Table.ofList [("y", Value.scalar 0.0)]).get? "y" := by decide +kernel
    exact apart (here.trans there.symm)
  · have after : (zeroInverse.afterZero.build .standard).map (fun site =>
        (site.graph, site.library)) = .ok (inverseAfterZero, .empty) := by decide +kernel
    have inlined : (zeroInverse.withZero.build .standard).map (fun site =>
        (site.graph, site.library)) = .ok (inverseWithZero, .empty) := by decide +kernel
    obtain ⟨⟨_, _⟩, built, same⟩ := map_eq_ok_iff.1 after
    obtain ⟨⟨_, _⟩, built', same'⟩ := map_eq_ok_iff.1 inlined
    cases same
    cases same'
    refine ⟨_, _, built, built', fun alike => ?_⟩
    obtain ⟨value, here, there⟩ :=
      exists_value_of_giveAlike alike evaluate_inverseAfterZero evaluate_inverseWithZero
    have values : some (Value.scalar (0.0 + Float.pow (-0.0) (-1.0))) =
        some (.scalar (0.0 + Float.pow 0.0 (-1.0))) := here.trans there.symm
    exact Value.scalar.inj (Option.some.inj values)

end Expr

end Shadeloom
