import Mathlib
import Shadeloom.Proofs.Build.Closing
import Shadeloom.Proofs.Graph.Mirror
/-!
# Relinking graphs that mirror each other

Of graphs that mirror each other either both are refused when their outputs are relinked, or neither
is, and then they still mirror each other: a socket is relinked in one exactly when the related one
is in the other, and a cycle in one is a cycle in the other.
-/
namespace Shadeloom

open Relation

namespace Graph

variable {related : Nat → Nat → Prop} {graph graph' after after' : Graph}

/-- Sockets that are related to the same listed input are the same. -/
theorem Mirrors.eq_of_input (mirrors : Mirrors related graph graph') {name : String} {id id' : Nat}
    (listed : graph.input? name = some id) (listed' : graph'.input? name = some id')
    {source : Socket} (same : SocketsRelated related ⟨id, 0⟩ source) : source = ⟨id', 0⟩ := by
  have here := (mirrors.inputs id source.node name same.2).1 listed
  rw [listed', Option.some.injEq] at here
  rw [Socket.eq_iff]
  exact ⟨here.symm, same.1.symm⟩

/-- Letting the readers of related inputs read related sockets keeps graphs mirrored. -/
theorem Mirrors.relinks (mirrors : Mirrors related graph graph') {name : String} {id id' : Nat}
    (listed : graph.input? name = some id) (listed' : graph'.input? name = some id')
    {source source' : Socket} (rel : SocketsRelated related source source')
    (relinks : graph.Relinks after ⟨id, 0⟩ source) (relinks' : graph'.Relinks after' ⟨id', 0⟩ source') :
    Mirrors related after after' where
  node? a b here := by
    obtain ⟨node, found, found'⟩ := mirrors.node? a b here
    exact ⟨node, (relinks.node? a).trans found, (relinks'.node? b).trans found'⟩
  source? a b here place := by
    rw [relinks.source?, relinks'.source?]
    have linked := mirrors.source? a b here place
    generalize graph.source? ⟨a, place⟩ = found at linked ⊢
    generalize graph'.source? ⟨b, place⟩ = found' at linked ⊢
    cases linked with
    | none => exact .none
    | @some reads reads' same =>
      have agree : reads = ⟨id, 0⟩ ↔ reads' = ⟨id', 0⟩ := by
        constructor
        · rintro rfl
          exact mirrors.eq_of_input listed listed' same
        · rintro rfl
          exact mirrors.symm.eq_of_input listed' listed ⟨same.1.symm, same.2⟩
      by_cases input : reads = ⟨id, 0⟩
      · rw [if_pos (congrArg some input), if_pos (congrArg some (agree.1 input))]
        exact .some rel
      · rw [if_neg fun same => input (Option.some.inj same),
          if_neg fun same => input (agree.2 (Option.some.inj same))]
        exact .some same
  left a here := mirrors.left a (by rwa [relinks.node?] at here)
  right b here := mirrors.right b (by rwa [relinks'.node?] at here)
  inputs a b name here := by
    have agree := mirrors.inputs a b name here
    unfold input? at agree ⊢
    rw [relinks.inputs, relinks'.inputs]
    exact agree
  outputs := by
    rw [relinks.outputs, relinks'.outputs]
    exact mirrors.outputs

/-- What can be relinked for an output can be relinked for a related one. -/
theorem Mirrors.relinkable (mirrors : Mirrors related graph graph') (sound : graph.Sound)
    {output output' : Nat} (rel : related output output') {input source : Socket}
    (relinkable : graph.Relinkable output input source) :
    ∃ name id id' source', input = ⟨id, 0⟩ ∧ graph.input? name = some id ∧
      graph'.input? name = some id' ∧ SocketsRelated related source source' ∧
      graph'.Relinkable output' ⟨id', 0⟩ source' := by
  obtain ⟨name, id, named, listed, rfl, linked, reader, reads⟩ := relinkable
  obtain ⟨node, found, found'⟩ := mirrors.node? output output' rel
  obtain ⟨source', linked', same⟩ := mirrors.exists_source rel linked
  obtain ⟨input, port, here, -⟩ := sound.input?_spec listed
  obtain ⟨id', rel'⟩ := mirrors.left id (Option.isSome_iff_exists.2 ⟨input, here⟩)
  have listed' := (mirrors.inputs id id' name rel').1 listed
  obtain ⟨reader', there⟩ := mirrors.left reader.node
    (sound.isSome_of_leads (leads_of_source? reads)).2
  obtain ⟨input', reads', same'⟩ := mirrors.exists_source there reads
  rw [mirrors.eq_of_input listed listed' same'] at reads'
  refine ⟨name, id, id', source', rfl, listed, listed', same, name, id', ?_, listed', rfl, linked',
    _, reads'⟩
  unfold Cleanup.portName? at named ⊢
  rw [found] at named
  rw [found']
  exact named

/-- An entangled socket is entangled in a graph that mirrors it. -/
theorem Mirrors.entangled (mirrors : Mirrors related graph graph') {name : String} {id id' : Nat}
    (listed : graph.input? name = some id) (listed' : graph'.input? name = some id')
    {source source' : Socket} (rel : SocketsRelated related source source')
    (entangled : graph.Entangled ⟨id, 0⟩ source) : graph'.Entangled ⟨id', 0⟩ source' := by
  rcases entangled with same | ⟨reader, reads, path⟩
  · have here := (mirrors.inputs source.node source'.node name rel.2).1 (same ▸ listed)
    rw [listed', Option.some.injEq] at here
    exact .inl here.symm
  · obtain ⟨reader', there, path'⟩ := mirrors.exists_path rel.2 path
    obtain ⟨input', reads', same⟩ := mirrors.exists_source there reads
    rw [mirrors.eq_of_input listed listed' same] at reads'
    exact .inr ⟨_, reads', path'⟩

/-- What relinking outputs keeps of a graph: its nodes, its ports and which sockets are linked. -/
structure Rewires (before after : Graph) : Prop where
  node? : ∀ id, after.node? id = before.node? id
  linked : ∀ target, (after.source? target).isSome = (before.source? target).isSome
  inputs : after.inputs = before.inputs
  outputs : after.outputs = before.outputs

/-- A graph has been rewired into itself. -/
theorem Rewires.refl (graph : Graph) : Rewires graph graph :=
  ⟨fun _ => rfl, fun _ => rfl, rfl, rfl⟩

/-- Relinking rewires a graph. -/
theorem Relinks.rewires {before : Graph} {input source : Socket}
    (relinks : Relinks before after input source) : Rewires before after where
  node? := relinks.node?
  linked target := by
    rw [relinks.source?]
    split
    · rename_i reads
      rw [reads]
      rfl
    · rfl
  inputs := relinks.inputs
  outputs := relinks.outputs

/-- A graph that is rewired twice is rewired. -/
theorem Rewires.trans {first second third : Graph} (early : Rewires first second)
    (late : Rewires second third) : Rewires first third where
  node? id := (late.node? id).trans (early.node? id)
  linked target := (late.linked target).trans (early.linked target)
  inputs := late.inputs.trans early.inputs
  outputs := late.outputs.trans early.outputs

end Graph

namespace Cleanup

variable {α β : Type}

/-- Whether a step is refused. -/
def Refuses (step : Cleanup α) (site : Site) : Prop :=
  ∃ error after, step site = .error error after

/-- A step after a refused one is refused. -/
theorem Refuses.bind {first : Cleanup α} {site : Site} (refuses : Refuses first site)
    (next : α → Cleanup β) : Refuses (first >>= next) site := by
  obtain ⟨error, after, stopped⟩ := refuses
  refine ⟨error, after, ?_⟩
  show EStateM.bind first next site = _
  unfold EStateM.bind
  rw [stopped]

/-- A refused step after another one is refused. -/
theorem Refuses.after {first : Cleanup α} {site between : Site} {a : α}
    (done : first site = .ok a between) {next : α → Cleanup β} (refuses : Refuses (next a) between) :
    Refuses (first >>= next) site := by
  obtain ⟨error, after, stopped⟩ := refuses
  refine ⟨error, after, ?_⟩
  show EStateM.bind first next site = _
  unfold EStateM.bind
  rw [done]
  exact stopped

/-- What a step does at two graphs that mirror each other: it is refused at both, or it rewires both
so that they still mirror each other. -/
inductive Lockstep (related : Nat → Nat → Prop) (step step' : Cleanup α) (site site' : Site) : Prop
  | refused (left : Refuses step site) (right : Refuses step' site')
  | done {a a' : α} {graph graph' : Graph} (left : step site = .ok a { site with graph })
    (right : step' site' = .ok a' { site' with graph := graph' })
    (mirrors : graph.Mirrors related graph') (runnable : graph.Runnable site.library)
    (runnable' : graph'.Runnable site'.library) (rewires : site.graph.Rewires graph)
    (rewires' : site'.graph.Rewires graph')

section

variable {related : Nat → Nat → Prop} {site site' : Site}

/-- Relinking related outputs keeps graphs mirrored or is refused for both. -/
theorem relinkOutput_lockstep (mirrors : site.graph.Mirrors related site'.graph)
    (runnable : site.graph.Runnable site.library) (runnable' : site'.graph.Runnable site'.library)
    {output output' : Nat} (rel : related output output') :
    Lockstep related (relinkOutput output) (relinkOutput output') site site' := by
  have sound := runnable.sound
  have sound' := runnable'.sound
  by_cases relinkable : ∃ input source, site.graph.Relinkable output input source
  · obtain ⟨input, source, relinkable⟩ := relinkable
    obtain ⟨name, id, id', source', rfl, listed, listed', same, relinkable'⟩ :=
      mirrors.relinkable sound rel relinkable
    have back : Graph.SocketsRelated (fun b a => related a b) source' source :=
      ⟨same.1.symm, same.2⟩
    have left := relinkOutput_of_relinkable sound relinkable
    have right := relinkOutput_of_relinkable sound' relinkable'
    rcases left with ⟨entangled, _, -, stopped⟩ | ⟨free, graph, done, relinks⟩
    · rcases right with ⟨-, _, -, stopped'⟩ | ⟨free', -⟩
      · exact .refused ⟨_, site, stopped⟩ ⟨_, site', stopped'⟩
      · exact absurd (mirrors.entangled listed listed' same entangled) free'
    · rcases right with ⟨entangled', -⟩ | ⟨free', graph', done', relinks'⟩
      · exact absurd (mirrors.symm.entangled listed' listed back entangled') free
      · exact .done done done' (mirrors.relinks listed listed' same relinks relinks')
          (runnable.relinks relinks free) (runnable'.relinks relinks' free') relinks.rewires
          relinks'.rewires
  · have nothing : ∀ input source, ¬ site.graph.Relinkable output input source :=
      fun input source here => relinkable ⟨input, source, here⟩
    have nothing' : ∀ input source, ¬ site'.graph.Relinkable output' input source := by
      intro input source here
      obtain ⟨_, _, _, _, _, _, _, _, there⟩ := mirrors.symm.relinkable sound' rel here
      exact nothing _ _ there
    exact .done (relinkOutput_of_not_relinkable sound nothing)
      (relinkOutput_of_not_relinkable sound' nothing') mirrors runnable runnable' (.refl _) (.refl _)

/-- Relinking all outputs keeps graphs mirrored or is refused for both. -/
theorem relinkOutputs_lockstep (mirrors : site.graph.Mirrors related site'.graph)
    (runnable : site.graph.Runnable site.library) (runnable' : site'.graph.Runnable site'.library) :
    Lockstep related relinkOutputs relinkOutputs site site' := by
  have each (ids ids' : List Nat) (rel : List.Forall₂ related ids ids') (site site' : Site)
      (mirrors : site.graph.Mirrors related site'.graph)
      (runnable : site.graph.Runnable site.library)
      (runnable' : site'.graph.Runnable site'.library) (sum sum' : Nat) :
      Lockstep related
        (ids.foldlM (fun total id => do return if ← relinkOutput id then total + 1 else total) sum)
        (ids'.foldlM (fun total id => do return if ← relinkOutput id then total + 1 else total) sum')
        site site' := by
    induction rel generalizing site site' sum sum' with
    | nil => exact .done rfl rfl mirrors runnable runnable' (.refl _) (.refl _)
    | cons head tail ih =>
      rw [List.foldlM_cons, List.foldlM_cons]
      cases relinkOutput_lockstep mirrors runnable runnable' head with
      | refused left right => exact .refused ((left.bind _).bind _) ((right.bind _).bind _)
      | @done changed changed' graph graph' left right mirrors runnable runnable' rewires rewires' =>
        have first : (do return if ← relinkOutput _ then sum + 1 else sum : Cleanup Nat) site =
            .ok (if changed then sum + 1 else sum) { site with graph } :=
          bind_eq_ok_iff.2 ⟨_, _, left, rfl⟩
        have first' : (do return if ← relinkOutput _ then sum' + 1 else sum' : Cleanup Nat) site' =
            .ok (if changed' then sum' + 1 else sum') { site' with graph := graph' } :=
          bind_eq_ok_iff.2 ⟨_, _, right, rfl⟩
        cases ih { site with graph } { site' with graph := graph' } mirrors runnable runnable'
            (if changed then sum + 1 else sum) (if changed' then sum' + 1 else sum') with
        | refused left right => exact .refused (.after first left) (.after first' right)
        | done left right mirrors runnable runnable' more more' =>
          exact .done (bind_eq_ok_iff.2 ⟨_, _, first, left⟩) (bind_eq_ok_iff.2 ⟨_, _, first', right⟩)
            mirrors runnable runnable' (rewires.trans more) (rewires'.trans more')
  have all := each site.graph.outputs site'.graph.outputs mirrors.outputs site site' mirrors runnable
    runnable' 0 0
  cases all with
  | refused left right => exact .refused (.after rfl left) (.after rfl right)
  | done left right mirrors runnable runnable' rewires rewires' =>
    exact .done (bind_eq_ok_iff.2 ⟨_, _, rfl, left⟩) (bind_eq_ok_iff.2 ⟨_, _, rfl, right⟩) mirrors
      runnable runnable' rewires rewires'

end

end Cleanup

end Shadeloom
