import Mathlib
import Shadeloom.Proofs.Build.Mirroring
/-!
# Relinking outputs in any order

Outputs are relinked one after the other, and each of them finds what those before it have left.
Still the order does not matter. Where two outputs are relinked one after the other, the other way
around is refused as well or links the same sockets: a definition that is the input of another one
is followed in both orders, and definitions that lead around in a circle are refused in both.
-/
namespace Shadeloom

open Relation

namespace Graph

variable {graph graph' graph'' after after' : Graph} {input input' source source' : Socket}
  {output : Nat}

/-- Whether graphs have the same nodes, the same links between them and the same inputs. -/
structure Agrees (graph graph' : Graph) : Prop where
  node? : ∀ id, graph'.node? id = graph.node? id
  source? : ∀ target, graph'.source? target = graph.source? target
  input? : ∀ name, graph'.input? name = graph.input? name

/-- A graph agrees with itself. -/
theorem Agrees.refl (graph : Graph) : graph.Agrees graph :=
  ⟨fun _ => rfl, fun _ => rfl, fun _ => rfl⟩

/-- Graphs agree the other way around. -/
theorem Agrees.symm (agrees : graph.Agrees graph') : graph'.Agrees graph :=
  ⟨fun id => (agrees.node? id).symm, fun target => (agrees.source? target).symm,
    fun name => (agrees.input? name).symm⟩

/-- Graphs that agree with a graph between them agree. -/
theorem Agrees.trans (early : graph.Agrees graph') (late : graph'.Agrees graph'') :
    graph.Agrees graph'' :=
  ⟨fun id => (late.node? id).trans (early.node? id),
    fun target => (late.source? target).trans (early.source? target),
    fun name => (late.input? name).trans (early.input? name)⟩

/-- The same nodes lead to each other in graphs that agree. -/
theorem Agrees.leads (agrees : graph.Agrees graph') : graph'.Leads = graph.Leads := by
  unfold Leads
  simp only [agrees.source?]

/-- The same ports have names in graphs that agree. -/
theorem Agrees.portName? (agrees : graph.Agrees graph') (id : Nat) :
    Cleanup.portName? graph' id = Cleanup.portName? graph id := by
  unfold Cleanup.portName?
  rw [agrees.node?]

/-- The same outputs can be relinked in graphs that agree. -/
theorem Agrees.relinkable (agrees : graph.Agrees graph') :
    graph'.Relinkable output input source ↔ graph.Relinkable output input source := by
  unfold Relinkable
  simp only [agrees.portName?, agrees.source?, agrees.input?]

/-- The same sockets are entangled in graphs that agree. -/
theorem Agrees.entangled (agrees : graph.Agrees graph') :
    graph'.Entangled input source ↔ graph.Entangled input source := by
  unfold Entangled
  simp only [agrees.source?, agrees.leads]

/-- Graphs that agree do so after the same readers have come to read the same socket. -/
theorem Agrees.relinks (agrees : graph.Agrees graph') (relinks : graph.Relinks after input source)
    (relinks' : graph'.Relinks after' input source) : after.Agrees after' where
  node? id := by rw [relinks.node?, relinks'.node?, agrees.node?]
  source? target := by rw [relinks.source?, relinks'.source?, agrees.source?]
  input? name := by
    have same := agrees.input? name
    unfold Graph.input? at same ⊢
    rw [relinks.inputs, relinks'.inputs, same]

/-- The socket that readers of a socket read once those of an input read a source. -/
def redirect (input source socket : Socket) : Socket :=
  if socket = input then source else socket

/-- Readers of the input come to read the source. -/
@[simp] theorem redirect_self (input source : Socket) : redirect input source input = source :=
  if_pos rfl

/-- Readers of other sockets still read these. -/
theorem redirect_of_ne {socket : Socket} (other : socket ≠ input) :
    redirect input source socket = socket :=
  if_neg other

/-- Readers of sockets of other nodes still read these. -/
theorem redirect_of_node_ne {socket : Socket} (other : socket.node ≠ input.node) :
    redirect input source socket = socket :=
  redirect_of_ne fun same => other (congrArg Socket.node same)

/-- What is linked after the readers of an input have come to read a source. -/
theorem Relinks.source?_eq (relinks : graph.Relinks after input source) (target : Socket) :
    after.source? target = (graph.source? target).map (redirect input source) := by
  rw [relinks.source?]
  cases graph.source? target with
  | none => rfl
  | some socket =>
    rw [Option.map_some]
    by_cases same : socket = input
    · rw [same, if_pos rfl, redirect_self]
    · rw [redirect_of_ne same, if_neg fun equal => same (Option.some.inj equal)]

/-- Two inputs are redirected to the same in both orders, unless each is what the other one is to
be redirected to. -/
theorem redirect_comm (apart : input ≠ input') (open_ : ¬ (source = input' ∧ source' = input))
    (socket : Socket) :
    redirect input' (redirect input source source') (redirect input source socket) =
      redirect input (redirect input' source' source) (redirect input' source' socket) := by
  unfold redirect
  split_ifs <;> simp_all

/-- A path that starts elsewhere does not lead to a node that nothing enters. -/
theorem ne_of_path {id a b : Nat} (root : ∀ place, graph.source? ⟨id, place⟩ = none) (away : a ≠ id)
    (path : ReflTransGen graph.Leads a b) : b ≠ id := by
  rcases path.cases_tail with rfl | ⟨last, -, sender, receiver, linked, -, rfl⟩
  · exact away
  · rintro rfl
    have none := root receiver.place
    exact absurd linked (by simp [none])

/-- A path that starts elsewhere than at an input is left when the readers of the input read a
source. -/
theorem Relinks.path (relinks : graph.Relinks after input source)
    (root : ∀ place, graph.source? ⟨input.node, place⟩ = none) {a b : Nat} (away : a ≠ input.node)
    (path : ReflTransGen graph.Leads a b) : ReflTransGen after.Leads a b := by
  induction path with
  | refl => exact .refl
  | @tail b c before leads ih =>
    obtain ⟨sender, receiver, linked, rfl, rfl⟩ := leads
    refine ih.tail (leads_of_source? ?_)
    have other : sender ≠ input := by
      rintro rfl
      exact ne_of_path root away before rfl
    rw [relinks.source?_eq, linked, Option.map_some, redirect_of_ne other]

/-- A socket that is linked does not belong to a node that nothing enters. -/
theorem ne_of_reads {id : Nat} (root : ∀ place, graph.source? ⟨id, place⟩ = none) {reader : Socket}
    (reads : graph.source? reader = some source) : reader.node ≠ id := by
  rintro rfl
  have none := root reader.place
  exact absurd reads (by simp [none])

section

variable (root : ∀ place, graph.source? ⟨input.node, place⟩ = none)
  (apart : input.node ≠ input'.node)

include root apart

/-- Readers that lead to what they are to read do so as well after those of another input have come
to read a source. -/
theorem Entangled.relinks (relinks : graph.Relinks after input source)
    (entangled : graph.Entangled input' source') :
    after.Entangled input' (redirect input source source') := by
  rcases entangled with same | ⟨reader, reads, path⟩
  · rw [redirect_of_node_ne (same ▸ apart.symm)]
    exact .inl same
  · have away := ne_of_reads root reads
    rw [redirect_of_node_ne (ne_of_path root away path)]
    refine .inr ⟨reader, ?_, relinks.path root away path⟩
    rw [relinks.source?_eq, reads, Option.map_some, redirect_of_node_ne apart.symm]

/-- Where readers of an input lead to what they are to read once those of another input have come to
read a source, they do without that, or those of the other input do, before or after. -/
theorem Entangled.of_relinks (alone : source'.node = input.node → source' = input)
    (relinks : graph.Relinks after input source) (relinks' : graph.Relinks after' input' source')
    (entangled : after'.Entangled input (redirect input' source' source)) :
    graph.Entangled input source ∨ graph.Entangled input' source' ∨
      after.Entangled input' (redirect input source source') := by
  have unread {reader : Socket} (reads : graph.source? reader = some input') :
      after.source? reader = some input' := by
    rw [relinks.source?_eq, reads, Option.map_some, redirect_of_node_ne apart.symm]
  have reread {reader : Socket} (reads : graph.source? reader = some input) :
      after.source? reader = some source := by
    rw [relinks.source?_eq, reads, Option.map_some, redirect_self]
  have kept {a : Nat} (away : a ≠ input.node) (path : ReflTransGen graph.Leads a source'.node) :
      redirect input source source' = source' :=
    redirect_of_node_ne (ne_of_path root away path)
  -- A reader of the input reads it from the start, or is a reader of the other input.
  have readers {reader : Socket} (reads : after'.source? reader = some input) :
      graph.source? reader = some input ∨ graph.source? reader = some input' ∧ source' = input := by
    rw [relinks'.source?] at reads
    split at reads
    · rename_i here
      exact .inr ⟨here, Option.some.inj reads⟩
    · exact .inl reads
  have paths {a b : Nat} (path : ReflTransGen after'.Leads a b) :=
    path_of_new_edges source'.node
      (fun b => ∃ reader, graph.source? reader = some input' ∧ reader.node = b)
      (fun _ _ => relinks'.leads) path
  by_cases crossed : source = input'
  · have same : redirect input' source' source = source' := if_pos crossed
    rw [same] at entangled
    rcases entangled with same | ⟨reader, reads, path⟩
    · refine .inr (.inr (.inl ?_))
      rw [alone same, redirect_self, crossed]
    · rcases paths path with old | ⟨-, _, ⟨other, reads', rfl⟩, last⟩
      · rcases readers reads with here | ⟨here, same⟩
        · have away := ne_of_reads root here
          rw [kept away old]
          exact .inr (.inr (.inr ⟨reader, crossed ▸ reread here, relinks.path root away old⟩))
        · exact absurd (congrArg Socket.node same) (ne_of_path root (ne_of_reads root here) old)
      · exact .inr (.inl (.inr ⟨other, reads', last⟩))
  · have same : redirect input' source' source = source := if_neg crossed
    rw [same] at entangled
    rcases entangled with same | ⟨reader, reads, path⟩
    · exact .inl (.inl same)
    · rcases paths path with old | ⟨first, _, ⟨other, reads', rfl⟩, last⟩
      · rcases readers reads with here | ⟨here, same⟩
        · exact .inl (.inr ⟨reader, here, old⟩)
        · refine .inr (.inr (.inr ⟨reader, unread here, ?_⟩))
          rw [same, redirect_self]
          exact relinks.path root (ne_of_reads root here) old
      · rcases readers reads with here | ⟨here, same⟩
        · have away := ne_of_reads root here
          rw [kept away first]
          refine .inr (.inr (.inr ⟨other, unread reads', ?_⟩))
          exact ((relinks.path root (ne_of_reads root reads') last).tail
            (leads_of_source? (reread here))).trans (relinks.path root away first)
        · exact absurd (congrArg Socket.node same) (ne_of_path root (ne_of_reads root here) first)

end

/-- What an output can be relinked to is the only thing that it can be relinked to. -/
theorem Relinkable.unique (first : graph.Relinkable output input source)
    (second : graph.Relinkable output input' source') : input' = input ∧ source' = source := by
  obtain ⟨name, id, named, listed, rfl, linked, -⟩ := first
  obtain ⟨name', id', named', listed', rfl, linked', -⟩ := second
  rw [named, Option.some.injEq] at named'
  rw [← named', listed, Option.some.injEq] at listed'
  rw [linked, Option.some.injEq] at linked'
  exact ⟨by rw [listed'], linked'.symm⟩

/-- An input is read at one socket. -/
theorem Sound.eq_of_reads_input (sound : graph.Sound) {name : String} {id : Nat}
    (listed : graph.input? name = some id) {target socket : Socket}
    (linked : graph.source? target = some socket) (same : socket.node = id) : socket = ⟨id, 0⟩ := by
  obtain ⟨node, port, found, op, -⟩ := sound.input?_spec listed
  obtain ⟨sender, here, below⟩ := sound.hasOutput linked
  rw [same, found, Option.some.injEq] at here
  rw [← here, (sound.inputShaped id node port found op).outputs] at below
  rw [Socket.eq_iff]
  exact ⟨same, Nat.lt_one_iff.1 below⟩

/-- Nothing enters an input that is relinked, and it is read at one socket. -/
theorem Relinkable.input_spec (sound : graph.Sound) (relinkable : graph.Relinkable output input source) :
    (∀ place, graph.source? ⟨input.node, place⟩ = none) ∧
      ∀ target socket, graph.source? target = some socket → socket.node = input.node →
        socket = input := by
  obtain ⟨name, id, -, listed, rfl, -⟩ := relinkable
  obtain ⟨node, port, found, op, -⟩ := sound.input?_spec listed
  exact ⟨sound.source?_input found op, fun _ _ => sound.eq_of_reads_input listed⟩

/-- Outputs of different names are relinked for different inputs. -/
theorem Relinkable.apart (sound : graph.Sound) {other : Nat}
    (apart : Cleanup.portName? graph output ≠ Cleanup.portName? graph other)
    (first : graph.Relinkable output input source) {name : String} {id : Nat}
    (named : Cleanup.portName? graph other = some name) (listed : graph.input? name = some id) :
    input.node ≠ id := by
  obtain ⟨name', id', named', listed', rfl, -⟩ := first
  rintro (rfl : id' = id)
  rw [named, named', sound.name_of_input? listed' listed] at apart
  exact apart rfl

/-- What an output can be relinked to after another one has been. -/
theorem Relinks.relinkable_iff (sound : graph.Sound) (relinks : graph.Relinks after input source)
    (first : graph.Relinkable output input source) {other : Nat}
    (apart : Cleanup.portName? graph output ≠ Cleanup.portName? graph other) {socket : Socket} :
    after.Relinkable other input' socket ↔
      ∃ source', graph.Relinkable other input' source' ∧ socket = redirect input source source' := by
  have named (id : Nat) : Cleanup.portName? after id = Cleanup.portName? graph id := by
    unfold Cleanup.portName?
    rw [relinks.node?]
  have listed (name : String) : after.input? name = graph.input? name := by
    unfold Graph.input?
    rw [relinks.inputs]
  -- An input that is read afterwards is read before: by the output, if not by the same socket.
  have read {id : Nat} (away : input.node ≠ id) :
      (∃ reader, after.source? reader = some ⟨id, 0⟩) ↔
        ∃ reader, graph.source? reader = some ⟨id, 0⟩ := by
    simp only [relinks.source?_eq, Option.map_eq_some_iff]
    constructor
    · rintro ⟨reader, old, linked, same⟩
      by_cases here : old = input
      · obtain ⟨_, _, _, _, _, fed, -⟩ := first
        rw [here, redirect_self] at same
        exact ⟨_, same ▸ fed⟩
      · rw [redirect_of_ne here] at same
        exact ⟨reader, same ▸ linked⟩
    · rintro ⟨reader, linked⟩
      exact ⟨reader, _, linked, redirect_of_ne fun same => away (congrArg Socket.node same.symm)⟩
  constructor
  · rintro ⟨name, id, here, there, rfl, linked, reads⟩
    rw [named] at here
    rw [listed] at there
    rw [relinks.source?_eq] at linked
    obtain ⟨source', fed, rfl⟩ := Option.map_eq_some_iff.1 linked
    exact ⟨source', ⟨name, id, here, there, rfl, fed, (read (first.apart sound apart here there)).1
      reads⟩, rfl⟩
  · rintro ⟨source', ⟨name, id, here, there, rfl, fed, reads⟩, rfl⟩
    refine ⟨name, id, (named other).trans here, (listed name).trans there, rfl, ?_,
      (read (first.apart sound apart here there)).2 reads⟩
    rw [relinks.source?_eq, fed]
    rfl

/-- What relinking an output makes of a graph, if it is not refused. -/
inductive RelinksOutput (graph : Graph) (output : Nat) : Graph → Prop
  | linked {input source : Socket} {after : Graph} (relinkable : graph.Relinkable output input source)
    (free : ¬ graph.Entangled input source) (relinks : graph.Relinks after input source) :
    RelinksOutput graph output after
  | left (nothing : ∀ input source, ¬ graph.Relinkable output input source) :
    RelinksOutput graph output graph

/-- An output that can be relinked and is not entangled is relinked. -/
theorem Relinkable.exists_relinks (sound : graph.Sound)
    (relinkable : graph.Relinkable output input source) (free : ¬ graph.Entangled input source) :
    ∃ after, graph.Relinks after input source := by
  rcases @Cleanup.relinkOutput_of_relinkable ⟨graph, .empty⟩ sound _ _ _ relinkable with
    ⟨entangled, -⟩ | ⟨-, after, -, relinks⟩
  · exact absurd entangled free
  · exact ⟨after, relinks⟩

/-- Relinking an output keeps a graph sound and the names of its ports. -/
theorem RelinksOutput.keeps (relinked : graph.RelinksOutput output after) (sound : graph.Sound) :
    after.Sound ∧ graph.Rewires after := by
  cases relinked with
  | linked _ _ relinks => exact ⟨relinks.sound, relinks.rewires⟩
  | left _ => exact ⟨sound, .refl graph⟩

/-- An output is relinked alike in graphs that agree. -/
theorem RelinksOutput.of_agrees (relinked : graph.RelinksOutput output after)
    (agrees : graph.Agrees graph') (sound : graph'.Sound) :
    ∃ after', graph'.RelinksOutput output after' ∧ after.Agrees after' := by
  cases relinked with
  | linked relinkable free relinks =>
    have relinkable' := agrees.relinkable.2 relinkable
    have free' := mt agrees.entangled.1 free
    obtain ⟨after', relinks'⟩ := relinkable'.exists_relinks sound free'
    exact ⟨after', .linked relinkable' free' relinks', agrees.relinks relinks relinks'⟩
  | left nothing =>
    exact ⟨graph', .left fun input source here => nothing _ _ (agrees.relinkable.1 here), agrees⟩

/-- What relinking an output makes of a graph agrees with all that it makes of it. -/
theorem RelinksOutput.unique (relinked : graph.RelinksOutput output after)
    (relinked' : graph.RelinksOutput output after') : after.Agrees after' := by
  cases relinked with
  | linked relinkable _ relinks =>
    cases relinked' with
    | linked relinkable' _ relinks' =>
      obtain ⟨rfl, rfl⟩ := relinkable.unique relinkable'
      exact (Agrees.refl graph).relinks relinks relinks'
    | left nothing => exact absurd relinkable (nothing _ _)
  | left nothing =>
    cases relinked' with
    | linked relinkable' _ _ => exact absurd relinkable' (nothing _ _)
    | left _ => exact .refl graph

/-- Where the readers of two inputs come to read what defines these, the same sockets are linked the
other way around. -/
theorem Relinks.swap (sound : graph.Sound) {other : Nat}
    (apart : Cleanup.portName? graph output ≠ Cleanup.portName? graph other) {middle last : Graph}
    (first : graph.Relinkable output input source) (second : graph.Relinkable other input' source')
    (free : ¬ graph.Entangled input source) (relinks : graph.Relinks middle input source)
    (free' : ¬ middle.Entangled input' (redirect input source source'))
    (relinks' : middle.Relinks last input' (redirect input source source')) :
    ∃ middle' last', graph.RelinksOutput other middle' ∧ middle'.RelinksOutput output last' ∧
      last.Agrees last' := by
  obtain ⟨root, alone⟩ := first.input_spec sound
  have away : input.node ≠ input'.node := by
    obtain ⟨name, id, named, listed, rfl, -⟩ := second
    exact first.apart sound apart named listed
  obtain ⟨_, _, _, _, _, fed, -⟩ := id second
  have loose : ¬ graph.Entangled input' source' :=
    fun entangled => free' (entangled.relinks root away relinks)
  obtain ⟨middle', early⟩ := second.exists_relinks sound loose
  have later : middle'.Relinkable output input (redirect input' source' source) :=
    (early.relinkable_iff sound second apart.symm).2 ⟨source, first, rfl⟩
  have loose' : ¬ middle'.Entangled input (redirect input' source' source) := fun entangled =>
    (Entangled.of_relinks root away (alone _ _ fed) relinks early entangled).elim free
      fun either => either.elim loose free'
  obtain ⟨last', late⟩ := later.exists_relinks early.sound loose'
  refine ⟨middle', last', .linked second loose early, .linked later loose' late, ?_⟩
  have uncrossed : ¬ (source = input' ∧ source' = input) := by
    rintro ⟨rfl, rfl⟩
    exact free' (.inl (by rw [redirect_self]))
  refine ⟨fun id => ?_, fun target => ?_, fun name => ?_⟩
  · rw [late.node?, early.node?, relinks'.node?, relinks.node?]
  · rw [late.source?_eq, early.source?_eq, relinks'.source?_eq, relinks.source?_eq, Option.map_map,
      Option.map_map]
    refine Option.map_congr fun socket _ => ?_
    exact (redirect_comm (fun same => away (congrArg Socket.node same)) uncrossed socket).symm
  · unfold Graph.input?
    rw [late.inputs, early.inputs, relinks'.inputs, relinks.inputs]

/-- Two outputs of different names that are relinked one after the other are relinked alike the other
way around. -/
theorem RelinksOutput.swap (sound : graph.Sound) {other : Nat}
    (apart : Cleanup.portName? graph output ≠ Cleanup.portName? graph other) {middle last : Graph}
    (first : graph.RelinksOutput output middle) (second : middle.RelinksOutput other last) :
    ∃ middle' last', graph.RelinksOutput other middle' ∧ middle'.RelinksOutput output last' ∧
      last.Agrees last' := by
  cases first with
  | left nothing =>
    refine ⟨last, last, second, ?_, .refl last⟩
    cases second with
    | left none => exact .left nothing
    | linked relinkable' _ relinks' =>
      refine .left fun input socket here => ?_
      obtain ⟨source, relinkable, -⟩ := (relinks'.relinkable_iff sound relinkable' apart.symm).1 here
      exact nothing _ _ relinkable
  | linked relinkable free relinks =>
    cases second with
    | left none =>
      refine ⟨graph, _, .left fun input' source' here => ?_, .linked relinkable free relinks,
        .refl _⟩
      exact none _ _ ((relinks.relinkable_iff sound relinkable apart).2 ⟨source', here, rfl⟩)
    | linked relinkable' free' relinks' =>
      obtain ⟨source', early, rfl⟩ := (relinks.relinkable_iff sound relinkable apart).1 relinkable'
      exact relinks.swap sound apart relinkable early free free' relinks'

/-- What relinking outputs one after the other makes of a graph, if none of them is refused. -/
inductive RelinksAll : Graph → List Nat → Graph → Prop
  | nil (graph : Graph) : RelinksAll graph [] graph
  | cons {first second last : Graph} {output : Nat} {rest : List Nat}
    (step : first.RelinksOutput output second) (run : RelinksAll second rest last) :
    RelinksAll first (output :: rest) last

section

variable {outputs outputs' : List Nat} {last last' : Graph}

/-- Outputs are relinked alike in graphs that agree. -/
theorem RelinksAll.of_agrees (run : graph.RelinksAll outputs last) (agrees : graph.Agrees graph')
    (sound : graph'.Sound) : ∃ last', graph'.RelinksAll outputs last' ∧ last.Agrees last' := by
  induction run generalizing graph' with
  | nil graph => exact ⟨graph', .nil graph', agrees⟩
  | cons step _ ih =>
    obtain ⟨second', step', agrees'⟩ := step.of_agrees agrees sound
    obtain ⟨last', run', final⟩ := ih agrees' (step'.keeps sound).1
    exact ⟨last', .cons step' run', final⟩

/-- What relinking outputs makes of a graph agrees with all that it makes of it. -/
theorem RelinksAll.unique (sound : graph.Sound) (run : graph.RelinksAll outputs last)
    (run' : graph.RelinksAll outputs last') : last.Agrees last' := by
  induction run generalizing last' with
  | nil graph =>
    cases run'
    exact .refl graph
  | cons step run ih =>
    cases run' with
    | cons step' run' =>
      -- What follows the second step goes over to the graph after the first one.
      obtain ⟨other, moved, agrees⟩ := run'.of_agrees (step'.unique step) (step.keeps sound).1
      exact (ih (step.keeps sound).1 moved).trans agrees.symm

/-- Outputs of different names are relinked alike in every order. -/
theorem RelinksAll.perm (reordered : outputs.Perm outputs') (sound : graph.Sound)
    (distinct : (outputs.map (Cleanup.portName? graph)).Nodup)
    (run : graph.RelinksAll outputs last) :
    ∃ last', graph.RelinksAll outputs' last' ∧ last.Agrees last' := by
  induction reordered generalizing graph last with
  | nil => exact ⟨last, run, .refl last⟩
  | cons output _ ih =>
    cases run with
    | @cons _ middle _ _ _ step run =>
      obtain ⟨sound', rewires⟩ := step.keeps sound
      have same : Cleanup.portName? middle = Cleanup.portName? graph := by
        funext id
        unfold Cleanup.portName?
        rw [rewires.node?]
      obtain ⟨last', run', agrees⟩ := ih sound' (same ▸ distinct.of_cons) run
      exact ⟨last', .cons step run', agrees⟩
  | swap first second rest =>
    cases run with
    | cons step run =>
      cases run with
      | cons step' run =>
        have apart : Cleanup.portName? graph second ≠ Cleanup.portName? graph first := by
          simp only [List.map_cons, List.nodup_cons, List.mem_cons, not_or] at distinct
          exact distinct.1.1
        obtain ⟨middle', end_, early, late, agrees⟩ := step.swap sound apart step'
        have sound' := (late.keeps (early.keeps sound).1).1
        obtain ⟨last', run', final⟩ := run.of_agrees agrees sound'
        exact ⟨last', .cons early (.cons late run'), final⟩
  | trans before _ first second =>
    obtain ⟨between, run', agrees⟩ := first sound distinct run
    obtain ⟨last', run'', agrees'⟩ :=
      second sound ((before.map (Cleanup.portName? graph)).nodup_iff.1 distinct) run'
    exact ⟨last', run'', agrees.trans agrees'⟩

end

end Graph

namespace Cleanup

open Shadeloom.Graph

/-- A step that relinks an output is what relinking it makes of the graph. -/
theorem relinksOutput_of_ok {site after : Site} (sound : site.graph.Sound) {output : Nat}
    {changed : Bool} (done : relinkOutput output site = .ok changed after) :
    ∃ graph, after = { site with graph } ∧ site.graph.RelinksOutput output graph := by
  by_cases relinkable : ∃ input source, site.graph.Relinkable output input source
  · obtain ⟨input, source, relinkable⟩ := relinkable
    rcases relinkOutput_of_relinkable sound relinkable with
      ⟨-, error, -, refused⟩ | ⟨free, graph, relinked, relinks⟩
    · rw [refused] at done
      cases done
    · rw [relinked] at done
      cases done
      exact ⟨graph, rfl, .linked relinkable free relinks⟩
  · have nothing : ∀ input source, ¬ site.graph.Relinkable output input source :=
      fun input source here => relinkable ⟨input, source, here⟩
    rw [relinkOutput_of_not_relinkable sound nothing] at done
    cases done
    exact ⟨site.graph, rfl, .left nothing⟩

/-- An output that relinking makes something of is relinked. -/
theorem relinkOutput_ok {site : Site} (sound : site.graph.Sound) {output : Nat} {after : Graph}
    (relinked : site.graph.RelinksOutput output after) :
    ∃ changed graph, relinkOutput output site = .ok changed { site with graph } := by
  cases relinked with
  | linked relinkable free _ =>
    rcases relinkOutput_of_relinkable sound relinkable with
      ⟨entangled, -⟩ | ⟨-, graph, relinked, -⟩
    · exact absurd entangled free
    · exact ⟨true, graph, relinked⟩
  | left nothing => exact ⟨false, site.graph, relinkOutput_of_not_relinkable sound nothing⟩

/-- Outputs of which none can be relinked leave a graph as it is. -/
theorem relinksAll_self {graph : Graph} {outputs : List Nat}
    (nothing : ∀ output ∈ outputs, ∀ input source, ¬ graph.Relinkable output input source) :
    graph.RelinksAll outputs graph := by
  induction outputs with
  | nil => exact .nil graph
  | cons output rest ih =>
    exact .cons (.left (nothing output (by simp)))
      (ih fun other mem => nothing other (List.mem_cons_of_mem _ mem))

/-- Relinking the outputs of a graph is what relinking them makes of it. -/
theorem relinksAll_of_ok {site after : Site} (sound : site.graph.Sound) {total : Nat}
    (done : relinkOutputs site = .ok total after) :
    ∃ graph, after = { site with graph } ∧ site.graph.RelinksAll site.graph.outputs graph := by
  obtain ⟨graph, between, got, counted⟩ := bind_eq_ok_iff.1 done
  cases got
  -- Whatever is made of the outputs that are left is made of all outputs.
  obtain ⟨-, same, run⟩ := count_carries relinkOutput
    (fun rest now => now.graph.Sound ∧ now.library = site.library ∧
      ∀ last, now.graph.RelinksAll rest last → site.graph.RelinksAll site.graph.outputs last)
    (fun output rest now changed later ⟨sound, same, run⟩ stepped => by
      obtain ⟨graph, rfl, step⟩ := relinksOutput_of_ok sound stepped
      exact ⟨(step.keeps sound).1, same, fun last more => run last (.cons step more)⟩)
    counted ⟨sound, rfl, fun _ run => run⟩
  obtain ⟨graph, library⟩ := after
  cases same
  exact ⟨graph, rfl, run graph (.nil graph)⟩

/-- Outputs that relinking makes something of are relinked, and this is what it makes of them. -/
theorem relinkOutputs_ok {site : Site} (sound : site.graph.Sound) {last : Graph}
    (run : site.graph.RelinksAll site.graph.outputs last) :
    ∃ total graph, relinkOutputs site = .ok total { site with graph } ∧ last.Agrees graph := by
  obtain ⟨total, after, counted, -⟩ := count_ok relinkOutput
    (fun rest now => now.graph.Sound ∧ ∃ last, now.graph.RelinksAll rest last)
    (fun output rest now ⟨sound, last, run⟩ => by
      cases run with
      | cons step run =>
        obtain ⟨changed, graph, done⟩ := relinkOutput_ok sound step
        obtain ⟨graph', same, step'⟩ := relinksOutput_of_ok sound done
        cases same
        obtain ⟨last', run', -⟩ := run.of_agrees (step.unique step') (step'.keeps sound).1
        exact ⟨changed, _, done, (step'.keeps sound).1, last', run'⟩)
    site.graph.outputs site ⟨sound, last, run⟩
  have done : relinkOutputs site = .ok total after := bind_eq_ok_iff.2 ⟨_, _, rfl, counted⟩
  obtain ⟨graph, rfl, run'⟩ := relinksAll_of_ok sound done
  exact ⟨total, graph, done, run.unique sound run'⟩

/-- Of graphs that agree and have the same outputs of different names, in whatever order, one can be
relinked when the other one can, and they agree afterwards. -/
theorem relinkOutputs_of_agrees {site site' : Site} (agrees : site.graph.Agrees site'.graph)
    (sound : site.graph.Sound) (sound' : site'.graph.Sound)
    (reordered : site.graph.outputs.Perm site'.graph.outputs)
    (distinct : (site.graph.outputs.map (portName? site.graph)).Nodup) {total : Nat} {middle : Graph}
    (done : relinkOutputs site = .ok total { site with graph := middle }) :
    ∃ total' middle', relinkOutputs site' = .ok total' { site' with graph := middle' } ∧
      middle.Agrees middle' := by
  obtain ⟨_, same, run⟩ := relinksAll_of_ok sound done
  cases same
  obtain ⟨last, other, alike⟩ := run.perm reordered sound distinct
  obtain ⟨last', moved, alike'⟩ := other.of_agrees agrees sound'
  obtain ⟨total', middle', done', final⟩ := relinkOutputs_ok sound' moved
  exact ⟨total', middle', done', (alike.trans alike').trans final⟩

end Cleanup

end Shadeloom
