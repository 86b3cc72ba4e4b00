import Mathlib
import Shadeloom.Proofs.Build.Defaults
import Shadeloom.Proofs.Build.Feeding
import Shadeloom.Proofs.Build.Reaching
/-!
# The inputs that a scope asks for

A scope that is open has an input for each name that is declared for it and for each name that is
read in it, in the order in which the names come up first. An input feeds something exactly when its
name has been read: what a variable is read from is linked as soon as it is known, and no such link
is replaced before the scope is closed.
-/
namespace Shadeloom

open Shadeloom.Expr

/-- The name of the input that a variable reads, unless it refers to an instance. -/
def Variable.inputName? (v : Variable) : Option String :=
  match Text.afterStart? Function.instanceMark v.name with
  | some _ => none
  | none => some v.name

namespace Expr

/-- The names of the inputs that a tree reads, in the order in which they are read. -/
def inputNames : Expr → List String
  | .var v => v.inputName?.toList
  | e => e.fed.attach.flatMap fun operand => operand.1.inputNames
termination_by e => e.size
decreasing_by exact size_lt_of_fedBy operand.2

/-- A tree that is no variable reads what its node is fed with. -/
theorem inputNames_eq {e : Expr} (other : ∀ v, e ≠ .var v) :
    e.inputNames = e.fed.flatMap inputNames := by
  have attached : e.inputNames = e.fed.attach.flatMap fun operand => operand.1.inputNames := by
    cases e with
    | var v => exact absurd rfl (other v)
    | _ => rw [inputNames]; exact other
  rw [attached, List.flatMap_subtype, List.unattach_attach]
  exact fun operand mem => rfl

/-- Trees that are the same read the same inputs. -/
theorem inputNames_of_same {e e' : Expr} (same : e.same e' = true) :
    e.inputNames = e'.inputNames := by
  induction size : e.size using Nat.strong_induction_on generalizing e e' with
  | _ _ ih =>
    subst size
    by_cases variable_ : ∃ v, e = .var v
    · obtain ⟨v, rfl⟩ := variable_
      cases e' with
      | var w =>
        simp only [Expr.same, decide_eq_true_eq] at same
        rw [same]
      | _ => cases same
    · have other (v : Variable) : e ≠ .var v := fun equal => variable_ ⟨v, equal⟩
      have other' (v : Variable) : e' ≠ .var v := by
        rintro rfl
        cases e <;> first | exact variable_ ⟨_, rfl⟩ | cases same
      rw [inputNames_eq other, inputNames_eq other']
      have alike := fed_of_same same
      have smaller : ∀ operand ∈ e.fed, operand.size < e.size :=
        fun operand mem => size_lt_of_fedBy mem
      generalize e.fed = es at alike smaller
      generalize e'.fed = es' at alike
      induction alike with
      | nil => rfl
      | cons head _ rest =>
        rw [List.flatMap_cons, List.flatMap_cons,
          ih _ (smaller _ List.mem_cons_self) head rfl,
          rest fun operand mem => smaller operand (List.mem_cons_of_mem _ mem)]

end Expr

/-- The operands of a node read what its tree reads. -/
theorem Recipe.inputNames_operands {library : Library} {e : Expr} {recipe : Recipe}
    (planned : Plan.of library e = .ok (.make recipe)) :
    (recipe.operands.map Prod.snd).flatMap inputNames = e.inputNames := by
  have computed := Recipe.isComputed_of_make planned
  rw [Recipe.map_operands planned, inputNames_eq]
  rintro v rfl
  cases computed

/-- An item comes last unless a list has it. -/
theorem eraseDups_concat_eq {α : Type} [DecidableEq α] (items : List α) (a : α) :
    (items ++ [a]).eraseDups =
      if a ∈ items.eraseDups then items.eraseDups else items.eraseDups ++ [a] := by
  split
  · rename_i mem
    exact eraseDups_append_of_subset (by simpa using List.mem_eraseDups.1 mem)
  · rename_i absent
    exact eraseDups_concat fun mem => absent (List.mem_eraseDups.2 mem)

/-- An input that is asked for comes last unless it is there. -/
theorem Graph.keys_addInput (graph : Graph) (name : String) (type : SocketType) :
    (graph.addInput name type).2.inputs.keys =
      if name ∈ graph.inputs.keys then graph.inputs.keys else graph.inputs.keys ++ [name] := by
  have present : (graph.input? name).isSome = true ↔ name ∈ graph.inputs.keys := by
    rw [input?, Table.isSome_get?, Table.contains_iff_mem]
  cases found : graph.input? name with
  | some id =>
    rw [if_pos (present.1 (by rw [found]; rfl)), addInput]
    simp only [found]
    split
    · rename_i node _
      cases node.retypeInput? .vector <;> rfl
    · rfl
  | none =>
    have absent : name ∉ graph.inputs.keys := fun mem => by simpa [found] using present.2 mem
    rw [if_neg absent, addInput]
    simp only [found]
    rw [Table.keys_insert, inputs_addNode, if_neg fun there => absent (Table.contains_iff_mem.1 there)]

/-- The next node of a graph is no input of it. -/
theorem Graph.Sound.input?_ne_nextNode {graph : Graph} (sound : graph.Sound) (name : String) :
    graph.input? name ≠ some graph.nextNode := by
  intro listed
  obtain ⟨node, port, found, -⟩ := sound.input?_spec listed
  cases found.symm.trans sound.node?_nextNode

namespace Scope

variable {library : Library} {held : List Nat} {declared read : List String} {spared : List Nat}
  {before after scope : Scope}

/-- Whether a node is no input but one of a name among some. -/
def Among (names : List String) (scope : Scope) (id : Nat) : Prop :=
  ∀ name, scope.graph.input? name = some id → name ∈ names

/-- Whether a scope has an input for each name that is declared or read, in the order in which the
names come up, and an input feeds something exactly when its name is read, but for inputs that are
spared. Trees that have been built and vectors that have been split are among those that are read. -/
structure Asks (declared read : List String) (spared : List Nat) (scope : Scope) : Prop where
  keys : scope.graph.inputs.keys = (declared ++ read).eraseDups
  unread : ∀ name id, scope.graph.input? name = some id → name ∉ read → scope.graph.Idle id
  fed : ∀ name id, scope.graph.input? name = some id → name ∈ read → scope.graph.Idle id →
    id ∈ spared
  built : ∀ entry ∈ scope.built, (∀ name ∈ entry.1.inputNames, name ∈ read) ∧
    scope.Among read entry.2.node
  splits : ∀ name id, scope.splits.get? name = some id → scope.Among read id ∧
    ∃ input, scope.graph.input? name = some input ∧ ¬ scope.graph.Idle input
  instances : ∀ name id, scope.instances.get? name = some id → scope.Among read id

/-- A node is among more names if it is among some. -/
theorem Among.mono {names names' : List String} {id : Nat} (among : scope.Among names id)
    (sub : ∀ name ∈ names, name ∈ names') : scope.Among names' id :=
  fun name listed => sub name (among name listed)

/-- A node that is no input is among any names. -/
theorem among_of_not_input {names : List String} {id : Nat}
    (other : ∀ name, scope.graph.input? name ≠ some id) : scope.Among names id :=
  fun name listed => absurd listed (other name)

/-- A node that was there is still among names when one more input is asked for. -/
theorem Among.addInput {names : List String} {id input : Nat} {name : String} {type : SocketType}
    (among : before.Among names id) (here : (before.graph.node? id).isSome = true)
    (adds : before.graph.AddsInput after.graph name type input) : after.Among names id := by
  intro other listed
  rw [adds.input?] at listed
  split at listed
  · rename_i same
    cases listed
    obtain ⟨old, found⟩ := Option.isSome_iff_exists.1 here
    exact among other (same ▸ (adds.known old found).1)
  · exact among other listed

/-- An empty scope asks for nothing. -/
theorem asks_empty (name : String) : (empty name).Asks [] [] [] where
  keys := rfl
  unread _ _ listed := by simp [empty, Graph.empty, Graph.input?] at listed
  fed _ _ listed := by simp [empty, Graph.empty, Graph.input?] at listed
  built := List.forall_mem_nil _
  splits _ _ found := by simp [empty] at found
  instances _ _ found := by simp [empty] at found

namespace Asks

/-- What a scope asks for depends on its inputs, its links and what it keeps. -/
theorem congr (asks : before.Asks declared read spared)
    (inputs : after.graph.inputs = before.graph.inputs)
    (source? : ∀ target, after.graph.source? target = before.graph.source? target)
    (built : after.built = before.built) (splits : after.splits = before.splits)
    (instances : after.instances = before.instances) : after.Asks declared read spared := by
  have listed (name : String) : after.graph.input? name = before.graph.input? name := by
    rw [Graph.input?, inputs, Graph.input?]
  have idle (id : Nat) : after.graph.Idle id ↔ before.graph.Idle id := by
    simp only [Graph.Idle, source?]
  have among {names : List String} {id : Nat} (among : before.Among names id) :
      after.Among names id := fun name here => among name (listed name ▸ here)
  exact {
    keys := inputs ▸ asks.keys
    unread := fun name id here none => (idle id).2 (asks.unread name id (listed name ▸ here) none)
    fed := fun name id here mem quiet =>
      asks.fed name id (listed name ▸ here) mem ((idle id).1 quiet)
    built := fun entry mem => by
      obtain ⟨names, from_⟩ := asks.built entry (built ▸ mem)
      exact ⟨names, among from_⟩
    splits := fun name id found => by
      obtain ⟨from_, input, here, busy⟩ := asks.splits name id (splits ▸ found)
      exact ⟨among from_, input, (listed name).trans here, fun quiet => busy ((idle input).1 quiet)⟩
    instances := fun name id found => among (asks.instances name id (instances ▸ found)) }

/-- More inputs may be spared. -/
theorem spare (asks : before.Asks declared read spared) (id : Nat) :
    before.Asks declared read (id :: spared) :=
  { asks with fed := fun name other listed mem idle =>
      List.mem_cons_of_mem _ (asks.fed name other listed mem idle) }

/-- An input that feeds something need not be spared. -/
theorem unspare {id : Nat} (asks : before.Asks declared read (id :: spared))
    (busy : ¬ before.graph.Idle id) : before.Asks declared read spared :=
  { asks with
    fed := fun name other listed mem idle => by
      rcases List.mem_cons.1 (asks.fed name other listed mem idle) with rfl | mem
      · exact absurd idle busy
      · exact mem }

/-- Names that have been read may be read again. -/
theorem again (asks : before.Asks declared read spared) {more : List String}
    (sub : ∀ name ∈ more, name ∈ read) : before.Asks declared (read ++ more) spared := by
  have mem (name : String) : name ∈ read ++ more ↔ name ∈ read := by
    rw [List.mem_append]
    exact ⟨fun either => either.elim id (sub name), .inl⟩
  exact {
    keys := by
      rw [asks.keys, ← List.append_assoc]
      exact (eraseDups_append_of_subset fun name here =>
        List.mem_append_right _ (sub name here)).symm
    unread := fun name id listed none => asks.unread name id listed fun here => none ((mem name).2 here)
    fed := fun name id listed here => asks.fed name id listed ((mem name).1 here)
    built := fun entry here => by
      obtain ⟨names, among⟩ := asks.built entry here
      exact ⟨fun name here => (mem name).2 (names name here),
        among.mono fun name => (mem name).2⟩
    splits := fun name id found => by
      obtain ⟨among, split⟩ := asks.splits name id found
      exact ⟨among.mono fun name => (mem name).2, split⟩
    instances := fun name id found => (asks.instances name id found).mono fun name => (mem name).2 }

/-- A link to a socket that nothing has entered lets what it leaves feed something. -/
theorem connect {source target : Socket} (asks : before.Asks declared read (source.node :: spared))
    (among : before.Among read source.node) (free : before.graph.source? target = none)
    {graph : Graph} (connects : before.graph.Connects graph source target) :
    Asks declared read spared { before with graph } := by
  have listed (name : String) : graph.input? name = before.graph.input? name := by
    rw [Graph.input?, connects.inputs, Graph.input?]
  have kept {names : List String} {id : Nat} (among : before.Among names id) :
      Among names { before with graph } id := fun name here => among name (listed name ▸ here)
  have linked : graph.source? target = some source := (connects.source? target).trans (if_pos rfl)
  have still {other from_ : Socket} (there : before.graph.source? other = some from_) :
      graph.source? other = some from_ := by
    rw [connects.source?, if_neg]
    · exact there
    · rintro rfl
      cases free.symm.trans there
  refine @unspare _ _ _ _ source.node ?_ (Graph.not_idle_of_source? linked)
  exact {
    keys := connects.inputs ▸ asks.keys
    unread := fun name id here none => by
      have here : before.graph.input? name = some id := listed name ▸ here
      refine (asks.unread name id here none).of_links fun other from_ there => ?_
      rw [connects.source?] at there
      split at there
      · cases there
        exact .inr fun same => none (among name (same ▸ here))
      · exact .inl there
    fed := fun name id here mem idle =>
      asks.fed name id (listed name ▸ here) mem fun other from_ there =>
        idle other from_ (still there)
    built := fun entry mem => ⟨(asks.built entry mem).1, kept (asks.built entry mem).2⟩
    splits := fun name id found => by
      obtain ⟨among, input, here, busy⟩ := asks.splits name id found
      exact ⟨kept among, input, (listed name).trans here, fun idle =>
        busy fun other from_ there => idle other from_ (still there)⟩
    instances := fun name id found => kept (asks.instances name id found) }

/-- An input that is asked for is one more that is declared, or read if it may be spared. -/
theorem addInput (asks : before.Asks declared read spared) (tidy : before.Tidy library held)
    {name : String} {type : SocketType} {input : Nat} {graph : Graph} {declared' read' : List String}
    (asked : before.graph.addInput name type = (input, graph))
    (names : declared' ++ read' = declared ++ read ++ [name])
    (sub : ∀ other ∈ read, other ∈ read') (only : ∀ other ∈ read', other ∈ read ∨ other = name) :
    Asks declared' read' (input :: spared) { before with graph } := by
  have adds := tidy.runnable.sound.addInput name type
  have keys := before.graph.keys_addInput name type
  rw [asked] at adds keys
  have idle (id : Nat) : graph.Idle id ↔ before.graph.Idle id := by
    simp only [Graph.Idle, adds.source?]
  have kept {id : Nat} (among : before.Among read id) (offers : before.Offers held id) :
      Among read' { before with graph } id :=
    (@Among.addInput before { before with graph } _ _ _ _ _ among offers.1 adds).mono sub
  exact {
    keys := by
      rw [names, eraseDups_concat_eq, ← asks.keys]
      exact keys
    unread := fun other id listed none => by
      have here : graph.input? other = some id := listed
      rw [adds.input?] at here
      refine (idle id).2 ?_
      split at here
      · rename_i same
        cases here
        cases known : before.graph.node? input with
        | some old =>
          exact asks.unread name input (adds.known old known).1 fun mem => none (same ▸ sub _ mem)
        | none =>
          -- Nothing leaves a node that was not there.
          intro target source linked leaves
          have there := (tidy.runnable.sound.isSome_of_leads (Graph.leads_of_source? linked)).1
          rw [leaves, known] at there
          cases there
      · exact asks.unread other id here fun mem => none (sub _ mem)
    fed := fun other id listed mem quiet => by
      have here : graph.input? other = some id := listed
      rw [adds.input?] at here
      split at here
      · cases here
        exact List.mem_cons_self
      · rename_i apart
        rcases only other mem with mem | same
        · exact List.mem_cons_of_mem _ (asks.fed other id here mem ((idle id).1 quiet))
        · exact absurd same.symm apart
    built := fun entry mem =>
      ⟨fun name here => sub name ((asks.built entry mem).1 name here),
        kept (asks.built entry mem).2 (tidy.built entry mem)⟩
    splits := fun other id found => by
      obtain ⟨among, vector, here, busy⟩ := asks.splits other id found
      refine ⟨kept among (tidy.splits other id found), vector, ?_, fun quiet =>
        busy ((idle vector).1 quiet)⟩
      show graph.input? other = some vector
      rw [adds.input?]
      split
      · rename_i same
        subst same
        cases known : before.graph.node? input with
        | none => cases (adds.fresh known).1.symm.trans here
        | some old => exact (adds.known old known).1.symm.trans here
      · exact here
    instances := fun name id found =>
      kept (asks.instances name id found) (tidy.instances name id found) }

/-- An input that is declared before anything is read feeds nothing. -/
theorem declareInput (asks : before.Asks declared [] []) (tidy : before.Tidy library held)
    (name : String) (type : SocketType) :
    (before.addInput name type).2.Asks (declared ++ [name]) [] [] := by
  have asked : Asks (declared ++ [name]) [] [(before.graph.addInput name type).1]
      { before with graph := (before.graph.addInput name type).2 } :=
    asks.addInput tidy (rfl : _ = (_, _)) (by simp) (fun _ mem => mem) (by simp)
  exact { asked with fed := fun _ _ _ mem => absurd mem List.not_mem_nil }

/-- An input that is read may be spared. -/
theorem readInput (asks : before.Asks declared read []) (tidy : before.Tidy library held)
    {name : String} {type : SocketType} {input : Nat}
    (asked : before.addInput name type = (input, after)) :
    after.Asks declared (read ++ [name]) [input] ∧ after.Among (read ++ [name]) input ∧
      after.graph.input? name = some input := by
  cases asked
  have adds := tidy.runnable.sound.addInput name type
  have listed : (before.graph.addInput name type).2.input? name =
      some (before.graph.addInput name type).1 := by
    rw [adds.input?, if_pos rfl]
  refine ⟨asks.addInput tidy (rfl : before.graph.addInput name type = (_, _)) (by simp)
    (fun _ mem => List.mem_append_left _ mem) (by simp), fun other here => ?_, listed⟩
  simp [adds.sound.name_of_input? here listed]

/-- A node that is added and is no input changes nothing of what a scope asks for. -/
theorem addNode (asks : before.Asks declared read spared) (tidy : before.Tidy library held)
    (node : Node) : (before.addNode node).Asks declared read spared :=
  asks.congr (Graph.inputs_addNode _ _) tidy.runnable.sound.source?_addNode rfl rfl rfl

/-- Another label changes nothing of what a scope asks for. -/
theorem setLabel (asks : before.Asks declared read spared) (sound : before.graph.Sound) {id : Nat}
    {label : Option String} {graph : Graph} (done : before.graph.setLabel id label = .ok graph) :
    Asks declared read spared { before with graph } := by
  obtain ⟨node, -, same⟩ := bind_eq_ok_iff.1 done
  cases same
  exact asks.congr rfl (sound.source?_setNode id _) rfl rfl rfl

/-- A node that is no input may be called by a name. -/
theorem callInstance (asks : before.Asks declared read spared) {id : Nat}
    (other : ∀ name, before.graph.input? name ≠ some id) (called : String) :
    Asks declared read spared { before with instances := before.instances.insert called id } := by
  refine { asks with instances := fun name other' found => ?_ }
  rw [Table.get?_insert] at found
  split at found
  · cases found
    exact among_of_not_input other
  · exact asks.instances name other' found

/-- A vector is split by a node that its input feeds. -/
theorem split {input : Nat} (asks : before.Asks declared read [input])
    (tidy : before.Tidy library held) {name : String} {id : Nat}
    (offers : before.Offers held input) (among : before.Among read input)
    (listed : before.graph.input? name = some input)
    (done : before.split name input = .ok (id, after)) :
    after.Asks declared read [] ∧ after.Among read id := by
  obtain ⟨found, rfl⟩ | ⟨-, rfl, graph, -, connects, rfl⟩ := tidy.split_eq_ok offers done
  · obtain ⟨from_, input', listed', busy⟩ := asks.splits name id found
    cases listed.symm.trans listed'
    exact ⟨asks.unspare busy, from_⟩
  · have kept (other : String) : graph.input? other = before.graph.input? other := by
      rw [Graph.input?, connects.inputs, Graph.inputs_addNode, Graph.input?]
    have among' : (before.addNode (.ofOp .separateXyz)).Among read input := fun other here =>
      among other (by rwa [Graph.input?, Scope.addNode, Graph.inputs_addNode] at here)
    have linked : graph.source? ⟨before.graph.nextNode, 0⟩ = some ⟨input, 0⟩ :=
      (connects.source? _).trans (if_pos rfl)
    have asks' := (asks.addNode tidy (.ofOp .separateXyz)).connect among'
      (source?_nextNode tidy _ 0) connects
    have from_ : Among read { before with graph } before.graph.nextNode :=
      among_of_not_input fun other here =>
        tidy.runnable.sound.input?_ne_nextNode other ((kept other).symm.trans here)
    refine ⟨{ asks' with splits := fun other id found => ?_ }, from_⟩
    rw [Table.get?_insert] at found
    split at found
    · rename_i same
      cases found
      exact ⟨from_, input, (kept other).trans (same ▸ listed), Graph.not_idle_of_source? linked⟩
    · exact asks'.splits other id found

/-- The tree of a variable or of an operation is kept when its names have been read. -/
theorem remember (asks : before.Asks declared read spared) (reuse : Bool) {e : Expr} {socket : Socket}
    (names : ∀ name ∈ e.inputNames, name ∈ read) (among : before.Among read socket.node) :
    (before.remember reuse e socket).Asks declared read spared := by
  unfold Scope.remember
  split
  · exact { asks with built := List.forall_mem_cons.2 ⟨⟨names, among⟩, asks.built⟩ }
  · exact asks

/-- A tree that is remembered reads nothing that has not been read, and it is read from one of the
inputs that have been read, if from any. -/
theorem mem_of_remembered (asks : before.Asks declared read spared) {reuse : Bool} {e : Expr}
    {socket : Socket} (found : before.remembered? reuse e = some socket) :
    (∀ name ∈ e.inputNames, name ∈ read) ∧ before.Among read socket.node := by
  unfold Scope.remembered? at found
  split at found
  · obtain ⟨entry, here, rfl⟩ := Option.map_eq_some_iff.1 found
    have same : entry.1.same e = true := by simpa using List.find?_some here
    rw [← Expr.inputNames_of_same same]
    exact asks.built entry (List.mem_of_find?_eq_some here)
  · cases found

/-- A variable reads its input, unless it refers to an instance. -/
theorem readVariable (asks : before.Asks declared read []) (tidy : before.Tidy library held)
    {v : Variable} {socket : Socket} (done : before.readVariable v = .ok (socket, after)) :
    after.Asks declared (read ++ (Expr.var v).inputNames) [socket.node] ∧
      after.Among (read ++ (Expr.var v).inputNames) socket.node := by
  obtain ⟨name, reference, given, rfl⟩ | ⟨plain, defaults, -, type, input, asked, asked', last⟩ :=
    readVariable_eq_ok done
  · have none : (Expr.var v).inputNames = [] := by
      simp [Expr.inputNames, Variable.inputName?, reference]
    obtain ⟨id, called, rfl⟩ : ∃ id, after.instances.get? name = some id ∧ socket.node = id := by
      unfold Scope.instanceOutput at given
      split at given
      · cases given
      · rename_i id called
        refine ⟨id, called, ?_⟩
        split at given
        · cases given; rfl
        · cases given; rfl
        · split at given <;> cases given
          rfl
    rw [none, List.append_nil]
    exact ⟨asks.spare _, asks.instances name _ called⟩
  · have one : (Expr.var v).inputNames = [v.name] := by
      simp [Expr.inputNames, Variable.inputName?, plain]
    rw [one]
    have start := (tidy.withDefaults defaults).tidy
    obtain ⟨advances, -, -, offers⟩ := start.addInput v.name type
    obtain ⟨asks', among, listed⟩ := (asks.congr rfl (fun _ => rfl) rfl rfl rfl :
      Asks declared read [] { before with defaults }).readInput start asked'
    rw [asked'] at advances offers
    obtain ⟨-, -, rfl, rfl⟩ | ⟨-, -, rfl, rfl⟩ | ⟨-, -, id, -, -, -, -, rfl, split⟩ := last
    · exact ⟨asks', among⟩
    · exact ⟨asks', among⟩
    · obtain ⟨asks'', from_⟩ := asks'.split advances.tidy offers among listed split
      exact ⟨asks''.spare _, from_⟩

end Asks

end Scope

section

variable {library : Library} {declared : List String}

/-- A tree that is built reads its names, and operands that are fed read theirs. -/
theorem lower_asks (runnable : Library.Runnable library) (reuse : Bool) :
    (∀ held e scope socket after, scope.Tidy library held →
      lower library reuse e scope = .ok (socket, after) → ∀ read, scope.Asks declared read [] →
        after.Asks declared (read ++ e.inputNames) [socket.node] ∧
          after.Among (read ++ e.inputNames) socket.node) ∧
    ∀ held operands id scope after, scope.Tidy library (id :: held) →
      (operands.map Prod.fst).Nodup →
        (∀ operand ∈ operands, scope.graph.source? ⟨id, operand.1⟩ = none) →
          feed library reuse operands id scope = .ok after → ∀ read, scope.Asks declared read [] →
            (∀ name, scope.graph.input? name ≠ some id) →
              after.Asks declared (read ++ (operands.map Prod.snd).flatMap inputNames) [] ∧
                ∀ name, after.graph.input? name ≠ some id := by
  refine @lower_free_induct library reuse runnable
    (fun _ e scope socket after => ∀ read, scope.Asks declared read [] →
      after.Asks declared (read ++ e.inputNames) [socket.node] ∧
        after.Among (read ++ e.inputNames) socket.node)
    (fun _ operands id scope after => ∀ read, scope.Asks declared read [] →
      (∀ name, scope.graph.input? name ≠ some id) →
        after.Asks declared (read ++ (operands.map Prod.snd).flatMap inputNames) [] ∧
          ∀ name, after.graph.input? name ≠ some id)
    ?remembered ?read ?make ?nil ?cons
  case remembered =>
    intro held e scope socket tidy found read asks
    obtain ⟨sub, among⟩ := asks.mem_of_remembered found
    exact ⟨(asks.again sub).spare _, among.mono fun _ mem => List.mem_append_left _ mem⟩
  case read =>
    intro held v scope socket after tidy fresh reads read asks
    obtain ⟨asks', among⟩ := asks.readVariable tidy reads
    refine ⟨asks'.remember reuse (fun _ mem => List.mem_append_right _ mem) among, ?_⟩
    unfold Scope.Among
    rwa [Scope.graph_remember]
  case make =>
    intro held e scope recipe fed tidy fresh planned feeds read asks
    have new (name : String) :
        (scope.addNode recipe.node).graph.input? name ≠ some scope.graph.nextNode := by
      rw [Graph.input?, Scope.addNode, Graph.inputs_addNode]
      exact tidy.runnable.sound.input?_ne_nextNode name
    obtain ⟨asks', other⟩ := feeds read (asks.addNode tidy recipe.node) new
    rw [Recipe.inputNames_operands planned] at asks'
    have among : fed.Among (read ++ e.inputNames) scope.graph.nextNode :=
      Scope.among_of_not_input other
    refine ⟨(asks'.remember reuse (fun _ mem => List.mem_append_right _ mem) among).spare _, ?_⟩
    unfold Scope.Among
    rwa [Scope.graph_remember]
  case nil =>
    intro held id scope read asks other
    rw [List.map_nil, List.flatMap_nil, List.append_nil]
    exact ⟨asks, other⟩
  case cons =>
    intro held place e rest id scope source built linked after tidy advances offers free links first
      others read asks other
    obtain ⟨-, connects, same⟩ := advances.tidy.connect offers (by simp) links
    obtain ⟨asks', among⟩ := first read asks
    have asks'' := asks'.connect among free connects
    rw [← same] at asks''
    rw [List.map_cons, List.flatMap_cons, ← List.append_assoc]
    refine others _ asks'' fun name listed => ?_
    rw [Graph.input?, connects.inputs] at listed
    exact advances.tidy.inputs name id listed (by simp)

/-- A tree whose value is linked to a socket that nothing has entered reads its names. -/
theorem lowerInto_asks (runnable : Library.Runnable library) {reuse : Bool} {e : Expr}
    {target : Socket} {before after : Scope} {read : List String}
    (tidy : before.Tidy library [target.node]) (free : before.graph.source? target = none)
    (asks : before.Asks declared read [])
    (done : lowerInto library reuse e target before = .ok after) :
    after.Asks declared (read ++ e.inputNames) [] := by
  obtain ⟨⟨source, built⟩, builds, links⟩ := bind_eq_ok_iff.1 done
  obtain ⟨advances, offers⟩ := (lower_keeps runnable reuse).1 e before _ source built tidy builds
  obtain ⟨asks', among⟩ := (lower_asks runnable reuse).1 _ e before source built tidy builds read asks
  obtain ⟨-, connects, same⟩ := advances.tidy.connect offers.2 (by simp) links
  have still : built.graph.source? target = none :=
    (advances.grows.source? target (tidy.idle target.node (by simp)).1 (by simp)).trans free
  have asks'' := asks'.connect among still connects
  rwa [← same] at asks''

end

end Shadeloom
