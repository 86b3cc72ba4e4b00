import Mathlib
import Shadeloom.Proofs.Build.Realizing
/-!
# Reading variables

Reading a variable of a demand gives a socket that computes it. It is refused only if the variable
cannot be read anywhere: there are no instances that it could refer to.
-/
namespace Shadeloom

open Shadeloom.Expr

namespace Scope

section

variable {needed : Expr → Prop} {library : Library} {held : List Nat} {before after : Scope}

/-- The default of a variable is noted exactly when it is a number. -/
theorem noteDefault_ok_iff (scope : Scope) {v : Variable} :
    (∃ after, scope.noteDefault v = .ok after) ↔
      ∀ text, v.fallback = some text → (Variable.readDefault? text).isSome = true := by
  unfold noteDefault
  cases v.fallback with
  | none => exact iff_of_true ⟨scope, rfl⟩ fun text same => by cases same
  | some text =>
    unfold readDefault
    cases read : Variable.readDefault? text with
    | none => simp [bind, Except.bind, read]
    | some number => simp [bind, Except.bind, read]

/-- Other defaults change nothing that a demand asks for. -/
theorem Realizes.withDefaults (realizes : before.Realizes needed held)
    (defaults : Table String Float) : Realizes needed held { before with defaults } :=
  ⟨realizes.built, realizes.splits, realizes.inputs, realizes.accounted, realizes.instances⟩

/-- An input has the output socket that is read. -/
theorem hasOutput_newInput {graph : Graph} {name : String} {type : SocketType} {id : Nat}
    (found : graph.node? id = some (.newInput name type)) : graph.HasOutput ⟨id, 0⟩ :=
  ⟨_, found, Nat.zero_lt_one⟩

/-- The vector of an input is split, unless it has been split before. -/
theorem split_ok (tidy : before.Tidy library held) {name : String} {type : SocketType} {input : Nat}
    (found : before.graph.node? input = some (.newInput name type)) :
    ∃ id after, before.split name input = .ok (id, after) := by
  unfold Scope.split
  split
  · exact ⟨_, _, rfl⟩
  · have sound := tidy.runnable.sound
    have added := sound.addNode (.ofOp .separateXyz) fun port same => by cases same
    have leaves : (before.graph.addNode (.ofOp .separateXyz)).HasOutput ⟨input, 0⟩ :=
      hasOutput_newInput (sound.node?_addNode_of_some _ found)
    have enters : (before.graph.addNode (.ofOp .separateXyz)).HasInput ⟨before.graph.nextNode, 0⟩ :=
      ⟨_, (sound.node?_addNode _ _).trans (if_pos rfl), Nat.zero_lt_one⟩
    obtain ⟨graph, linked⟩ := added.exists_connect leaves enters
    refine ⟨_, _, Shadeloom.bind_eq_ok_iff.2 ⟨{ before with graph }, ?_, rfl⟩⟩
    exact Shadeloom.bind_eq_ok_iff.2 ⟨graph, lift_eq_ok_iff.2 linked, rfl⟩

/-- The node that splits the vector of a variable computes every component of it. -/
theorem Realizes.split (realizes : before.Realizes needed held) (tidy : before.Tidy library held)
    {v : Variable} (needs : needed (.var v)) (readable : v.IsReadable) {subscript : String}
    {place : Nat} (selects : v.subscript = some subscript)
    (known : Variable.component? subscript = some place) {input id : Nat}
    (offers : before.Offers held input) (listed : before.graph.input? v.name = some input)
    (found : before.graph.node? input = some (.newInput v.name .vector))
    (done : before.split v.name input = .ok (id, after)) :
    after.Realizes needed held ∧ after.graph.Computes (.var v) ⟨id, place⟩ := by
  obtain ⟨there, rfl⟩ | ⟨-, rfl, graph, advances, connects, rfl⟩ := tidy.split_eq_ok offers done
  · obtain ⟨node, input', listed', linked⟩ := realizes.splits v.name id there
    rw [listed, Option.some.injEq] at listed'
    subst listed'
    exact ⟨realizes, .component readable selects known listed found node linked⟩
  · have sound := tidy.runnable.sound
    have added := tidy.addNode (.ofOp .separateXyz) (fun port same => by cases same)
      (fun group same => by cases same)
    have connected := (realizes.addNode tidy (.ofOp .separateXyz)).connect added.tidy (by simp)
      connects
    have node : graph.node? before.graph.nextNode = some (.ofOp .separateXyz) :=
      (connects.node? _).trans ((sound.node?_addNode _ _).trans (if_pos rfl))
    have listed' : graph.input? v.name = some input :=
      advances.grows.input? _ _ (added.grows.input? _ _ listed)
    have linked' : graph.source? ⟨before.graph.nextNode, 0⟩ = some ⟨input, 0⟩ := by
      rw [connects.source?, if_pos rfl]
    have found' : graph.node? input = some (.newInput v.name .vector) :=
      (connects.node? _).trans (sound.node?_addNode_of_some _ found)
    have computes : graph.Computes (.var v) ⟨before.graph.nextNode, place⟩ :=
      .component readable selects known listed' found' node linked'
    have released := connected.release (.computes needs computes)
    refine ⟨⟨released.built, fun name id there => ?_, released.inputs, released.accounted,
      released.instances⟩, computes⟩
    rw [Table.get?_insert] at there
    split at there
    · rename_i equal
      cases there
      exact ⟨node, input, equal ▸ listed', linked'⟩
    · exact released.splits name id there

/-- Reading a variable of a demand gives a socket that computes it. -/
theorem Realizes.readVariable (realizes : before.Realizes needed held)
    (tidy : before.Tidy library held) {v : Variable} {socket : Socket} (needs : needed (.var v))
    (done : before.readVariable v = .ok (socket, after)) :
    after.Realizes needed held ∧ after.graph.Computes (.var v) socket := by
  obtain ⟨name, -, read, -⟩ | ⟨plain, defaults, written, type, input, asked, asks, read⟩ :=
    readVariable_eq_ok done
  · unfold Scope.instanceOutput at read
    rw [realizes.instances, Table.get?_empty] at read
    cases read
  · have fallback := (noteDefault_ok_iff before).1 ⟨_, written⟩
    have tidy := (tidy.withDefaults defaults).tidy
    have realizes := realizes.withDefaults defaults
    have adds := realizes.addInput tidy needs type
    rw [asks] at adds
    obtain ⟨unscripted, rfl, rfl, rfl⟩ | ⟨whole, rfl, rfl, rfl⟩ |
      ⟨subscript, place, id, selects, -, known, rfl, rfl, split⟩ := read
    · obtain ⟨final, listed, type, found, -⟩ := adds fun same => by cases same
      refine ⟨final, .input ⟨plain, fallback, fun subscript selects => ?_⟩ listed found
        fun subscript selects => ?_⟩
      · rw [unscripted] at selects
        cases selects
      · rw [unscripted] at selects
        cases selects
    · obtain ⟨final, listed, type, found, vector⟩ := adds fun _ => by rw [whole]; rfl
      refine ⟨final, .input ⟨plain, fallback, fun subscript selects => ?_⟩ listed found
        fun subscript selects => ?_⟩
      · rw [whole, Option.some.injEq] at selects
        rw [← selects]
        rfl
      · rw [whole, Option.some.injEq] at selects
        exact ⟨selects.symm, vector rfl⟩
    · obtain ⟨advances, -, -, offers⟩ := tidy.addInput v.name .vector
      rw [asks] at advances offers
      obtain ⟨added, listed, type, found, widened⟩ := adds fun _ => by rw [selects]; rfl
      rw [widened rfl] at found
      have readable : v.IsReadable := by
        refine ⟨plain, fallback, fun other selects' => ?_⟩
        rw [selects, Option.some.injEq] at selects'
        rw [← selects']
        simp [Variable.isKnownSubscript, known]
      exact added.split advances.tidy needs readable selects known offers listed found split

/-- A readable variable is read. -/
theorem readVariable_ok (realizes : before.Realizes needed held)
    (tidy : before.Tidy library held) {v : Variable} (needs : needed (.var v))
    (readable : v.IsReadable) : ∃ socket after, before.readVariable v = .ok (socket, after) := by
  unfold Scope.readVariable
  rw [readable.plain]
  obtain ⟨noted, written⟩ := (noteDefault_ok_iff before).2 readable.fallback
  rw [written]
  obtain ⟨defaults, rfl⟩ := noteDefault_eq written
  have tidy := (tidy.withDefaults defaults).tidy
  have realizes := realizes.withDefaults defaults
  simp only [bind, Except.bind]
  split
  · exact ⟨_, _, rfl⟩
  · exact ⟨_, _, rfl⟩
  · rename_i subscript whole selects
    have known := readable.subscript subscript selects
    cases component : Variable.component? subscript with
    | none =>
      simp only [Variable.isKnownSubscript, component, Option.isSome_none, Bool.or_false,
        decide_eq_true_eq] at known
      exact absurd known whole
    | some place =>
      obtain ⟨advances, -⟩ := tidy.addInput v.name .vector
      obtain ⟨-, -, type, found, -⟩ := realizes.addInput tidy needs .vector
        fun _ => by rw [selects]; rfl
      obtain ⟨id, last, split⟩ := split_ok advances.tidy found
      exact ⟨_, _, Shadeloom.bind_eq_ok_iff.2 ⟨(id, last), split, rfl⟩⟩

end

end Scope

end Shadeloom
