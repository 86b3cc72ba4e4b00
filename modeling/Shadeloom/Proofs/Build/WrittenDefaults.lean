import Mathlib
import Shadeloom.Proofs.Build.Defaults
/-!
# Defaults that a source writes

The variables of a source are noted scope by scope: those that a group declares, and those that the
statements directly in it read. The inputs of the root and of each definition have the last default
among the variables that count for their scope. Without reuse all of them count; with it, equal ones
count only once, where they come first, and so the last default that is written may not be the one
that an input gets.
-/
namespace Shadeloom

open Shadeloom.Expr Variable

/-- The variables of a scope: those that are declared as its inputs, and those with defaults that each
of its statements reads. -/
structure Notes where
  declared : List Variable
  statements : List (List Variable)
  deriving Repr, DecidableEq

namespace Notes

variable (options : BuildOptions) (notes : Notes)

/-- The variables whose defaults count under some options: while trees are used again, equal ones
count once, in all statements of the scope or in each of them alone. -/
def counted : List Variable :=
  notes.declared ++
    if options.isolateStatements then notes.statements.flatMap (firsts options.optimize)
    else firsts options.optimize notes.statements.flatten

/-- The variables that count and cannot be used again by the next statement. -/
def past : List Variable :=
  if options.isolateStatements then notes.counted options else notes.declared

/-- The variables that the next statement may use again. -/
def present : List Variable :=
  if options.isolateStatements then [] else notes.statements.flatten

/-- Notes with those of one more statement. -/
def add (read : List Variable) : Notes :=
  { notes with statements := notes.statements ++ [read] }

/-- The variables that count after one more statement. -/
theorem counted_add (read : List Variable) : (notes.add read).counted options =
    notes.past options ++ firsts options.optimize (notes.present options ++ read) := by
  unfold counted past present add
  cases isolated : options.isolateStatements <;> simp [counted, isolated]

/-- The variables that count are the past ones and those of the present that are not repeated. -/
theorem counted_eq : notes.counted options =
    notes.past options ++ firsts options.optimize (notes.present options) := by
  unfold past present
  cases isolated : options.isolateStatements <;> simp [counted, isolated]

/-- All variables of a scope, in order. -/
def all : List Variable :=
  notes.declared ++ notes.statements.flatten

/-- Without reuse all variables count. -/
theorem counted_of_not_optimize (separate : options.optimize = false) :
    notes.counted options = notes.all := by
  have each : firsts false = id := rfl
  unfold counted all
  rw [separate, each]
  split <;> simp [List.flatMap_id]

/-- The variables that count are all variables of the scope, some of them fewer times. -/
theorem mem_counted {v : Variable} : v ∈ notes.counted options ↔ v ∈ notes.all := by
  have same (vs : List Variable) : v ∈ firsts options.optimize vs ↔ v ∈ vs := by
    unfold firsts
    split
    · exact List.mem_eraseDups
    · exact Iff.rfl
  unfold counted all
  split <;> simp [same]

/-- Whether no two different numbers are written as defaults of one name. -/
def IsUnivocal : Prop :=
  ∀ v ∈ notes.all, ∀ w ∈ notes.all, v.name = w.name →
    ∀ a b, v.number? = some a → w.number? = some b → a = b

/-- A number is the last default of a name only if it is written for it. -/
theorem exists_of_lastDefault? {vs : List Variable} {name : String} {a : Float}
    (last : lastDefault? vs name = some a) : ∃ v ∈ vs, v.name = name ∧ v.number? = some a := by
  obtain ⟨v, mem, number⟩ := List.mem_filterMap.1 (List.mem_of_getLast? last)
  split at number
  · rename_i named
    exact ⟨v, mem, named, number⟩
  · cases number

/-- A name has a last default when a number is written for it. -/
theorem isSome_lastDefault? {vs : List Variable} {v : Variable} {a : Float} (mem : v ∈ vs)
    (number : v.number? = some a) : ∃ b, lastDefault? vs v.name = some b := by
  have listed : a ∈ vs.filterMap fun w => if w.name = v.name then w.number? else none :=
    List.mem_filterMap.2 ⟨v, mem, by rw [if_pos rfl, number]⟩
  exact ⟨_, List.getLast?_eq_some_getLast (List.ne_nil_of_mem listed)⟩

/-- Where no name has two different numbers, the last default that counts is the last one. -/
theorem lastDefault?_counted (univocal : notes.IsUnivocal) (name : String) :
    lastDefault? (notes.counted options) name = lastDefault? notes.all name := by
  cases last : lastDefault? (notes.counted options) name with
  | some a =>
    obtain ⟨v, mem, rfl, number⟩ := exists_of_lastDefault? last
    have mem := (notes.mem_counted options).1 mem
    obtain ⟨b, last'⟩ := isSome_lastDefault? mem number
    obtain ⟨w, mem', named, number'⟩ := exists_of_lastDefault? last'
    rw [last', univocal v mem w mem' named.symm a b number number']
  | none =>
    refine (Option.eq_none_iff_forall_not_mem.2 fun a last' => ?_).symm
    obtain ⟨v, mem, rfl, number⟩ := exists_of_lastDefault? last'
    obtain ⟨b, here⟩ := isSome_lastDefault? ((notes.mem_counted options).2 mem) number
    cases last.symm.trans here

end Notes

/-- The notes of the scopes up to some point. -/
structure Ledger where
  /-- The notes of the innermost scope. -/
  here : Notes
  /-- The groups that are open, the innermost first, each with the notes of the scope around it. -/
  around : List (String × Notes)
  /-- The notes of the last group of each name that has ended. -/
  ended : Table String Notes

namespace Expr

/-- The variable that an expression is. -/
def asVariable? : Expr → Option Variable
  | .var v => some v
  | _ => none

/-- The variables that the start of a group declares as inputs. -/
def declared : Expr → List Variable
  | .call _ args => args.arguments.tail.filterMap asVariable?
  | _ => []

/-- The start of a group declares the variables that follow the name. -/
theorem declared_call (name : String) {args argument : Expr} {inputs : List Expr}
    (listed : args.arguments = argument :: inputs) :
    (call name args).declared = inputs.filterMap asVariable? := by
  show args.arguments.tail.filterMap asVariable? = _
  rw [listed, List.tail_cons]

/-- The variables with defaults that a statement reads in its scope. -/
def read : Expr → List Variable
  | .call name args =>
    match Builder.directive? name with
    | some .groupAdd => (args.arguments.drop 2).flatMap defaulted
    | some _ => []
    | none => (call name args).defaulted
  | .binary .assign _ tree => tree.defaulted
  | e => e.defaulted

end Expr

namespace Ledger

/-- The notes before the first statement. -/
def start : Ledger := ⟨⟨[], []⟩, [], .empty⟩

/-- The notes after one more statement. -/
def step (ledger : Ledger) (e : Expr) : Ledger :=
  match e.mark? with
  | some (.opens name) => ⟨⟨e.declared, []⟩, (name, ledger.here) :: ledger.around, ledger.ended⟩
  | some (.closes _) =>
    match ledger.around with
    | [] => ledger
    | (name, outer) :: around => ⟨outer, around, ledger.ended.insert name ledger.here⟩
  | _ => { ledger with here := ledger.here.add e.read }

/-- The notes of a whole tree. -/
def of (e : Expr) : Ledger :=
  e.arguments.foldl step start

end Ledger

namespace Scope

variable {options : BuildOptions} {notes : Notes} {scope : Scope}

/-- Whether a scope has the defaults of its notes, and no input has one so far. -/
structure Records (options : BuildOptions) (notes : Notes) (scope : Scope) : Prop where
  unset : scope.graph.InputsMeet InputPort.IsUnset
  reads : ∃ past present, scope.Reads options.optimize past present ∧
    past ++ firsts options.optimize present = notes.counted options ∧
      (options.isolateStatements = false →
        past = notes.declared ∧ present = notes.statements.flatten)

/-- Whether a scope that has the defaults of its notes is at the start of a statement. -/
structure Ready (options : BuildOptions) (notes : Notes) (scope : Scope) : Prop where
  unset : scope.graph.InputsMeet InputPort.IsUnset
  reads : scope.Reads options.optimize (notes.past options) (notes.present options)

/-- A scope has the defaults of the variables that count. -/
theorem Records.defaults (records : scope.Records options notes) :
    scope.HasDefaultsOf (notes.counted options) := by
  obtain ⟨past, present, reads, counted, -⟩ := records.reads
  exact counted ▸ reads.defaults

/-- A scope at the start of a statement has the defaults of its notes. -/
theorem Ready.records (ready : scope.Ready options notes) : scope.Records options notes := by
  refine ⟨ready.unset, _, _, ready.reads, (notes.counted_eq options).symm, fun together => ?_⟩
  simp [Notes.past, Notes.present, together]

/-- A scope that has read some variables since the start of a statement has them noted. -/
theorem records_add {after : Scope} {read : List Variable}
    (unset : after.graph.InputsMeet InputPort.IsUnset)
    (reads : after.Reads options.optimize (notes.past options) (notes.present options ++ read)) :
    after.Records options (notes.add read) := by
  refine ⟨unset, _, _, reads, (notes.counted_add options read).symm, fun together => ?_⟩
  simp [Notes.past, Notes.present, Notes.add, together]

/-- A statement starts from the trees that have been built, or from none. -/
theorem Records.ready (records : scope.Records options notes) :
    (if options.isolateStatements then scope.forget else scope).Ready options notes := by
  obtain ⟨past, present, reads, counted, together⟩ := records.reads
  split
  · rename_i isolated
    refine ⟨records.unset, ?_⟩
    simp only [Notes.past, Notes.present, isolated, if_true]
    refine ⟨?_, fun _ => List.forall_mem_nil _, fun _ => List.forall_mem_nil _⟩
    rw [firsts_nil, List.append_nil, ← counted]
    exact reads.defaults
  · rename_i shared
    obtain ⟨rfl, rfl⟩ := together (by simpa using shared)
    refine ⟨records.unset, ?_⟩
    simpa [Notes.past, Notes.present, shared] using reads

/-- A scope without trees that have been built has the inputs noted that are declared. -/
theorem records_of_declared {declared : List Variable}
    (unset : scope.graph.InputsMeet InputPort.IsUnset) (has : scope.HasDefaultsOf declared)
    (bare : scope.built = []) : scope.Records options ⟨declared, []⟩ := by
  have counted : declared ++ firsts options.optimize [] = Notes.counted options ⟨declared, []⟩ := by
    simp [Notes.counted]
  refine ⟨unset, declared, [], ⟨?_, ?_, fun _ => List.forall_mem_nil _⟩, counted,
    fun _ => ⟨rfl, rfl⟩⟩
  · rwa [firsts_nil, List.append_nil]
  · rw [bare]
    exact fun _ => List.forall_mem_nil _

/-- An empty scope has no notes. -/
theorem records_empty (name : String) : (empty name).Records options ⟨[], []⟩ :=
  records_of_declared (Graph.inputsMeet_empty name) (fun _ => rfl) rfl

/-- Whether scopes, the root and the groups that are open in it, have the defaults of notes, those of
the innermost scope and those of the scopes around it. -/
inductive Recorded (options : BuildOptions) (root : Scope) :
    List OpenGroup → Notes → List (String × Notes) → Prop
  | root {notes : Notes} (records : root.Records options notes) : Recorded options root [] notes []
  | group {group : OpenGroup} {opened : List OpenGroup} {inner outer : Notes}
    {around : List (String × Notes)} (records : group.scope.Records options inner)
    (rest : Recorded options root opened outer around) :
    Recorded options root (group :: opened) inner ((group.name, outer) :: around)

/-- Inputs that a group declares have their defaults noted. -/
theorem records_declared {directive : String} {inputs : List Expr} {before after : Scope}
    {vs : List Variable} (sound : before.graph.Sound)
    (unset : before.graph.InputsMeet InputPort.IsUnset) (has : before.HasDefaultsOf vs)
    (bare : before.built = [])
    (done : inputs.foldlM (Builder.declareInput directive) before = .ok after) :
    after.graph.InputsMeet InputPort.IsUnset ∧
      after.HasDefaultsOf (vs ++ inputs.filterMap asVariable?) ∧ after.built = [] := by
  induction inputs generalizing before vs with
  | nil =>
    cases done
    exact ⟨unset, by simpa using has, bare⟩
  | cons argument rest ih =>
    rw [List.foldlM_cons] at done
    obtain ⟨between, first, later⟩ := bind_eq_ok_iff.1 done
    unfold Builder.declareInput at first
    split at first
    · rename_i v
      obtain ⟨type, -, first⟩ := bind_eq_ok_iff.1 first
      obtain ⟨noted, notes, same⟩ := bind_eq_ok_iff.1 first
      cases same
      have has' := has.noteDefault notes
      obtain ⟨defaults, rfl⟩ := noteDefault_eq notes
      have adds := sound.addInput v.name type
      obtain ⟨unset', has'', bare'⟩ := @ih (Scope.addInput { before with defaults } v.name type).2
        (vs ++ [v]) adds.sound (unset.addInput InputPort.lasts_isUnset adds) has' bare later
      refine ⟨unset', ?_, bare'⟩
      rwa [List.append_assoc] at has''
    · cases first

end Scope

namespace Builder

variable {builder after : Builder} {options : BuildOptions} {ledger : Ledger} {nest : Nest} {e : Expr}

/-- Whether a build between two statements has the defaults that the statements before have written:
the scopes those of their notes, and the definitions those of the last groups of their names. -/
structure Recounts (options : BuildOptions) (ledger : Ledger) (builder : Builder) : Prop where
  chosen : builder.options = options
  recorded : builder.root.Recorded options builder.opened ledger.here ledger.around
  library : ∀ name definition, builder.library.get? name = some definition →
    ∃ notes, ledger.ended.get? name = some notes ∧
      definition.HasDefaultsOf (notes.counted options)

/-- The innermost scope is what it has been replaced by. -/
theorem scope_setScope (scope : Scope) : (builder.setScope scope).scope = scope := by
  obtain ⟨options', root, opened, library⟩ := builder
  cases opened <;> rfl

/-- Replacing the innermost scope by itself changes nothing. -/
theorem setScope_scope (builder : Builder) : builder.setScope builder.scope = builder := by
  obtain ⟨options', root, opened, library⟩ := builder
  cases opened <;> rfl

/-- A build starts without notes. -/
theorem recounts_start (options : BuildOptions) : (start options).Recounts options .start where
  chosen := rfl
  recorded := .root (Scope.records_empty rootName)
  library name definition found := by simp [start] at found

namespace Recounts

section

variable (recounts : builder.Recounts options ledger)
include recounts

/-- The innermost scope has the defaults of its notes. -/
theorem scope : builder.scope.Records options ledger.here := by
  obtain ⟨options', root, opened, library⟩ := builder
  obtain ⟨here, around, ended⟩ := ledger
  have recorded := recounts.recorded
  cases recorded with
  | root records => exact records
  | group records rest => exact records

/-- Another innermost scope has the defaults of other notes. -/
theorem setScope {new : Scope} {notes : Notes} (records : new.Records options notes) :
    (builder.setScope new).Recounts options { ledger with here := notes } := by
  refine ⟨(options_setScope new).trans recounts.chosen, ?_, by
    rw [library_setScope]; exact recounts.library⟩
  obtain ⟨options', root, opened, library⟩ := builder
  obtain ⟨here, around, ended⟩ := ledger
  have recorded := recounts.recorded
  cases recorded with
  | root _ => exact .root records
  | @group group _ _ _ _ _ rest =>
    exact @Scope.Recorded.group _ _ { group with scope := new } _ _ _ _ records rest

/-- At the start of a statement the innermost scope is ready. -/
theorem atStatement : builder.atStatement.Recounts options ledger ∧
    builder.atStatement.scope.Ready options ledger.here := by
  have ready := recounts.scope.ready
  unfold Builder.atStatement
  rw [recounts.chosen]
  split
  · rename_i isolated
    rw [if_pos isolated] at ready
    refine ⟨recounts.setScope ready.records, ?_⟩
    rw [scope_setScope]
    exact ready
  · rename_i shared
    rw [if_neg shared] at ready
    exact ⟨recounts, ready⟩

/-- An output reads the variables of its expression. -/
theorem output (tidy : builder.Tidy) (ready : builder.scope.Ready options ledger.here) {name : String}
    {type : SocketType} (done : builder.output name type e = .ok after) :
    after.Recounts options { ledger with here := ledger.here.add e.defaulted } := by
  obtain rfl := recounts.chosen
  obtain ⟨scope, lowered, rfl⟩ := output_eq_ok done
  have adds := tidy.scope.runnable.sound.addOutput name type
  obtain ⟨⟨source, built⟩, builds, links⟩ := bind_eq_ok_iff.1 lowered
  have start := tidy.scope.addOutput adds
  have unset := lowerInto_meets InputPort.lasts_isUnset tidy.library start
    (ready.unset.addOutput adds) lowered
  have begun : Scope.Reads builder.options.optimize (ledger.here.past builder.options)
      (ledger.here.present builder.options) { builder.scope with
        graph := (builder.scope.graph.addOutput name type).2 } := ready.reads.congr rfl rfl
  have reads := lower_keeps_reads.1 e _ _ _ _ begun builds
  obtain ⟨graph, linked, same⟩ := bind_eq_ok_iff.1 links
  cases same
  exact recounts.setScope (Scope.records_add unset (reads.congr rfl rfl))

/-- An instance that is added reads the variables of its inputs. -/
theorem addInstance (tidy : builder.Tidy) (ready : builder.scope.Ready options ledger.here)
    {directive : String} {arguments : List Expr}
    (done : builder.addInstance directive arguments = .ok after) : after.Recounts options
      { ledger with here := ledger.here.add ((arguments.drop 2).flatMap defaulted) } := by
  obtain rfl := recounts.chosen
  obtain ⟨group, recipe, fed, called, graph, made, feeds, labels, rfl⟩ := addInstance_eq_ok done
  obtain ⟨other, added⟩ := tidy.addInstanceNode made
  have unset := (lower_meets InputPort.lasts_isUnset tidy.library builder.options.optimize).2 _ _ _ _ _
    added.tidy feeds (ready.unset.addNode tidy.scope.runnable.sound other)
  have begun : Scope.Reads builder.options.optimize (ledger.here.past builder.options)
      (ledger.here.present builder.options) (builder.scope.addNode recipe.node) :=
    ready.reads.congr rfl rfl
  have reads := lower_keeps_reads.2 _ _ _ _ _ begun feeds
  rw [Recipe.map_operands_ofGroup made] at reads
  exact recounts.setScope (Scope.records_add (unset.setLabel labels) (reads.congr rfl rfl))

/-- The start of a group notes the inputs that it declares. -/
theorem startGroup (name : String) {directive : String} {args : Expr}
    (done : builder.startGroup directive args.arguments = .ok after) :
    ∃ group, Expr.directiveMark? .groupStart args.arguments = some (.opens group) ∧
      after.Recounts options ⟨⟨(Expr.call name args).declared, []⟩,
        (group, ledger.here) :: ledger.around, ledger.ended⟩ := by
  obtain ⟨argument, inputs, group, scope, listed, named, declared, rfl⟩ := startGroup_eq_ok done
  have none : (Scope.empty group).HasDefaultsOf [] := fun _ => rfl
  obtain ⟨unset, has, bare⟩ := Scope.records_declared (Graph.sound_empty group)
    (Graph.inputsMeet_empty group) none rfl declared
  rw [Expr.declared_call name listed]
  refine ⟨group, ?_, recounts.chosen, .group (Scope.records_of_declared unset has bare)
    recounts.recorded, recounts.library⟩
  simp [Expr.directiveMark?, listed, Expr.soleName?_of_plainName named]

/-- A group that ends gets the defaults of its notes, and other definitions keep theirs. -/
theorem endGroup (follows : builder.Follows nest) {directive : String} {arguments : List Expr}
    (done : builder.endGroup directive arguments = .ok after) : ∃ name outer around,
      Expr.directiveMark? .groupEnd arguments = some (.closes name) ∧
        ledger.around = (name, outer) :: around ∧
          after.Recounts options ⟨outer, around, ledger.ended.insert name ledger.here⟩ := by
  obtain ⟨argument, group, rest, site, rfl, named, opened, closed, rfl⟩ := endGroup_eq_ok done
  obtain ⟨here, around, ended⟩ := ledger
  have recorded := recounts.recorded
  rw [opened] at recorded
  cases recorded with
  | @group _ _ _ outer around records rest =>
    obtain ⟨-, -, -, -, -, merges⟩ := follows.closeInnermost opened closed
    obtain ⟨tidy, -⟩ := follows.tidy.opened group (by simp [opened])
    obtain ⟨report, cleaned⟩ := close_eq_ok closed
    have set := Cleanup.all_sets_defaults ⟨tidy.runnable, follows.tidy.library⟩ records.unset cleaned
    refine ⟨group.name, outer, around, ?_, rfl, recounts.chosen, rest, fun name definition found => ?_⟩
    · simp [Expr.directiveMark?, Expr.soleName?_of_plainName named]
    · rw [Table.get?_insert] at found ⊢
      split at found
      · cases found
        rename_i same
        rw [if_pos same]
        exact ⟨here, rfl, fun input id listed => records.defaults input ▸ set input id listed⟩
      · rename_i other
        rw [if_neg other]
        obtain ⟨old, found', merged⟩ := merges.exists_of_get? found
        obtain ⟨notes, ended', has⟩ := recounts.library name old found'
        exact ⟨notes, ended', has.mergesInputs merged⟩

/-- A statement that reads nothing notes nothing. -/
theorem readNothing (ready : builder.scope.Ready options ledger.here) {new : Scope}
    (graph : new.graph = builder.scope.graph) (defaults : new.defaults = builder.scope.defaults)
    (built : new.built = builder.scope.built) :
    (builder.setScope new).Recounts options { ledger with here := ledger.here.add [] } := by
  refine recounts.setScope (Scope.records_add (by rw [graph]; exact ready.unset) ?_)
  rw [List.append_nil]
  exact ready.reads.congr defaults built

/-- A statement has the variables noted that it reads, or starts or ends a scope. -/
theorem statement (follows : builder.Follows nest) (done : builder.statement e = .ok after) :
    after.Recounts options (ledger.step e) := by
  obtain ⟨recounts, ready⟩ := recounts.atStatement
  have follows := follows.atStatement
  obtain rfl | ⟨name, args, directive, rfl, called⟩ | ⟨target, tree, rfl⟩ | bare :=
    e.statement_cases
  · cases done
    have silent := recounts.readNothing ready rfl rfl rfl
    rw [setScope_scope] at silent
    exact silent
  · rw [statement_of_directive called] at done
    have mark := Expr.mark?_of_directive called args
    cases directive with
    | groupStart =>
      obtain ⟨group, opens, recounts'⟩ := recounts.startGroup name done
      rwa [Ledger.step, mark, opens]
    | groupEnd =>
      obtain ⟨group, outer, around, closes, inside, recounts'⟩ := recounts.endGroup follows done
      rw [Ledger.step, mark, closes]
      simp only [inside]
      exact recounts'
    | groupAdd =>
      have read : (Expr.call name args).read = (args.arguments.drop 2).flatMap defaulted := by
        simp only [Expr.read, called]
      rw [Ledger.step, mark]
      simp only [Expr.directiveMark?, read]
      exact recounts.addInstance follows.tidy ready done
    | inputs | outputs =>
      have read : (Expr.call name args).read = [] := by simp only [Expr.read, called]
      obtain ⟨names, -, same⟩ := bind_eq_ok_iff.1 done
      cases same
      rw [Ledger.step, mark]
      simp only [Expr.directiveMark?, read]
      exact recounts.readNothing ready rfl rfl rfl
  · rw [statement_of_assign] at done
    obtain ⟨output, named, done⟩ := bind_eq_ok_iff.1 done
    have mark : (Expr.binary .assign target tree).mark? = some (.gives output) := by
      simp [Expr.mark?, Expr.assigned?_of_outputTarget named]
    rw [Ledger.step, mark]
    exact recounts.output follows.tidy ready done
  · rw [statement_of_bare bare] at done
    rw [Ledger.step, bare.mark?_eq]
    have read : e.read = e.defaulted := by
      cases e with
      | call name args => simp only [Expr.read, bare.call name args rfl]
      | binary op lhs rhs =>
        cases op with
        | assign => exact absurd rfl (bare.unnamed lhs rhs)
        | _ => rfl
      | _ => rfl
    simp only [read]
    exact recounts.output follows.tidy ready done

end

/-- Statements have the variables noted that they read, scope by scope. -/
theorem statements {statements : List Expr} (recounts : builder.Recounts options ledger)
    (follows : builder.Follows nest)
    (done : statements.foldlM Builder.statement builder = .ok after) :
    after.Recounts options (statements.foldl Ledger.step ledger) := by
  induction statements generalizing builder ledger nest with
  | nil =>
    cases done
    exact recounts
  | cons e rest ih =>
    rw [List.foldlM_cons] at done
    obtain ⟨between, first, later⟩ := bind_eq_ok_iff.1 done
    have recounts' := recounts.statement follows first
    rcases follows.statement first with ⟨-, -, follows'⟩ | ⟨-, next, -, -, follows'⟩
    · exact ih recounts' follows' later
    · exact ih recounts' follows' later

end Recounts

end Builder

/-- The inputs of what is built have the defaults that the source writes for them. Each input of the
root has the last default among the variables that count for the root, in every component, or zero
if there is none; and each input of a definition has that among the variables that count for the
last group of the name. -/
theorem Expr.build_sets_defaults {e : Expr} {options : BuildOptions} {site : Site}
    (built : e.build options = .ok site) :
    site.graph.HasDefaultsOf ((Ledger.of e).here.counted options) ∧
      ∀ name definition, site.library.get? name = some definition → ∃ notes,
        (Ledger.of e).ended.get? name = some notes ∧
          definition.HasDefaultsOf (notes.counted options) := by
  obtain ⟨builder, stated, finished⟩ := bind_eq_ok_iff.1 built
  obtain ⟨⟨nest, -, follows⟩, -⟩ := (Builder.follows_start options).statements stated
  have recounts := (Builder.recounts_start options).statements (Builder.follows_start options) stated
  change builder.Recounts options (Ledger.of e) at recounts
  generalize Ledger.of e = ledger at recounts ⊢
  unfold Builder.finish at finished
  split at finished
  · cases finished
  · rename_i settled
    obtain ⟨here, around, ended⟩ := ledger
    have recorded := recounts.recorded
    have stacked := follows.stacked
    rw [settled] at recorded stacked
    cases recorded with
    | root records =>
      cases stacked' : nest.around with
      | cons first rest =>
        rw [stacked'] at stacked
        cases stacked
      | nil =>
        obtain ⟨-, merges⟩ := follows.close follows.tidy.root
          (by rw [stacked'] at stacked; cases stacked with | root fulfils => exact fulfils) finished
        obtain ⟨report, cleaned⟩ := Builder.close_eq_ok finished
        have set := Cleanup.all_sets_defaults ⟨follows.tidy.root.runnable, follows.tidy.library⟩
          records.unset cleaned
        refine ⟨fun input id listed => records.defaults input ▸ set input id listed,
          fun name definition found => ?_⟩
        obtain ⟨old, found', merged⟩ := merges.exists_of_get? found
        obtain ⟨notes, ended', has⟩ := recounts.library name old found'
        exact ⟨notes, ended', has.mergesInputs merged⟩

/-- Where no name has two different numbers, a graph with the defaults that count has the last ones. -/
theorem Graph.HasDefaultsOf.of_isUnivocal {graph : Graph} {notes : Notes} {options : BuildOptions}
    (has : graph.HasDefaultsOf (notes.counted options)) (univocal : notes.IsUnivocal) :
    graph.HasDefaultsOf notes.all :=
  fun name id listed => notes.lastDefault?_counted options univocal name ▸ has name id listed

/-- A build without reuse gives each input the last default that is written for its name in its
scope, and a build with reuse gives each input the same default if no name has two different ones in
the scope. -/
theorem Expr.build_reuse_keeps_defaults {e : Expr} {options : BuildOptions} {site site' : Site}
    (reusing : e.build { options with optimize := true } = .ok site)
    (separate : e.build { options with optimize := false } = .ok site') :
    (site'.graph.HasDefaultsOf (Ledger.of e).here.all ∧
      ((Ledger.of e).here.IsUnivocal → site.graph.HasDefaultsOf (Ledger.of e).here.all)) ∧
    ∀ name definition definition', site.library.get? name = some definition →
      site'.library.get? name = some definition' → ∃ notes,
        (Ledger.of e).ended.get? name = some notes ∧ definition'.HasDefaultsOf notes.all ∧
          (notes.IsUnivocal → definition.HasDefaultsOf notes.all) := by
  obtain ⟨root, definitions⟩ := build_sets_defaults reusing
  obtain ⟨root', definitions'⟩ := build_sets_defaults separate
  refine ⟨⟨?_, root.of_isUnivocal⟩, fun name definition definition' found found' => ?_⟩
  · rwa [Notes.counted_of_not_optimize _ _ rfl] at root'
  · obtain ⟨notes, ended, has⟩ := definitions name definition found
    obtain ⟨notes', ended', has'⟩ := definitions' name definition' found'
    cases ended.symm.trans ended'
    rw [Notes.counted_of_not_optimize _ _ rfl] at has'
    exact ⟨notes, ended, has', has.of_isUnivocal⟩

/-- A sum of an input that is written with a default, with another one and with the first one again. -/
def Expr.repeatedDefault : Expr :=
  let read (text : String) : Expr := .var ⟨"x", some text, none⟩
  .binary .assign (.var ⟨"out", none, none⟩)
    (.binary .add (.binary .add (read "1") (read "2")) (read "1"))

/-- The default that is repeated does not count while trees are used again, and without reuse it is
the last one. -/
example : (Ledger.of Expr.repeatedDefault).here.counted .standard =
      [⟨"x", some "1", none⟩, ⟨"x", some "2", none⟩] ∧
    (Ledger.of Expr.repeatedDefault).here.counted .literal =
      [⟨"x", some "1", none⟩, ⟨"x", some "2", none⟩, ⟨"x", some "1", none⟩] := by
  decide +kernel

end Shadeloom
