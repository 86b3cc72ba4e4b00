import Mathlib
import Shadeloom.Proofs.Build.Needs
import Shadeloom.Proofs.Build.Outcomes
/-!
# Where the errors of a build arise

A build is refused where a tree has no plan, where a variable cannot be read, where an output is
given nothing, where a directive cannot be carried out, where groups are not nested, and where a
cleanup meets a cyclic definition or the graph refuses an edit. Trees that are planned are built by
a statement, or their nodes feed one that is; so what holds of the trees that statements build, and
goes over to what their nodes are fed with, holds where an error arises.
-/
namespace Shadeloom

open Shadeloom.Expr

/-- Whether a property of a tree goes over to what its node is fed with. -/
def Expr.IsHereditary (p : Expr → Prop) : Prop :=
  ∀ library e recipe, p e → Plan.of library e = .ok (.make recipe) →
    ∀ operand ∈ recipe.operands, p operand.2

/-- Whether a property holds of the trees that a statement builds: of an expression, with a name or
without, and of the arguments of a directive that adds an instance. -/
structure Expr.Builds (p : Expr → Prop) (statement : Expr) : Prop where
  bare : statement.IsBare → p statement
  named : ∀ target value, statement = .binary .assign target value → value.isEmpty = false → p value
  added : ∀ name args, statement = .call name args →
    Builder.directive? name = some .groupAdd → ∀ argument ∈ args.arguments, p argument

/-- What holds of every part of a statement holds of every part of what it builds. -/
theorem Expr.Every.builds {p : Expr → Prop} {statement : Expr} (every : statement.Every p) :
    statement.Builds fun e => e.Every p where
  bare _ := every
  named target value same _ := by
    subst same
    exact (every_binary.1 every).2.2
  added name args same _ := by
    subst same
    exact (every_call.1 every).2.arguments

/-- Where an error of building a tree arises, when a property holds of the trees that are built. -/
inductive BuildError.Stops (p : Expr → Prop) : BuildError → Prop
  /-- A tree has no plan. -/
  | plan {library : Library} {e : Expr} {error : BuildError} (holds : p e)
    (planned : Plan.of library e = .error error) : Stops p error
  /-- A variable cannot be read. -/
  | read {scope : Scope} {v : Variable} {error : BuildError} (holds : p (.var v))
    (reads : scope.readVariable v = .error error) : Stops p error
  | graph (error : GraphError) : Stops p (.graph error)

/-- Where an error of the build of statements arises, when a property holds of the trees that they
build. -/
inductive BuildError.Arises (p : Expr → Prop) (statements : List Expr) : BuildError → Prop
  /-- A tree cannot be built. -/
  | tree {error : BuildError} (stops : error.Stops p) : Arises p statements error
  /-- A directive cannot add an instance. -/
  | added {library : Library} {name group : String} {es : List Expr} {error : BuildError}
    (called : Builder.directive? name = some .groupAdd)
    (made : Recipe.ofGroup library name group es = .error error) : Arises p statements error
  /-- The default of an input that a group declares is no number. -/
  | declared (text : String) : Arises p statements (.invalidLiteral text)
  /-- An output is given nothing. -/
  | unassigned {target : Expr} {name : String} {type : SocketType}
    (here : .binary .assign target .empty ∈ statements)
    (named : Builder.outputTarget target = .ok (name, type)) :
    Arises p statements (.missingOperand name)
  | directive (name : String) (fault : DirectiveFault) :
    Arises p statements (.invalidDirective name fault)
  | unopened (name : String) : Arises p statements (.missingGroupContext name)
  | mismatched (expected found : String) : Arises p statements (.groupMismatch expected found)
  | unended (name : String) : Arises p statements (.unterminatedGroup name)
  | cyclic (name : String) : Arises p statements (.cyclicDefinition name)

section

variable {p : Expr → Prop} {library : Library} {reuse : Bool} {error : BuildError}

/-- A refused edit is refused by the graph. -/
theorem GraphError.lift_refused {α : Type} {edit : Except GraphError α}
    (refused : GraphError.lift edit = .error error) : ∃ fault, error = .graph fault := by
  cases edit with
  | ok a => cases refused
  | error fault => cases refused; exact ⟨fault, rfl⟩

/-- A refused link is refused by the graph. -/
theorem Scope.connect_refused {scope : Scope} {source target : Socket}
    (refused : scope.connect source target = .error error) : ∃ fault, error = .graph fault := by
  rcases bind_eq_error_iff.1 refused with first | ⟨_, _, impossible⟩
  · exact GraphError.lift_refused first
  · cases impossible

/-- A variable cannot be read for its instance, its default or its subscript, or for the graph. -/
theorem Scope.readVariable_refused {scope : Scope} {v : Variable}
    (refused : scope.readVariable v = .error error) :
    (∃ name, error = .unknownInstance name) ∨ (∃ name socket, error = .unknownSocket name socket) ∨
      (∃ text, error = .invalidLiteral text) ∨
      (∃ subscript, v.subscript = some subscript ∧ Variable.isKnownSubscript subscript = false ∧
        Text.afterStart? Function.instanceMark v.name = none ∧
        error = .badSubscript v.text subscript) ∨ ∃ fault, error = .graph fault := by
  unfold Scope.readVariable at refused
  split at refused
  · rcases bind_eq_error_iff.1 refused with reads | ⟨_, _, impossible⟩
    · unfold Scope.instanceOutput at reads
      split at reads
      · cases reads
        exact .inl ⟨_, rfl⟩
      · split at reads
        · cases reads
        · cases reads
        · split at reads <;> cases reads
          exact .inr (.inl ⟨_, _, rfl⟩)
    · cases impossible
  · rename_i plain
    rcases bind_eq_error_iff.1 refused with noted | ⟨noted, -, refused⟩
    · exact .inr (.inr (.inl (Scope.noteDefault_refused noted)))
    · split at refused
      · cases refused
      · cases refused
      · rename_i subscript unnamed named
        split at refused
        · rename_i unknown
          cases refused
          refine .inr (.inr (.inr (.inl ⟨subscript, named, ?_, plain, rfl⟩)))
          simp only [Variable.isKnownSubscript, unknown, Option.isSome_none, Bool.or_false,
            decide_eq_false_iff_not]
          exact unnamed
        · rcases bind_eq_error_iff.1 refused with splits | ⟨_, _, impossible⟩
          · unfold Scope.split at splits
            split at splits
            · cases splits
            · rcases bind_eq_error_iff.1 splits with links | ⟨_, _, impossible⟩
              · exact .inr (.inr (.inr (.inr (Scope.connect_refused links))))
              · cases impossible
          · cases impossible

/-- Whether an error tells of one tree, and not of how groups are nested or names are defined. -/
def BuildError.isLocal : BuildError → Bool
  | .missingGroupContext _ | .groupMismatch _ _ | .unterminatedGroup _ | .cyclicDefinition _ => false
  | _ => true

/-- An error of building a tree tells of the tree. -/
theorem BuildError.Stops.isLocal (stops : error.Stops p) : error.isLocal = true := by
  cases stops with
  | plan _ planned => cases Plan.refused planned <;> rfl
  | read _ reads =>
    obtain ⟨_, rfl⟩ | ⟨_, _, rfl⟩ | ⟨_, rfl⟩ | ⟨_, _, _, _, rfl⟩ | ⟨_, rfl⟩ :=
      Scope.readVariable_refused reads
    all_goals rfl
  | graph => rfl

/-- Where the errors of building a tree, or the operands of a node, arise. -/
theorem lower_stops (hereditary : IsHereditary p) :
    (∀ e scope, ∀ error, p e → lower library reuse e scope = .error error →
      error.Stops p) ∧
    ∀ operands id scope, ∀ error, (∀ operand ∈ operands, p operand.2) →
      feed library reuse operands id scope = .error error → error.Stops p := by
  apply lower.mutual_induct library reuse
    (fun e scope => ∀ error, p e → lower library reuse e scope = .error error →
      error.Stops p)
    (fun operands id scope => ∀ error, (∀ operand ∈ operands, p operand.2) →
      feed library reuse operands id scope = .error error → error.Stops p)
  case case1 =>
    intro e scope socket found error holds refused
    rw [lower_of_remembered found] at refused
    cases refused
  case case2 =>
    intro e scope fresh fault planned error holds refused
    rw [lower_of_refused fresh planned] at refused
    cases refused
    exact .plan holds planned
  case case3 =>
    intro e scope fresh v planned error holds refused
    rw [lower_of_read fresh planned] at refused
    rcases bind_eq_error_iff.1 refused with reads | ⟨_, _, impossible⟩
    · cases Plan.eq_var_of_read planned
      exact .read holds reads
    · cases impossible
  case case4 =>
    intro e scope fresh recipe planned id fed error holds refused
    rw [lower_of_make fresh planned] at refused
    rcases bind_eq_error_iff.1 refused with feeds | ⟨_, _, impossible⟩
    · exact fed error (hereditary library e recipe holds planned) feeds
    · cases impossible
  case case5 =>
    intro id scope error holds refused
    rw [feed] at refused
    cases refused
  case case6 =>
    intro id scope place e rest first others error holds refused
    rw [feed] at refused
    rcases bind_eq_error_iff.1 refused with lowers | ⟨⟨source, built⟩, lowers, refused⟩
    · exact first error (holds (place, e) (by simp)) lowers
    · rcases bind_eq_error_iff.1 refused with links | ⟨linked, links, feeds⟩
      · obtain ⟨fault, rfl⟩ := Scope.connect_refused links
        exact .graph fault
      · exact others linked error (fun operand mem => holds operand (by simp [mem])) feeds

end

namespace Builder

variable {p : Expr → Prop} {statements : List Expr} {builder : Builder} {error : BuildError}

/-- Where an error of a cleanup arises. -/
theorem close_arises (tidy : builder.Tidy) {scope : Scope} (tidy' : scope.Tidy builder.library [])
    (refused : builder.close scope = .error error) : error.Arises p statements := by
  rcases tidy.close_outcome tidy' with ⟨site, closed, -⟩ | ⟨name, knot⟩
  · cases closed.symm.trans refused
  · cases knot.symm.trans refused
    exact .cyclic name

/-- Where an error of an output arises that is given an expression. -/
theorem output_stops (hereditary : IsHereditary p) {name : String} {type : SocketType} {e : Expr}
    (present : e.isEmpty = false) (holds : p e)
    (refused : builder.output name type e = .error error) : error.Stops p := by
  unfold Builder.output at refused
  rw [present] at refused
  dsimp only at refused
  rcases bind_eq_error_iff.1 refused with lowered | ⟨_, _, impossible⟩
  · rcases bind_eq_error_iff.1 lowered with lowers | ⟨⟨source, built⟩, -, links⟩
    · exact (lower_stops hereditary).1 e _ error holds lowers
    · obtain ⟨fault, rfl⟩ := Scope.connect_refused links
      exact .graph fault
  · cases impossible

/-- Where an error of the start of a group arises. -/
theorem startGroup_arises {directive : String} {arguments : List Expr}
    (refused : builder.startGroup directive arguments = .error error) : error.Arises p statements := by
  obtain ⟨fault, rfl⟩ | ⟨text, rfl⟩ := startGroup_refused refused
  · exact .directive directive fault
  · exact .declared text

/-- Where an error of the end of a group arises. -/
theorem endGroup_arises (tidy : builder.Tidy) {directive : String} {arguments : List Expr}
    (refused : builder.endGroup directive arguments = .error error) : error.Arises p statements := by
  unfold Builder.endGroup at refused
  split at refused
  · rcases bind_eq_error_iff.1 refused with named | ⟨name, -, refused⟩
    · obtain ⟨fault, rfl⟩ := plainName_refused named
      exact .directive directive fault
    · split at refused
      · cases refused
        exact .unopened _
      · rename_i group rest opened
        split at refused
        · cases refused
          exact .mismatched _ _
        · dsimp only at refused
          rcases bind_eq_error_iff.1 refused with closed | ⟨_, _, impossible⟩
          · exact close_arises tidy (tidy.opened group (by simp [opened])).1 closed
          · cases impossible
  · cases refused
    exact .directive _ _

/-- An instance that a directive adds is refused for its names, for its group or its arguments, or
where they are built. -/
theorem addInstance_refused (hereditary : IsHereditary p) {directive : String}
    {arguments : List Expr} (holds : ∀ argument ∈ arguments, p argument)
    (refused : builder.addInstance directive arguments = .error error) :
    (∃ fault, error = .invalidDirective directive fault) ∨
      (∃ group inputs, Recipe.ofGroup builder.library directive group inputs = .error error) ∨
        error.Stops p := by
  unfold Builder.addInstance at refused
  split at refused
  · rename_i group name inputs
    rcases bind_eq_error_iff.1 refused with named | ⟨group, -, refused⟩
    · exact .inl (plainName_refused named)
    · rcases bind_eq_error_iff.1 refused with named | ⟨name, -, refused⟩
      · exact .inl (plainName_refused named)
      · rcases bind_eq_error_iff.1 refused with made | ⟨recipe, made, refused⟩
        · exact .inr (.inl ⟨group, inputs, made⟩)
        · rcases bind_eq_error_iff.1 refused with feeds | ⟨fed, -, refused⟩
          · refine .inr (.inr ((lower_stops hereditary).2 _ _ _ error (fun operand mem => ?_) feeds))
            refine holds _ (List.mem_cons_of_mem _ (List.mem_cons_of_mem _ ?_))
            exact Recipe.mem_of_ofGroup made mem
          · rcases bind_eq_error_iff.1 refused with labels | ⟨_, _, impossible⟩
            · obtain ⟨fault, rfl⟩ := GraphError.lift_refused labels
              exact .inr (.inr (.graph fault))
            · cases impossible
  · cases refused
    exact .inl ⟨_, rfl⟩

/-- Where an error of an instance that a directive adds arises. -/
theorem addInstance_arises (hereditary : IsHereditary p) {directive : String}
    (called : directive? directive = some .groupAdd) {arguments : List Expr}
    (holds : ∀ argument ∈ arguments, p argument)
    (refused : builder.addInstance directive arguments = .error error) : error.Arises p statements := by
  rcases addInstance_refused hereditary holds refused with ⟨fault, rfl⟩ | ⟨group, inputs, made⟩ | stops
  · exact .directive directive fault
  · exact .added called made
  · exact .tree stops

/-- Where an error of a directive arises. -/
theorem directive_arises (tidy : builder.Tidy) (hereditary : IsHereditary p)
    {directive : Directive} {name : String} (called : directive? name = some directive)
    {arguments : List Expr}
    (holds : directive = .groupAdd → ∀ argument ∈ arguments, p argument)
    (refused : builder.directive directive name arguments = .error error) : error.Arises p statements := by
  cases directive with
  | groupStart => exact startGroup_arises refused
  | groupEnd => exact endGroup_arises tidy refused
  | groupAdd => exact addInstance_arises hereditary called (holds rfl) refused
  | inputs | outputs =>
    rcases bind_eq_error_iff.1 refused with named | ⟨_, _, impossible⟩
    · obtain ⟨fault, rfl⟩ := plainNames_refused named
      exact .directive name fault
    · cases impossible

/-- Where an error of a statement arises. -/
theorem statement_arises (tidy : builder.Tidy) (hereditary : IsHereditary p) {e : Expr}
    (builds : e.Builds p) (here : e ∈ statements) (refused : builder.statement e = .error error) :
    error.Arises p statements := by
  obtain rfl | ⟨name, args, directive, rfl, called⟩ | ⟨target, tree, rfl⟩ | bare :=
    e.statement_cases
  · cases refused
  · rw [statement_of_directive called] at refused
    refine directive_arises tidy.atStatement hereditary called ?_ refused
    rintro rfl
    exact builds.added name args rfl called
  · rw [statement_of_assign] at refused
    rcases bind_eq_error_iff.1 refused with named | ⟨⟨name, type⟩, named, refused⟩
    · obtain ⟨fault, rfl⟩ := outputTarget_refused named
      exact .directive "=" fault
    · cases present : tree.isEmpty with
      | false =>
        exact .tree (output_stops hereditary present (builds.named target tree rfl present) refused)
      | true =>
        obtain rfl := Expr.isEmpty_iff.1 present
        cases refused
        exact .unassigned here named
  · rw [statement_of_bare bare] at refused
    exact .tree (output_stops hereditary bare.isEmpty (builds.bare bare) refused)

end Builder

/-- Where an error of a build arises. -/
theorem Expr.build_arises {p : Expr → Prop} (hereditary : IsHereditary p) {e : Expr}
    (builds : ∀ statement ∈ e.arguments, statement.Builds p) {options : BuildOptions}
    {error : BuildError} (refused : e.build options = .error error) :
    error.Arises p e.arguments := by
  have start := Builder.tidy_start options
  rcases bind_eq_error_iff.1 refused with stopped | ⟨builder, built, finished⟩
  · obtain ⟨done, here, rest, builder, listed, built, stopped⟩ := foldlM_eq_error_iff.1 stopped
    have mem : here ∈ e.arguments := by simp [listed]
    exact Builder.statement_arises (start.statements built) hereditary (builds here mem) mem stopped
  · have tidy := start.statements built
    unfold Builder.finish at finished
    split at finished
    · cases finished
      exact .unended _
    · exact Builder.close_arises tidy tidy.root finished

end Shadeloom
