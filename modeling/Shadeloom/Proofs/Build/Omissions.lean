import Mathlib
import Shadeloom.Proofs.Build.Fitting
/-!
# What the check passes over

The check of a source finds missing operands and unknown subscripts before anything is built, but
for two of them. An assignment is no operation that the check looks at, so that one of nothing is
only found when its output is built. And the check takes an underscore off the front of a name
before it looks for the mark of an instance, which a build does not. Nothing else that is missing or
unknown is left to a build.
-/
namespace Shadeloom

open Shadeloom.Expr

/-- Whether an error tells of a missing operand or of an unknown subscript. -/
def BuildError.IsOmission : BuildError → Prop
  | .missingOperand _ => True
  | .badSubscript _ _ => True
  | _ => False

namespace Expr

/-- Whether a tree, if it is a variable, is one of some and has a subscript that passes the check,
and misses no operand unless it only puts its sides together. -/
structure IsComplete (vs : List Variable) (e : Expr) : Prop where
  variable_ : ∀ v, e = .var v → v ∈ vs ∧ v.checkSubscript = .ok ()
  operands : e.isStructural = false → ∀ operand ∈ e.operands, operand.isEmpty = false

variable {vs : List Variable} {e : Expr}

/-- A call misses no operand that passes the check. -/
theorem isEmpty_of_checkCall {name : String} {operands : List Expr}
    (checked : checkCall name operands = .ok ()) :
    ∀ operand ∈ operands, operand.isEmpty = false := by
  unfold checkCall at checked
  split at checked
  · cases checked
  · rename_i present
    simpa using present

/-- No operand of an operation is missing that passes the check. -/
theorem isEmpty_of_checkOperation (checked : e.checkOperation = .ok ())
    (computes : e.isStructural = false) : ∀ operand ∈ e.operands, operand.isEmpty = false := by
  unfold checkOperation at checked
  split at checked
  · rename_i op lhs rhs
    rw [show op.isStructural = false from computes] at checked
    exact isEmpty_of_checkCall checked
  · split at checked
    · rename_i unnamed
      have none : e.operands = [] := by
        cases e <;> first | rfl | cases unnamed
      simp [none]
    · exact isEmpty_of_checkCall checked

/-- All parts of a tree that passes the check are complete. -/
theorem every_isComplete_of_check (checked : e.check = .ok ()) :
    e.Every (IsComplete e.usedVariables) := by
  obtain ⟨variables_, -, operations⟩ := of_check checked
  refine fun part mem => ⟨?_, isEmpty_of_checkOperation (operations part mem)⟩
  rintro v rfl
  have used : v ∈ e.usedVariables := List.mem_filterMap.2 ⟨.var v, mem, rfl⟩
  obtain ⟨⟨⟩, -, later⟩ := bind_eq_ok_iff.1 (variables_ v used)
  obtain ⟨⟨⟩, subscript, -⟩ := bind_eq_ok_iff.1 later
  exact ⟨used, subscript⟩

end Expr

/-- A subscript that passes the check without being known stands after the mark of an instance,
which an underscore may precede. -/
theorem Variable.shownName_of_checkSubscript {v : Variable} {subscript : String}
    (named : v.subscript = some subscript) (unknown : isKnownSubscript subscript = false)
    (checked : v.checkSubscript = .ok ()) :
    ∃ rest, v.shownName = Function.instanceMark.toList ++ rest := by
  unfold checkSubscript at checked
  rw [named] at checked
  simp only [unknown, Bool.or_false] at checked
  split at checked
  · rename_i marked
    obtain ⟨rest, start⟩ := Option.isSome_iff_exists.1 marked
    exact ⟨rest, Text.dropStart?_eq_some_iff.1 start⟩
  · cases checked

/-- A variable that shows the mark of an instance without being a reference to one has an underscore
before it. -/
theorem Variable.name_of_shownName {v : Variable} {rest : List Char}
    (shown : v.shownName = Function.instanceMark.toList ++ rest)
    (plain : Text.afterStart? Function.instanceMark v.name = none) :
    v.name.toList = '_' :: (Function.instanceMark.toList ++ rest) := by
  unfold shownName at shown
  split at shown
  · rename_i start
    rw [start, shown]
  · unfold Text.afterStart? at plain
    rw [Option.map_eq_none_iff, Text.dropStart?_eq_some_iff.2 shown] at plain
    cases plain

/-- A tree that is there and complete is not refused for an omission. -/
theorem Plan.not_omission {library : Library} {vs : List Variable} {e : Expr}
    {error : BuildError} (present : e.isEmpty = false) (complete : e.IsComplete vs)
    (refused : Plan.of library e = .error error) : ¬ error.IsOmission := by
  cases Plan.refused refused with
  | missing name computes absent =>
    rcases absent with rfl | ⟨operand, mem, absent⟩
    · cases present
    · cases (complete.operands computes operand mem).symm.trans absent
  | comma | misplaced _ | unknown _ | many _ _ | configuration _ _ | group _ | literal _ => exact id

/-- A tree that is planned computes. -/
theorem Plan.isStructural_of_make {library : Library} {e : Expr} {recipe : Recipe}
    (planned : Plan.of library e = .ok (.make recipe)) : e.isStructural = false := by
  cases e with
  | binary op lhs rhs => cases op <;> first | rfl | cases planned
  | _ => rfl

/-- That trees are there and complete goes over to the trees that their nodes are fed with. -/
theorem Expr.isHereditary_isComplete (vs : List Variable) :
    IsHereditary fun e => e.isEmpty = false ∧ e.Every (IsComplete vs) := by
  rintro library e recipe ⟨-, every⟩ planned operand mem
  have present := every.self.operands (Plan.isStructural_of_make planned)
  refine ⟨?_, Recipe.every_fed (fun _ _ => ⟨nofun, nofun⟩) ?_ every planned operand mem⟩
  · rcases Recipe.fed_cases planned operand mem with listed | ⟨_, _, _, _, _, _, _, _, _, _, same⟩
    · exact present _ listed
    · rw [same]
      rfl
  · intro function op first rest found _ named role split many
    refine ⟨nofun, fun _ later mem => present later ?_⟩
    have mem : later ∈ (chain rest).arguments := mem
    rw [arguments_chain_of_math found role named split many] at mem
    simp [split, mem]

/-- An omission that a build finds where trees are there and complete is an assignment of nothing,
or the unknown subscript of a name that shows the mark of an instance behind an underscore. -/
theorem BuildError.Arises.omission {vs : List Variable} {statements : List Expr}
    {error : BuildError} (arises : error.Arises
      (fun e => e.isEmpty = false ∧ e.Every (IsComplete vs)) statements)
    (omission : error.IsOmission) :
    (∃ target name type, .binary .assign target .empty ∈ statements ∧
        Builder.outputTarget target = .ok (name, type) ∧ error = .missingOperand name) ∨
      ∃ v ∈ vs, ∃ subscript rest, v.subscript = some subscript ∧
        Variable.isKnownSubscript subscript = false ∧
        v.name.toList = '_' :: (Function.instanceMark.toList ++ rest) ∧
        error = .badSubscript v.text subscript := by
  cases arises with
  | tree stops =>
    cases stops with
    | plan holds planned => exact absurd omission (Plan.not_omission holds.1 holds.2.self planned)
    | read holds reads =>
      obtain ⟨name, rfl⟩ | ⟨name, socket, rfl⟩ | ⟨text, rfl⟩ |
        ⟨subscript, named, unknown, plain, rfl⟩ | ⟨fault, rfl⟩ := Scope.readVariable_refused reads
      · cases omission
      · cases omission
      · cases omission
      · obtain ⟨listed, checked⟩ := holds.2.self.variable_ _ rfl
        obtain ⟨rest, shown⟩ := Variable.shownName_of_checkSubscript named unknown checked
        exact .inr ⟨_, listed, subscript, rest, named, unknown,
          Variable.name_of_shownName shown plain, rfl⟩
      · cases omission
    | graph _ => cases omission
  | added _ made =>
    obtain rfl | ⟨limit, rfl⟩ := Recipe.ofGroup_refused made <;> cases omission
  | unassigned here named => exact .inl ⟨_, _, _, here, named, rfl⟩
  | declared _ | directive _ _ | unopened _ | mismatched _ _ | unended _ | cyclic _ =>
    cases omission

/-- The statements of a tree that passes the check build trees that are there and complete. -/
theorem Expr.builds_of_check {e : Expr} (checked : e.check = .ok ()) :
    ∀ statement ∈ e.arguments, statement.Builds fun tree =>
      tree.isEmpty = false ∧ tree.Every (IsComplete e.usedVariables) := by
  intro statement mem
  have every := (every_isComplete_of_check checked).arguments statement mem
  have builds := every.builds
  refine ⟨fun bare => ⟨bare.isEmpty, builds.bare bare⟩, fun target value same present =>
    ⟨present, builds.named target value same present⟩, fun name args same called argument given =>
    ⟨?_, builds.added name args same called argument given⟩⟩
  subst same
  exact every.self.operands rfl argument given

/-- A tree with an assignment of nothing is not built. -/
theorem Expr.build_ne_ok_of_unassigned {e target : Expr}
    (unassigned : .binary .assign target .empty ∈ e.arguments) (options : BuildOptions)
    (site : Site) : e.build options ≠ .ok site := by
  intro done
  obtain ⟨builder, built, -⟩ := bind_eq_ok_iff.1 done
  obtain ⟨early, late, split⟩ := List.append_of_mem unassigned
  rw [split, List.foldlM_append] at built
  obtain ⟨before, -, built⟩ := bind_eq_ok_iff.1 built
  rw [List.foldlM_cons, Builder.statement_of_assign] at built
  obtain ⟨after, stated, -⟩ := bind_eq_ok_iff.1 built
  obtain ⟨output, -, given⟩ := bind_eq_ok_iff.1 stated
  cases given

/-- A build of a valid source misses an operand only where a statement assigns nothing to the name
that the error tells, and such a source is never built; it meets an unknown subscript only after a
name that shows the mark of an instance behind an underscore. -/
theorem Source.build_omits {source : String} {e : Expr} (valid : validate source = .ok e)
    (options : BuildOptions) :
    (∀ name, e.build options = .error (.missingOperand name) →
      ∃ target type, .binary .assign target .empty ∈ e.arguments ∧
        Builder.outputTarget target = .ok (name, type)) ∧
      (∀ text subscript, e.build options = .error (.badSubscript text subscript) →
        ∃ v ∈ e.usedVariables, ∃ rest, v.text = text ∧ v.subscript = some subscript ∧
          Variable.isKnownSubscript subscript = false ∧
          v.name.toList = '_' :: (Function.instanceMark.toList ++ rest)) ∧
      ∀ target, .binary .assign target .empty ∈ e.arguments →
        ∀ site, e.build options ≠ .ok site := by
  have checked := (of_validate valid).2.2
  have arises (error : BuildError) (refused : e.build options = .error error) :=
    Expr.build_arises (isHereditary_isComplete _) (builds_of_check checked) refused
  refine ⟨fun name refused => ?_, fun text subscript refused => ?_,
    fun target here => build_ne_ok_of_unassigned here options⟩
  · obtain ⟨target, name', type, here, named, same⟩ | ⟨_, _, _, _, _, _, _, impossible⟩ :=
      (arises (.missingOperand name) refused).omission trivial
    · cases same
      exact ⟨target, type, here, named⟩
    · cases impossible
  · obtain ⟨_, _, _, _, _, impossible⟩ | ⟨v, used, _, rest, named, unknown, shown, same⟩ :=
      (arises (.badSubscript text subscript) refused).omission trivial
    · cases impossible
    · cases same
      exact ⟨v, used, rest, rfl, named, unknown, shown⟩

/-- A source that assigns nothing is valid, and its output is found to be missing by a build. -/
theorem Source.build_omits_of_unassigned :
    ∃ e, validate "x = ()" = .ok e ∧ e.build .standard = .error (.missingOperand "x") ∧
      ∃ target type, .binary .assign target .empty ∈ e.arguments ∧
        Builder.outputTarget target = .ok ("x", type) := by
  have parsed : parse "x = ()" = .binary .assign (.var (.plain "x")) .empty := by
    unfold parse
    have whole : Form.ofChars (Text.trim "x = ()".toList) =
        .operation .assign "x ".toList " ()".toList := by decide +kernel
    have name : Form.ofChars (Text.trim "x ".toList) = .atom "x".toList := by decide +kernel
    have value : Form.ofChars (Text.trim " ()".toList) = .bracketed [] := by decide +kernel
    have nothing : Form.ofChars (Text.trim []) = .blank := by decide +kernel
    rw [parseChars_of_operation whole, parseChars_of_atom name, parseChars_of_bracketed value,
      parseChars_of_blank nothing]
    rfl
  have valid := validate_of_check (by decide +kernel) parsed (by decide +kernel)
  have refused : (Expr.binary .assign (.var (.plain "x")) .empty).build .standard =
      .error (.missingOperand "x") := rfl
  exact ⟨_, valid, refused, (build_omits valid .standard).1 "x" refused⟩

end Shadeloom
