import Mathlib
import Shadeloom.Proofs.Expr.Parts
import Shadeloom.Proofs.Results
import Shadeloom.Validity
/-!
# Trees that pass the check

Arguments are counted where sugar is expanded, and again by the check of the tree that is read. A
call of sugar that is left has a count which its function does not take, so the check refuses it.
In a tree that passes, every operation calls a group, or a function which is not sugar and takes as
many operands as there are.
-/
namespace Shadeloom

namespace Function

/-- A function accepts the counts of arguments in its range. -/
theorem accepts_iff {function : Function} {count : Nat} : function.accepts count = true ↔
    function.minArgs ≤ count ∧ count ≤ function.maxArgs := by
  simp [accepts]

/-- What sugar expands to for each count of arguments that it takes. -/
theorem counts_of_sugar {function : Function} (listed : function ∈ all)
    (sugar : function.role = .sugar) :
    0 < function.minArgs ∧
      (function.accepts 1 = true →
        function.name ∈ ["not", "clamp", "clip", "fract", "floor", "ceil"]) ∧
      (function.accepts 2 = true → function.name ∈ ["and", "or", "atan2", "xor", "mmod"]) ∧
      (2 < function.maxArgs → function.name ∈ ["and", "or"]) := by
  have each : ∀ function ∈ all, function.role = .sugar →
      0 < function.minArgs ∧
        (function.accepts 1 = true →
          function.name ∈ ["not", "clamp", "clip", "fract", "floor", "ceil"]) ∧
        (function.accepts 2 = true → function.name ∈ ["and", "or", "atan2", "xor", "mmod"]) ∧
        (2 < function.maxArgs → function.name ∈ ["and", "or"]) := by
    decide +kernel
  exact each function listed sugar

/-- Sugar expands when it has as many arguments as its function takes. -/
theorem isSome_expand?_of_sugar {function : Function} (listed : function ∈ all)
    (sugar : function.role = .sugar) {args : List Expr}
    (accepts : function.accepts args.length = true) :
    (Expr.expand? function.name args).isSome = true := by
  obtain ⟨some_, one, two, many⟩ := counts_of_sugar listed sugar
  match args with
  | [] =>
    rw [accepts_iff, List.length_nil] at accepts
    omega
  | [a] =>
    have named := one accepts
    simp only [List.mem_cons, List.not_mem_nil, or_false] at named
    rcases named with same | same | same | same | same | same <;> rw [same] <;> rfl
  | [a, b] =>
    have named := two accepts
    simp only [List.mem_cons, List.not_mem_nil, or_false] at named
    rcases named with same | same | same | same | same <;> rw [same] <;> rfl
  | a :: b :: c :: rest =>
    simp only [accepts_iff, List.length_cons] at accepts
    have named := many (by omega)
    simp only [List.mem_cons, List.not_mem_nil, or_false] at named
    rcases named with same | same <;> rw [same] <;> rfl

end Function

namespace Expr

/-- Whether operands suit the name of an operation: the name calls a group, or it is that of a
function which is not sugar and takes as many. -/
def Suits (name : String) (operands : List Expr) : Prop :=
  (Function.calledGroup? name).isSome = true ∨
    ∃ function, Function.find? name = some function ∧
      function.accepts operands.length = true ∧ function.role ≠ .sugar

/-- Whether a tree only puts its sides together. -/
def isStructural : Expr → Bool
  | .binary op _ _ => op.isStructural
  | _ => false

/-- Whether the operands at the root of a tree suit its operation, if there is one that computes. -/
def IsFitting (e : Expr) : Prop :=
  e.isStructural = false → ∀ name, e.operation? = some name → Suits name e.operands

/-- Whether a tree is no call that sugar would expand. -/
def IsExpanded : Expr → Prop
  | .call name args => expand? name args.arguments = none
  | _ => True

/-- What the expansions of sugar call expands no further. -/
theorem expand?_of_mem_expansionNames {name : String} (listed : name ∈ expansionNames)
    (args : List Expr) : expand? name args = none := by
  simp only [expansionNames, List.mem_cons, List.not_mem_nil, or_false] at listed
  match args with
  | [] => rfl
  | [a] => rcases listed with rfl | rfl | rfl | rfl | rfl | rfl <;> rfl
  | [a, b] => rcases listed with rfl | rfl | rfl | rfl | rfl | rfl <;> rfl
  | a :: b :: c :: rest => rcases listed with rfl | rfl | rfl | rfl | rfl | rfl <;> rfl

/-- Every call of a source that sugar expands is expanded. -/
theorem every_isExpanded_parseChars (text : List Char) :
    (Source.parseChars text).Every IsExpanded := by
  have holds : HoldsOfExpansions IsExpanded := {
    binary := fun _ _ _ => trivial
    combine := fun _ _ _ => trivial
    call := fun _ listed args => expand?_of_mem_expansionNames listed args.arguments
    numeral := fun _ _ => trivial }
  refine holds.every_parseChars trivial (fun word => ?_) (fun _ _ kept => kept) text
  unfold Source.atom
  split <;> trivial

/-- The check of a call says that its operands suit it, unless the call is one of sugar that would
expand. -/
theorem suits_of_checkCall {name : String} {operands : List Expr}
    (checked : checkCall name operands = .ok ())
    (expanded : ∀ function, Function.find? name = some function → function.role = .sugar →
      expand? name operands = none) : Suits name operands := by
  unfold checkCall at checked
  split at checked
  · cases checked
  · split at checked
    · rename_i group
      exact .inl group
    · split at checked
      · cases checked
      · rename_i function found
        split at checked
        · rename_i accepts
          refine .inr ⟨function, found, accepts, fun sugar => ?_⟩
          have expands := Function.isSome_expand?_of_sugar (Function.mem_of_find? found) sugar accepts
          rw [Function.name_of_find? found, expanded function found sugar] at expands
          cases expands
        · cases checked

/-- The functions of operators and of vectors are not sugar. -/
theorem not_sugar_of_other {e : Expr} {name : String} (other : ∀ args, e ≠ .call name args)
    (named : e.operation? = some name) {function : Function}
    (found : Function.find? name = some function) : function.role ≠ .sugar := by
  have each : ∀ function ∈ Function.all, function.role = .sugar →
      function.name ∉ ["+", "-", "*", "/", "**", ">", "<", "=", ",", "combine"] := by
    decide +kernel
  intro sugar
  have plain := each function (Function.mem_of_find? found) sugar
  rw [Function.name_of_find? found] at plain
  cases e with
  | empty => cases named
  | var v => cases named
  | value literal => cases named
  | combine x y z => cases named; exact plain (by decide)
  | binary op lhs rhs => cases named; cases op <;> exact plain (by decide)
  | call function' args => cases named; exact other args rfl

/-- Where a tree passes the check at its root and no sugar is left, the operands suit the
operation. -/
theorem isFitting_of_check {e : Expr} (checked : e.checkOperation = .ok ())
    (expanded : e.IsExpanded) : e.IsFitting := by
  intro computes name named
  have call : checkCall name e.operands = .ok () := by
    unfold checkOperation at checked
    split at checked
    · rename_i op lhs rhs
      cases named
      rwa [show op.isStructural = false from computes] at checked
    · rwa [named] at checked
  refine suits_of_checkCall call fun function found sugar => ?_
  by_cases same : ∃ args, e = .call name args
  · obtain ⟨args, rfl⟩ := same
    exact expanded
  · exact absurd sugar (not_sugar_of_other (fun args equal => same ⟨args, equal⟩) named found)

/-- A tree that passes the check has variables, literals and parts that pass it. -/
theorem of_check {e : Expr} (checked : e.check = .ok ()) :
    (∀ v ∈ e.usedVariables, v.check = .ok ()) ∧ (∀ literal ∈ e.literals, literal.check = .ok ()) ∧
      e.Every fun part => part.checkOperation = .ok () := by
  unfold check at checked
  dsimp only at checked
  split at checked
  · cases checked
  · split at checked
    · cases checked
    · obtain ⟨⟨⟩, variables_, checked⟩ := bind_eq_ok_iff.1 checked
      obtain ⟨⟨⟩, literals_, operations⟩ := bind_eq_ok_iff.1 checked
      exact ⟨forM_eq_ok_iff.1 variables_, forM_eq_ok_iff.1 literals_,
        forM_eq_ok_iff.1 operations⟩

/-- Whether a tree that is a variable, a literal or an operation passes the check of these. -/
structure Passes (e : Expr) : Prop where
  variable_ : ∀ v, e = .var v → v.check = .ok ()
  literal : ∀ literal, e = .value literal → literal.check = .ok ()
  operation : e.checkOperation = .ok ()

/-- A tree passes the check if it has a variable and all its parts pass. -/
theorem check_eq_ok_iff {e : Expr} :
    e.check = .ok () ↔ e ≠ .empty ∧ e.usedVariables ≠ [] ∧ e.Every Passes := by
  constructor
  · intro checked
    obtain ⟨variables_, literals_, operations⟩ := of_check checked
    refine ⟨?_, ?_, fun part mem => ⟨?_, ?_, operations part mem⟩⟩
    · rintro rfl
      cases checked
    · intro none
      unfold check at checked
      rw [if_pos none] at checked
      split at checked <;> cases checked
    · rintro v rfl
      exact variables_ v (List.mem_filterMap.2 ⟨.var v, mem, rfl⟩)
    · rintro literal rfl
      exact literals_ literal (List.mem_filterMap.2 ⟨.value literal, mem, rfl⟩)
  · rintro ⟨present, used, passes⟩
    have whole : e.isEmpty = false := by cases e <;> first | rfl | exact absurd rfl present
    unfold check
    rw [whole, if_neg used]
    refine bind_eq_ok_iff.2 ⟨(), forM_eq_ok_iff.2 fun v mem => ?_, bind_eq_ok_iff.2 ⟨(),
      forM_eq_ok_iff.2 fun literal mem => ?_,
      forM_eq_ok_iff.2 fun part mem => (passes part mem).operation⟩⟩
    · obtain ⟨part, mem, same⟩ := List.mem_filterMap.1 mem
      cases part <;> cases same
      exact (passes _ mem).variable_ v rfl
    · obtain ⟨part, mem, same⟩ := List.mem_filterMap.1 mem
      cases part <;> cases same
      exact (passes _ mem).literal literal rfl

/-- A comma passes. -/
theorem passes_comma (lhs rhs : Expr) : (binary .comma lhs rhs).Passes :=
  ⟨nofun, nofun, rfl⟩

/-- What holds of every part of a tree holds of every part of one with the same statements in any
order, if it holds of commas. -/
theorem Every.perm {p : Expr → Prop} {e e' : Expr} (every : e.Every p)
    (comma : ∀ lhs rhs, p (.binary .comma lhs rhs)) (reordered : e.arguments.Perm e'.arguments) :
    e'.Every p :=
  every_of_arguments comma fun part mem => every.arguments part (reordered.mem_iff.2 mem)

/-- A tree passes the check when one with the same statements in another order does. -/
theorem check_of_perm {e e' : Expr} (checked : e.check = .ok ())
    (reordered : e.arguments.Perm e'.arguments) : e'.check = .ok () := by
  obtain ⟨present, used, passes⟩ := check_eq_ok_iff.1 checked
  refine check_eq_ok_iff.2 ⟨?_, fun none => used ?_, passes.perm passes_comma reordered⟩
  · rintro rfl
    have alone : e.arguments = [.empty] := List.perm_singleton.1 reordered
    exact present ((chain_arguments e).symm.trans (congrArg chain alone))
  · -- A tree without variables is one of which every part is no variable.
    have absent : e'.Every fun part => ∀ v, part ≠ .var v := by
      rintro part mem v rfl
      have here : v ∈ e'.usedVariables := List.mem_filterMap.2 ⟨.var v, mem, rfl⟩
      rw [none] at here
      cases here
    have absent := absent.perm (fun _ _ => nofun) reordered.symm
    rw [List.eq_nil_iff_forall_not_mem]
    intro v mem
    obtain ⟨part, mem, same⟩ := List.mem_filterMap.1 mem
    cases part <;> cases same
    exact absent _ mem v rfl

end Expr

/-- A valid source has balanced brackets, and what is read of it passes the check. -/
theorem Source.of_validate {source : String} {e : Expr} (valid : validate source = .ok e) :
    isBalanced source = true ∧ parse source = e ∧ e.check = .ok () := by
  unfold validate at valid
  split at valid
  · cases valid
  · rename_i balanced
    obtain ⟨⟨⟩, checked, same⟩ := bind_eq_ok_iff.1 valid
    cases same
    exact ⟨by simpa using balanced, rfl, checked⟩

/-- A source with balanced brackets is valid if what is read of it passes the check. -/
theorem Source.validate_of_check {source : String} {e : Expr} (balanced : isBalanced source = true)
    (parsed : parse source = e) (checked : e.check = .ok ()) : validate source = .ok e := by
  unfold validate
  rw [parsed]
  simp only [balanced, checked]
  rfl

/-- In a valid source the operands of every operation suit it. -/
theorem Source.every_isFitting_of_validate {source : String} {e : Expr}
    (valid : validate source = .ok e) : e.Every Expr.IsFitting := by
  obtain ⟨-, same, checked⟩ := of_validate valid
  have expanded : e.Every Expr.IsExpanded := same ▸ Expr.every_isExpanded_parseChars source.toList
  exact fun part mem =>
    Expr.isFitting_of_check ((Expr.of_check checked).2.2 part mem) (expanded part mem)

end Shadeloom
