import Mathlib
import Shadeloom.Proofs.Expr.Literals
/-!
# What holds of every part of a tree

A property of the parts of a tree goes over to its operands, and to the trees that are put together
from it. So it is enough to look at a tree once to know it of all that is built from the tree.
-/
namespace Shadeloom

namespace Expr

/-- Whether a property holds of a tree and of all its parts. -/
def Every (p : Expr → Prop) (e : Expr) : Prop :=
  ∀ part ∈ e.preorder, p part

variable {p : Expr → Prop}

/-- A tree is a part of itself. -/
theorem self_mem_preorder (e : Expr) : e ∈ e.preorder := by
  cases e <;> exact List.mem_cons_self

/-- What holds of every part holds of the tree. -/
theorem Every.self {e : Expr} (every : e.Every p) : p e :=
  every e e.self_mem_preorder

/-- What holds of every part of a missing operand. -/
@[simp] theorem every_empty : empty.Every p ↔ p empty :=
  List.forall_mem_singleton

/-- What holds of every part of a variable. -/
@[simp] theorem every_var {v : Variable} : (var v).Every p ↔ p (var v) :=
  List.forall_mem_singleton

/-- What holds of every part of a literal. -/
@[simp] theorem every_value {literal : Literal} :
    (value literal).Every p ↔ p (value literal) :=
  List.forall_mem_singleton

/-- What holds of every part of an operation. -/
@[simp] theorem every_binary {op : BinaryOp} {lhs rhs : Expr} :
    (binary op lhs rhs).Every p ↔ p (binary op lhs rhs) ∧ lhs.Every p ∧ rhs.Every p :=
  List.forall_mem_cons.trans (and_congr_right' List.forall_mem_append)

/-- What holds of every part of a call. -/
@[simp] theorem every_call {function : String} {args : Expr} :
    (call function args).Every p ↔ p (call function args) ∧ args.Every p :=
  List.forall_mem_cons

/-- What holds of every part of a vector. -/
@[simp] theorem every_combine {x : Expr} {y z : Option Expr} :
    (combine x y z).Every p ↔
      p (combine x y z) ∧ x.Every p ∧ (∀ e ∈ y, e.Every p) ∧ ∀ e ∈ z, e.Every p := by
  cases y <;> cases z <;> simp [Every, preorder, preorderOf, or_imp, forall_and]

/-- Whether a property holds of commas, and goes over from an operation to every call of its
name. -/
structure IsRootwise (p : Expr → Prop) : Prop where
  comma : ∀ lhs rhs, p (.binary .comma lhs rhs)
  call : ∀ e function args, p e → e.operation? = some function → p (.call function args)

/-- What holds of every part of a chain holds of every part of its elements. -/
theorem Every.arguments {e : Expr} (every : e.Every p) : ∀ part ∈ e.arguments, part.Every p := by
  fun_induction Expr.arguments e with
  | case1 lhs rhs ih =>
    rw [every_binary] at every
    intro part mem
    rcases List.mem_cons.1 mem with rfl | mem
    · exact every.2.1
    · exact ih every.2.2 part mem
  | case2 e _ =>
    intro part mem
    rwa [List.mem_singleton.1 mem]

/-- What holds of commas and of every part of elements holds of every part of their chain. -/
theorem every_chain (comma : ∀ lhs rhs, p (.binary .comma lhs rhs)) {es : List Expr}
    (nonempty : es ≠ []) (every : ∀ e ∈ es, e.Every p) : (chain es).Every p := by
  fun_induction chain es with
  | case1 => exact absurd rfl nonempty
  | case2 e => exact every e (by simp)
  | case3 e rest more ih =>
    rw [every_binary]
    exact ⟨comma _ _, every e (by simp),
      ih (fun none => more none) fun other mem => every other (by simp [mem])⟩

/-- What holds of commas and of every part of the elements of a chain holds of every part of it. -/
theorem every_of_arguments (comma : ∀ lhs rhs, p (.binary .comma lhs rhs)) {e : Expr}
    (every : ∀ part ∈ e.arguments, part.Every p) : e.Every p := by
  have whole := every_chain comma e.arguments_ne_nil every
  rwa [chain_arguments] at whole

/-- The last element of a chain is no chain. -/
theorem not_comma_of_getLast? {e last : Expr} (ends : e.arguments.getLast? = some last)
    (lhs rhs : Expr) : last ≠ .binary .comma lhs rhs := by
  fun_induction Expr.arguments e with
  | case1 left right ih =>
    rw [List.getLast?_cons_of_ne_nil right.arguments_ne_nil] at ends
    exact ih ends
  | case2 e other =>
    cases ends
    exact fun same => other lhs rhs same

/-- The elements of a chain are those that are put into it, except that a last one that is itself a
chain gives its elements. -/
theorem arguments_chain_concat (es : List Expr) (last : Expr) :
    (chain (es ++ [last])).arguments = es ++ last.arguments := by
  induction es with
  | nil => rfl
  | cons e rest ih =>
    rw [List.cons_append, chain, arguments, ih, List.cons_append]
    simp

/-- The elements of a chain are those that are put into it, if the last of them is no chain. -/
theorem arguments_chain {es : List Expr} (nonempty : es ≠ [])
    (single : ∀ last, es.getLast? = some last → ∀ lhs rhs, last ≠ .binary .comma lhs rhs) :
    (chain es).arguments = es := by
  obtain ⟨earlier, last, rfl⟩ := (List.eq_nil_or_concat' es).resolve_left nonempty
  have alone : last.arguments = [last] := by
    unfold arguments
    split
    · rename_i lhs rhs
      exact absurd rfl (single (.binary .comma lhs rhs) List.getLast?_concat lhs rhs)
    · rfl
  rw [arguments_chain_concat, alone]

/-- What holds of every part of a tree holds of every part of its operands. -/
theorem Every.operands {e : Expr} (every : e.Every p) : ∀ part ∈ e.operands, part.Every p := by
  cases e with
  | empty => simp [Expr.operands]
  | var v => simp [Expr.operands]
  | value literal => simp [Expr.operands]
  | binary op lhs rhs =>
    rw [every_binary] at every
    intro part mem
    change part ∈ (if op.isStructural then [lhs, rhs] else lhs :: rhs.arguments) at mem
    split at mem
    · simp only [List.mem_cons, List.not_mem_nil, or_false] at mem
      rcases mem with rfl | rfl
      · exact every.2.1
      · exact every.2.2
    · rcases List.mem_cons.1 mem with rfl | mem
      · exact every.2.1
      · exact every.2.2.arguments part mem
  | call function args =>
    rw [every_call] at every
    exact every.2.arguments
  | combine x y z =>
    rw [every_combine] at every
    intro part mem
    have mem : part = x ∨ part ∈ y ∨ part ∈ z := by
      simpa [Expr.operands, components, eq_comm] using mem
    rcases mem with rfl | here | here
    · exact every.2.1
    · exact every.2.2.1 part here
    · exact every.2.2.2 part here

/-- A variable uses itself. -/
@[simp] theorem usedVariables_var (v : Variable) : (var v).usedVariables = [v] := rfl

/-- An operation uses what its sides use. -/
@[simp] theorem usedVariables_binary (op : BinaryOp) (lhs rhs : Expr) :
    (binary op lhs rhs).usedVariables = lhs.usedVariables ++ rhs.usedVariables := by
  simp [usedVariables, preorder]

/-- A call uses what its arguments use. -/
@[simp] theorem usedVariables_call (function : String) (args : Expr) :
    (call function args).usedVariables = args.usedVariables := by
  simp [usedVariables, preorder]

/-- A chain uses what its elements use. -/
theorem usedVariables_chain (es : List Expr) :
    (chain es).usedVariables = es.flatMap usedVariables := by
  fun_induction chain es with
  | case1 => rfl
  | case2 e => simp
  | case3 e rest more ih => rw [usedVariables_binary, ih, List.flatMap_cons]

/-- A tree uses what its elements as a chain use. -/
theorem usedVariables_arguments (e : Expr) :
    e.arguments.flatMap usedVariables = e.usedVariables := by
  rw [← usedVariables_chain, chain_arguments]

/-- A tree that is no variable uses what its operands use. -/
theorem usedVariables_operands {e : Expr} (other : ∀ v, e ≠ .var v) :
    e.operands.flatMap usedVariables = e.usedVariables := by
  cases e with
  | empty => rfl
  | var v => exact absurd rfl (other v)
  | value literal => rfl
  | combine x y z =>
    cases y <;> cases z <;> simp [operands, components, usedVariables, preorder, preorderOf]
  | binary op lhs rhs =>
    rw [usedVariables_binary]
    show (if op.isStructural then [lhs, rhs] else lhs :: rhs.arguments).flatMap _ = _
    split
    · simp
    · rw [List.flatMap_cons, usedVariables_arguments]
  | call function args =>
    rw [usedVariables_call]
    exact usedVariables_arguments args

/-- The functions that the expansions of sugar call. -/
def expansionNames : List String :=
  ["abs", "atan", "max", "min", "mod", "round"]

/-- The numerals in the expansions of sugar. -/
def expansionNumerals : List String :=
  ["0", "0.0", "0.5", "1", "1.0", "1.5707963", "3.14159265"]

/-- Whether a property holds of all that expansions of sugar are put together from. -/
structure HoldsOfExpansions (p : Expr → Prop) : Prop where
  binary : ∀ op lhs rhs, p (.binary op lhs rhs)
  combine : ∀ x y z, p (.combine x y z)
  call : ∀ function ∈ expansionNames, ∀ args, p (.call function args)
  numeral : ∀ text ∈ expansionNumerals, p (numeral text)

section

variable (holds : HoldsOfExpansions p)
include holds

/-- What holds of every part of two trees holds of every part of an operation on them. -/
theorem HoldsOfExpansions.every_binary {op : BinaryOp} {lhs rhs : Expr} (left : lhs.Every p)
    (right : rhs.Every p) : (Expr.binary op lhs rhs).Every p :=
  Expr.every_binary.2 ⟨holds.binary op lhs rhs, left, right⟩

/-- What holds of every part of a tree holds of every part of a call on it. -/
theorem HoldsOfExpansions.every_call {function : String} (listed : function ∈ expansionNames)
    {args : Expr} (every : args.Every p) : (Expr.call function args).Every p :=
  Expr.every_call.2 ⟨holds.call function listed args, every⟩

/-- What holds of expansions holds of every part of a numeral in one. -/
theorem HoldsOfExpansions.every_numeral {text : String} (listed : text ∈ expansionNumerals) :
    (Expr.numeral text).Every p :=
  every_value.2 (holds.numeral text listed)

/-- What holds of every part of the operands of a remainder holds of every part of this. -/
theorem HoldsOfExpansions.every_flooredModulo {a b : Expr} (left : a.Every p)
    (right : b.Every p) : (flooredModulo a b).Every p :=
  holds.every_call (by decide) (holds.every_binary (holds.every_binary
    (holds.every_call (by decide) (holds.every_binary left right)) right) right)

/-- What holds of every part of arguments holds of every part of what a call on them stands for. -/
theorem HoldsOfExpansions.every_expand? {name : String} {args : List Expr} {e : Expr}
    (every : ∀ arg ∈ args, arg.Every p) (expanded : expand? name args = some e) : e.Every p := by
  have zero : (Expr.numeral "0.0").Every p := holds.every_numeral (by decide)
  have half : (Expr.numeral "0.5").Every p := holds.every_numeral (by decide)
  have one : (Expr.numeral "1.0").Every p := holds.every_numeral (by decide)
  unfold expand? at expanded
  split at expanded
  · cases expanded
  · rename_i a
    have every := every a (by simp)
    have clamped : (clamped a).Every p := holds.every_call (by decide) (holds.every_binary
      (holds.every_call (by decide) (holds.every_binary every one)) zero)
    unfold expandUnary? at expanded
    split at expanded <;> cases expanded
    · exact holds.every_binary one every
    · exact clamped
    · exact clamped
    · exact holds.every_flooredModulo every one
    · exact holds.every_call (by decide) (holds.every_binary every half)
    · exact holds.every_call (by decide) (holds.every_binary every half)
    · exact every_combine.2 ⟨holds.combine _ _ _, every, by simp, by simp⟩
  · rename_i a b
    have a := every a (by simp)
    have b := every b (by simp)
    unfold expandBinary? at expanded
    split at expanded <;> cases expanded
    · exact holds.every_call (by decide) (holds.every_binary a b)
    · exact holds.every_call (by decide) (holds.every_binary a b)
    · have right : (Expr.numeral "1.5707963").Every p := holds.every_numeral (by decide)
      have turn : (Expr.numeral "3.14159265").Every p := holds.every_numeral (by decide)
      exact holds.every_binary right (holds.every_binary
        (holds.every_call (by decide) (holds.every_binary b a))
        (holds.every_binary (holds.every_binary a zero) turn))
    · exact holds.every_call (by decide) (holds.every_binary a b)
    · exact holds.every_flooredModulo a b
    · exact every_combine.2 ⟨holds.combine _ _ _, a, by simpa using b, by simp⟩
  · rename_i none one_ two
    have nonempty : args ≠ [] := fun same => none same
    have chained := every_chain (holds.binary .comma) nonempty every
    unfold expandMany? at expanded
    split at expanded <;> cases expanded
    · exact holds.every_call (by decide) chained
    · exact holds.every_call (by decide) chained
    · exact every_combine.2 ⟨holds.combine _ _ _, every _ (by simp), by simpa using every _ (by simp),
        by simpa using every _ (by simp)⟩

/-- What holds of expansions and of the calls that are none holds of every part of a call that is
read, when it holds of every part of its arguments. -/
theorem HoldsOfExpansions.every_application {name : String} {args : Expr}
    (kept : expand? name args.arguments = none → p (.call name args)) (every : args.Every p) :
    (application name args).Every p := by
  unfold application
  cases expanded : expand? name args.arguments with
  | none => exact Expr.every_call.2 ⟨kept expanded, every⟩
  | some e => exact holds.every_expand? every.arguments expanded

/-- What holds of expansions, of the calls that are none, of atoms and of missing operands holds of
every part of what is read. -/
theorem HoldsOfExpansions.every_parseChars (missing : p .empty)
    (atom : ∀ text, p (Source.atom text))
    (kept : ∀ name args, expand? name args.arguments = none → p (.call name args))
    (text : List Char) : (Source.parseChars text).Every p := by
  fun_induction Source.parseChars text with
  | case1 text blank => exact every_empty.2 missing
  | case2 text interior bracketed ih => exact ih
  | case3 text name interior call ih => exact holds.every_application (kept _ _) ih
  | case4 text left right equal hl hr =>
    exact holds.every_binary (holds.every_numeral (by decide)) (holds.every_binary
      (holds.every_call (by decide) (holds.every_binary hl hr)) (holds.every_numeral (by decide)))
  | case5 text left right equal hl hr =>
    exact holds.every_binary (holds.every_numeral (by decide)) (holds.every_binary hl hr)
  | case6 text left right equal hl hr =>
    exact holds.every_binary (holds.every_numeral (by decide)) (holds.every_binary hl hr)
  | case7 text op left right operation hl hr => exact holds.every_binary hl hr
  | case8 text rest negated ih => exact holds.every_binary (holds.every_numeral (by decide)) ih
  | case9 text rest unsigned ih => exact ih
  | case10 text word atomic =>
    have here := atom word
    unfold Source.atom at here ⊢
    split at here
    · rw [if_pos (by assumption)]
      exact every_value.2 here
    · rw [if_neg (by assumption)]
      exact every_var.2 here

end

/-- Whether a tree is no literal of a zero but a given one. -/
def ZeroIs (zero : Float) : Expr → Prop
  | .value literal => literal.ZeroIs zero
  | _ => True

/-- The numerals of expansions stand for no zero with a minus sign. -/
theorem holdsOfExpansions_zeroIs : HoldsOfExpansions (ZeroIs 0.0) where
  binary _ _ _ := trivial
  combine _ _ _ := trivial
  call _ _ _ := trivial
  numeral := by
    have each : ∀ text ∈ expansionNumerals, Source.isValueAtom text.toList = true := by decide
    exact fun text mem => Literal.zeroIs_of_atom (each text mem)

end Expr

/-- No literal of a source stands for a zero with a minus sign. -/
theorem Source.every_zeroIs_parseChars (text : List Char) :
    (parseChars text).Every (Expr.ZeroIs 0.0) := by
  refine Expr.holdsOfExpansions_zeroIs.every_parseChars trivial (fun word => ?_)
    (fun _ _ _ => trivial) text
  unfold atom
  split
  · rename_i isValue
    have isAtom : isValueAtom (String.ofList word).toList = true := by rwa [String.toList_ofList]
    exact Literal.zeroIs_of_atom isAtom
  · trivial

end Shadeloom
