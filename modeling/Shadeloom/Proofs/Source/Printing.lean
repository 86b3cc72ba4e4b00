import Mathlib
import Shadeloom.Proofs.Source.RoundTrip
/-!
# Printing with the fewest brackets

A printer that writes brackets only where the levels of operators need them, and the trees that it
prints so that they are read back.
-/
namespace Shadeloom

namespace Source

/-- A text of one level where another one may be needed, in brackets if it is too loose. -/
def bracketUnless (needed level : Nat) (text : List Char) : List Char :=
  if needed ≤ level then text else '(' :: (text ++ [')'])

end Source

namespace Expr

open Source

mutual

/-- The text of a tree where nothing looser than a level may stand. -/
def print (needed : Nat) : Expr → List Char
  | .empty => []
  | .var v => v.text.toList
  | .value literal => literal.text.toList
  | .combine x y z =>
    callText "combine" (x.print 1 ++ (printComponent y ++ printComponent z))
  | .binary op lhs rhs =>
    bracketUnless needed op.level
      (binaryText op (lhs.print op.leftLevel) [] [] (rhs.print op.rightLevel))
  | .call name args => callText name (args.print 0)

/-- The text of a component after the first one, with the comma before it. -/
def printComponent : Option Expr → List Char
  | none => []
  | some e => ',' :: e.print 1

end

/-- Whether a tree is made of what can be written, with chains only as the arguments of calls. -/
inductive IsPrintable : Expr → Prop
  | var {v : Variable} (writable : IsWritable v) : IsPrintable (.var v)
  | numeral {mantissa exponent : List Char} (decimal : IsMantissa mantissa)
    (power : IsExponent exponent) : IsPrintable (.value ⟨String.ofList (mantissa ++ exponent)⟩)
  | quoted {text : List Char} (inside : '"' ∉ text) :
    IsPrintable (.value ⟨String.ofList ('"' :: (text ++ ['"']))⟩)
  | binary {op : BinaryOp} {lhs rhs : Expr} (computes : op.isStructural = false)
    (left : IsPrintable lhs) (right : IsPrintable rhs) : IsPrintable (.binary op lhs rhs)
  | combine {x : Expr} {y z : Option Expr} (ordered : y = none → z = none)
    (parts : ∀ e ∈ components x y z, IsPrintable e) : IsPrintable (.combine x y z)
  | call {name : String} {args : List Expr} (callable : IsCallName name) (nonempty : args ≠ [])
    (parts : ∀ e ∈ args, IsPrintable e) : IsPrintable (.call name (chain args))

/-- Printable trees are no chains. -/
theorem IsPrintable.single {e : Expr} (printable : e.IsPrintable) (lhs rhs : Expr) :
    e ≠ .binary .comma lhs rhs := by
  rintro rfl
  cases printable with
  | binary computes _ _ => cases computes

/-- The text of a comma without blanks. -/
theorem binaryText_comma (left right : List Char) :
    binaryText .comma left [] [] right = left ++ ',' :: right := by
  simp [binaryText, BinaryOp.symbol]

/-- A written tree and a written chain are written with a comma between them. -/
theorem written_cons {e rest : Expr} {first later : List Char} (head : Written 1 e first)
    (tail : Written 0 rest later) : Written 0 (.binary .comma e rest) (first ++ ',' :: later) := by
  have written : Written BinaryOp.comma.level (.binary .comma e rest)
      (binaryText .comma first [] [] later) :=
    .binary (by decide) head tail isBlank_nil isBlank_nil
  rw [binaryText_comma] at written
  exact written

/-- A chain of written trees is written with commas between them. -/
theorem written_chain {args : List Expr} (nonempty : args ≠ [])
    (parts : ∀ e ∈ args, ∀ needed, needed ≤ 5 → Written needed e (e.print needed)) :
    Written 0 (chain args) ((chain args).print 0) := by
  fun_induction chain args with
  | case1 => exact absurd rfl nonempty
  | case2 e => exact parts e (by simp) 0 (by omega)
  | case3 e rest notOne ih =>
    have later := ih (fun empty => notOne empty) fun other mem => parts other (by simp [mem])
    have printed : (binary .comma e (chain rest)).print 0 =
        e.print 1 ++ ',' :: (chain rest).print 0 := by
      simp only [print, binaryText_comma]
      rfl
    rw [printed]
    exact written_cons (parts e (by simp) 1 (by omega)) later

/-- A printed tree is written. -/
theorem IsPrintable.written {e : Expr} (printable : e.IsPrintable) :
    ∀ needed, needed ≤ 5 → Written needed e (e.print needed) := by
  induction printable with
  | var writable =>
    intro _ le
    rw [print]
    exact .looser le (.var writable)
  | numeral decimal power =>
    intro _ le
    rw [print, String.toList_ofList]
    exact .looser le (.numeral decimal power)
  | quoted inside =>
    intro _ le
    rw [print, String.toList_ofList]
    exact .looser le (.quoted inside)
  | @binary op lhs rhs computes _ _ left right =>
    intro needed le
    have operator : op ≠ .assign := by
      rintro rfl
      cases computes
    have bounds : 1 ≤ op.level ∧ op.leftLevel ≤ 5 ∧ op.rightLevel ≤ 5 := by
      cases op <;> simp_all +decide
    have written : Written op.level (.binary op lhs rhs)
        (binaryText op (lhs.print op.leftLevel) [] [] (rhs.print op.rightLevel)) :=
      .binary operator (left _ bounds.2.1) (right _ bounds.2.2) isBlank_nil isBlank_nil
    simp only [print, bracketUnless]
    split
    · rename_i fits
      exact .looser fits written
    · exact .looser le (.bracketed (.looser bounds.1 written))
  | @combine x y z ordered parts ih =>
    intro needed le
    have single : ∀ e ∈ components x y z, ∀ lhs rhs, e ≠ .binary .comma lhs rhs := fun e mem =>
      (parts e mem).single
    have chained : Written 0 (chain (components x y z))
        (x.print 1 ++ (printComponent y ++ printComponent z)) := by
      have first : Written 1 x (x.print 1) := ih x (by simp [components]) 1 (by omega)
      have tight : Written 0 x (x.print 1) := .looser (Nat.zero_le 1) first
      cases y with
      | none =>
        rw [ordered rfl, printComponent, List.append_nil, List.append_nil]
        exact tight
      | some y =>
        have second : Written 1 y (y.print 1) := ih y (by simp [components]) 1 (by omega)
        cases z with
        | none =>
          rw [printComponent, printComponent, List.append_nil]
          exact written_cons first (.looser (Nat.zero_le 1) second)
        | some z =>
          have third : Written 1 z (z.print 1) := ih z (by simp [components]) 1 (by omega)
          rw [printComponent, printComponent]
          exact written_cons first (written_cons second (.looser (Nat.zero_le 1) third))
    rw [print]
    exact .looser le (.combine ordered single chained)
  | call callable nonempty _ ih =>
    intro _ le
    rw [print]
    exact .looser le (.call callable (written_chain nonempty ih))

end Expr

/-- Reading a printed tree gives the tree back. -/
theorem Source.parseChars_print {e : Expr} (printable : e.IsPrintable) {needed : Nat}
    (le : needed ≤ 5) : parseChars (e.print needed) = e := by
  have read := (printable.written needed le).parseChars_padded isBlank_nil isBlank_nil
  rwa [List.nil_append, List.append_nil] at read

end Shadeloom
