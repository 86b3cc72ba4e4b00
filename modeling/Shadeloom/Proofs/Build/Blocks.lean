import Mathlib
import Shadeloom.Build.Statements
/-!
# Blocks of statements

A chain of statements is read as blocks: a group starts, holds outputs and groups of its own, and is
ended by its name. What a statement does for this is its mark. The blocks are given as a grammar of
marks and found by a machine that keeps the groups that are open on a stack, and the two agree.
-/
namespace Shadeloom

/-- A named output with its type. -/
abbrev NamedOutput := String × SocketType

/-- A group with the outputs directly in it, in order. -/
abbrev Block := String × List NamedOutput

/-- What a statement does for the blocks of a chain. -/
inductive Mark where
  /-- A group starts. -/
  | opens (name : String)
  /-- A group ends. -/
  | closes (name : String)
  /-- An output is given. -/
  | gives (output : NamedOutput)
  deriving Repr, DecidableEq, Inhabited

/-- The name of the group that a mark ends. -/
def Mark.ended? : Mark → Option String
  | .closes name => some name
  | _ => none

namespace Expr

/-- The name that an expression is, if it is nothing else. -/
def soleName? : Expr → Option String
  | .var ⟨name, none, none⟩ => some name
  | _ => none

/-- The output that an assignment to an expression gives: a vector if the name is written with empty
brackets. -/
def assigned? : Expr → Option NamedOutput
  | .var ⟨name, _, none⟩ => some (name, .scalar)
  | .var ⟨name, _, some ""⟩ => some (name, .vector)
  | _ => none

/-- The output of an expression without a name. -/
def bareOutput : NamedOutput :=
  (Builder.bareOutput, .scalar)

/-- The mark of a directive with its arguments. -/
def directiveMark? : Directive → List Expr → Option Mark
  | .groupStart, name :: _ => name.soleName?.map .opens
  | .groupEnd, [name] => name.soleName?.map .closes
  | _, _ => none

/-- The mark of a statement; a statement that is not well-formed has none. -/
def mark? : Expr → Option Mark
  | .empty => none
  | .call name args =>
    match Builder.directive? name with
    | some directive => directiveMark? directive args.arguments
    | none => some (.gives bareOutput)
  | .binary .assign target _ => target.assigned?.map .gives
  | _ => some (.gives bareOutput)

/-- The marks of the statements of a tree, in order. -/
def marks (e : Expr) : List Mark :=
  e.arguments.filterMap mark?

/-- Whether no name is given to two groups of a tree. -/
def DefinesOnce (e : Expr) : Prop :=
  (e.marks.filterMap Mark.ended?).Nodup

/-- Whether a statement has nothing to do with blocks: it is nothing, or a directive that neither
starts nor ends a group. -/
def IsAside (statement : Expr) : Prop :=
  statement = .empty ∨ ∃ name args directive, statement = .call name args ∧
    Builder.directive? name = some directive ∧ directive ≠ .groupStart ∧ directive ≠ .groupEnd

end Expr

/-- Whether marks are well nested, with the outputs that are in no group and with the groups, in the
order in which they end. -/
inductive Blocks : List Mark → List NamedOutput → List Block → Prop
  | nil : Blocks [] [] []
  | output {marks : List Mark} {outputs : List NamedOutput} {groups : List Block}
    (output : NamedOutput) (rest : Blocks marks outputs groups) :
    Blocks (.gives output :: marks) (output :: outputs) groups
  /-- A group ends under the name under which it starts; what is between is well nested. -/
  | group {body marks : List Mark} {inner outputs : List NamedOutput} {nested groups : List Block}
    (name : String) (block : Blocks body inner nested) (rest : Blocks marks outputs groups) :
    Blocks (.opens name :: (body ++ .closes name :: marks)) outputs
      (nested ++ (name, inner) :: groups)

/-- The blocks of marks up to some point. -/
structure Nest where
  /-- The outputs of the innermost group that is open, or of none. -/
  outputs : List NamedOutput
  /-- The groups that are open, the innermost first, each with the outputs around it. -/
  around : List Block
  /-- The groups that have ended, in order. -/
  groups : List Block
  deriving Repr, DecidableEq, Inhabited

namespace Nest

/-- The blocks of no marks. -/
def start : Nest := ⟨[], [], []⟩

/-- The blocks after one more mark. -/
def step (nest : Nest) : Mark → Option Nest
  | .gives output => some { nest with outputs := nest.outputs ++ [output] }
  | .opens name => some ⟨[], (name, nest.outputs) :: nest.around, nest.groups⟩
  | .closes name =>
    match nest.around with
    | [] => none
    | (opened, outputs) :: around =>
      if opened = name then some ⟨outputs, around, nest.groups ++ [(name, nest.outputs)]⟩ else none

/-- The end of a group is the end of the innermost one that is open. -/
theorem step_closes_eq_some_iff {nest next : Nest} {name : String} :
    nest.step (.closes name) = some next ↔ ∃ outputs around, nest.around = (name, outputs) :: around ∧
      next = ⟨outputs, around, nest.groups ++ [(name, nest.outputs)]⟩ := by
  obtain ⟨inner, around, groups⟩ := nest
  cases around with
  | nil => simp [step]
  | cons first rest =>
    obtain ⟨opened, outputs⟩ := first
    simp only [step, Option.ite_none_right_eq_some, Option.some.injEq, List.cons.injEq,
      Prod.mk.injEq]
    constructor
    · rintro ⟨rfl, rfl⟩
      exact ⟨outputs, rest, ⟨⟨rfl, rfl⟩, rfl⟩, rfl⟩
    · rintro ⟨_, _, ⟨⟨rfl, rfl⟩, rfl⟩, rfl⟩
      exact ⟨rfl, rfl⟩

/-- What the groups that are open ask of the marks that are left: each of them is a block up to the
end of the innermost group, and so on outwards. -/
inductive Unwinds : Nest → List Mark → Nest → Prop
  | settled {marks : List Mark} {outputs outputs' : List NamedOutput} {groups groups' : List Block}
    (blocks : Blocks marks outputs' groups') :
    Unwinds ⟨outputs, [], groups⟩ marks ⟨outputs ++ outputs', [], groups ++ groups'⟩
  | closing {body marks : List Mark} {name : String} {inner inner' outputs : List NamedOutput}
    {around groups nested : List Block} {last : Nest} (block : Blocks body inner' nested)
    (rest : Unwinds ⟨outputs, around, groups ++ nested ++ [(name, inner ++ inner')]⟩ marks last) :
    Unwinds ⟨inner, (name, outputs) :: around, groups⟩ (body ++ .closes name :: marks) last

/-- An output before marks belongs to the first of their blocks. -/
theorem Unwinds.output {inner : List NamedOutput} {around groups : List Block} {marks : List Mark}
    {last : Nest} (output : NamedOutput)
    (unwinds : Unwinds ⟨inner ++ [output], around, groups⟩ marks last) :
    Unwinds ⟨inner, around, groups⟩ (.gives output :: marks) last := by
  cases unwinds with
  | settled blocks =>
    have later := @settled _ inner _ groups _ (blocks.output output)
    rwa [List.append_cons inner output] at later
  | closing block rest =>
    refine closing (block.output output) ?_
    rwa [List.append_cons inner output]

/-- The start of a group before marks makes their first block one of those around it. -/
theorem Unwinds.group {name : String} {outputs : List NamedOutput} {around groups : List Block}
    {marks : List Mark} {last : Nest}
    (unwinds : Unwinds ⟨[], (name, outputs) :: around, groups⟩ marks last) :
    Unwinds ⟨outputs, around, groups⟩ (.opens name :: marks) last := by
  cases unwinds with
  | closing block rest =>
    rw [List.nil_append] at rest
    cases rest with
    | settled blocks =>
      have later := @settled _ outputs _ groups _ (block.group name blocks)
      simpa using later
    | closing block' rest =>
      have later := @closing _ _ _ outputs _ _ _ groups _ _ (block.group name block')
        (by simpa using rest)
      simpa using later

/-- A run that leaves no group open has unwound all groups. -/
theorem unwinds_of_run {marks : List Mark} {nest last : Nest} (settled : last.around = [])
    (run : marks.foldlM step nest = some last) : nest.Unwinds marks last := by
  induction marks generalizing nest with
  | nil =>
    obtain ⟨outputs, around, groups⟩ := nest
    cases run
    obtain rfl : around = [] := settled
    simpa using @Unwinds.settled [] outputs [] groups [] .nil
  | cons mark rest ih =>
    rw [List.foldlM_cons] at run
    obtain ⟨next, stepped, run⟩ := Option.bind_eq_some_iff.1 run
    have unwinds := ih run
    cases mark with
    | gives output =>
      cases stepped
      exact unwinds.output output
    | opens name =>
      cases stepped
      exact unwinds.group
    | closes name =>
      obtain ⟨outputs, around, here, rfl⟩ := step_closes_eq_some_iff.1 stepped
      obtain ⟨inner, _, groups⟩ := nest
      obtain rfl : _ = (name, outputs) :: around := here
      exact @Unwinds.closing [] _ _ _ [] _ _ _ [] _ .nil (by simpa using unwinds)

end Nest

/-- A run over well nested marks adds their outputs and groups. -/
theorem Blocks.run {marks : List Mark} {outputs : List NamedOutput} {groups : List Block}
    (blocks : Blocks marks outputs groups) (nest : Nest) :
    marks.foldlM Nest.step nest =
      some ⟨nest.outputs ++ outputs, nest.around, nest.groups ++ groups⟩ := by
  induction blocks generalizing nest with
  | nil => simp
  | output output rest ih =>
    rw [List.foldlM_cons]
    show List.foldlM Nest.step _ _ = _
    rw [ih]
    simp
  | group name block rest inside after =>
    rw [List.foldlM_cons]
    show List.foldlM Nest.step _ _ = _
    rw [List.foldlM_append, inside, Option.bind_eq_bind, Option.bind_some, List.foldlM_cons,
      Nest.step_closes_eq_some_iff.2 ⟨_, _, rfl, rfl⟩]
    show List.foldlM Nest.step _ _ = _
    rw [after]
    simp

/-- Marks are well nested exactly when a run over them leaves no group open. -/
theorem Nest.run_eq_some_iff {marks : List Mark} {outputs : List NamedOutput}
    {groups : List Block} :
    marks.foldlM step start = some ⟨outputs, [], groups⟩ ↔ Blocks marks outputs groups := by
  constructor
  · intro run
    cases unwinds_of_run rfl run with
    | settled blocks => exact blocks
  · intro blocks
    exact blocks.run start

/-- A group in a group is ended first, and outputs belong to the innermost group. -/
example : Blocks [.opens "a", .gives ("x", .scalar), .opens "b", .gives ("y", .vector), .closes "b",
    .gives ("z", .scalar), .closes "a", .gives ("x", .scalar)] [("x", .scalar)]
    [("b", [("y", .vector)]), ("a", [("x", .scalar), ("z", .scalar)])] :=
  Nest.run_eq_some_iff.1 rfl

end Shadeloom
