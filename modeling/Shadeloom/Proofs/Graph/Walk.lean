import Mathlib
import Shadeloom.Graph.Order
/-!
# Walks along arcs

A walk discovers what its tasks lead to and nothing else. The nodes that it has discovered and not
finished yet are on the path that it has taken; so if no path comes back to where it started, a
node is finished after all that it leads to.
-/
namespace Shadeloom

namespace Graph

open Relation

/-- Whether an arc leads from one node to another one. -/
def Follows (arcs : List (Nat × Nat)) (a b : Nat) : Prop :=
  b ∈ arcEnds arcs a

/-- Arcs lead to the other ends of the arcs at a node. -/
theorem follows_iff {arcs : List (Nat × Nat)} {a b : Nat} :
    Follows arcs a b ↔ (a, b) ∈ arcs := by
  simp [Follows, arcEnds]

/-- The node that a task is for. -/
def Task.node : Task → Nat
  | enter id => id
  | leave id => id

/-- The nodes that are to be left. -/
def leaving (tasks : List Task) : List Nat :=
  tasks.filterMap fun
    | .leave id => some id
    | .enter _ => none

/-- A node is to be left exactly when there is a task to leave it. -/
theorem mem_leaving {tasks : List Task} {id : Nat} : id ∈ leaving tasks ↔ .leave id ∈ tasks := by
  unfold leaving
  rw [List.mem_filterMap]
  constructor
  · rintro ⟨task, mem, same⟩
    cases task with
    | enter other => cases same
    | leave other => cases same; exact mem
  · exact fun mem => ⟨_, mem, rfl⟩

/-- Tasks to enter nodes leave none. -/
theorem leaving_enter (ids : List Nat) (rest : List Task) :
    leaving (ids.map .enter ++ rest) = leaving rest := by
  induction ids with
  | nil => rfl
  | cons id others ih => simp [leaving]

/-- A task to leave a node behind others to enter nodes is the first one or behind it. -/
theorem split_leave {ids : List Nat} {id other : Nat} {rest above below : List Task}
    (split : ids.map .enter ++ .leave id :: rest = above ++ .leave other :: below) :
    above = ids.map .enter ∧ other = id ∨
      ∃ more, rest = more ++ .leave other :: below ∧ above = ids.map .enter ++ .leave id :: more := by
  induction ids generalizing above with
  | nil =>
    cases above with
    | nil => obtain ⟨same, -⟩ := List.cons.inj split; cases same; exact .inl ⟨rfl, rfl⟩
    | cons task more =>
      obtain ⟨rfl, tail⟩ := List.cons.inj split
      exact .inr ⟨more, tail, rfl⟩
  | cons first others ih =>
    cases above with
    | nil => obtain ⟨same, -⟩ := List.cons.inj split; cases same
    | cons task more =>
      obtain ⟨rfl, tail⟩ := List.cons.inj split
      rcases ih tail with ⟨rfl, rfl⟩ | ⟨more, rfl, rfl⟩
      · exact .inl ⟨rfl, rfl⟩
      · exact .inr ⟨more, rfl, rfl⟩

/-- A walk discovers its tasks and all that it leads to, if what it has discovered before leads to
nodes that are discovered or to be entered. -/
theorem walk_closed (arcs : List (Nat × Nat)) (tasks : List Task) (state : Walk)
    (closed : ∀ a ∈ state.discovered, ∀ b, Follows arcs a b →
      b ∈ state.discovered ∨ .enter b ∈ tasks) :
    (∀ a ∈ state.discovered, a ∈ (walk arcs tasks state).discovered) ∧
      (∀ a, .enter a ∈ tasks → a ∈ (walk arcs tasks state).discovered) ∧
      ∀ a ∈ (walk arcs tasks state).discovered, ∀ b, Follows arcs a b →
        b ∈ (walk arcs tasks state).discovered := by
  fun_induction walk arcs tasks state with
  | case1 state =>
    exact ⟨fun _ mem => mem, by simp, fun a mem b follows => by simpa using closed a mem b follows⟩
  | case2 state id rest ih =>
    obtain ⟨kept, entered, final⟩ := ih fun a mem b follows => by
      simpa using closed a mem b follows
    exact ⟨kept, fun a mem => entered a (by simpa using mem), final⟩
  | case3 state id rest known ih =>
    obtain ⟨kept, entered, final⟩ := ih fun a mem b follows => by
      rcases closed a mem b follows with here | task
      · exact .inl here
      · rcases List.mem_cons.1 task with same | later
        · cases same; exact .inl known
        · exact .inr later
    refine ⟨kept, fun a mem => ?_, final⟩
    rcases List.mem_cons.1 mem with same | later
    · cases same; exact kept id known
    · exact entered a later
  | case4 state id rest fresh ih =>
    obtain ⟨kept, entered, final⟩ := ih fun a mem b follows => by
      rcases List.mem_cons.1 mem with rfl | mem
      · exact .inr (by simpa using .inl follows)
      · rcases closed a mem b follows with here | task
        · exact .inl (List.mem_cons_of_mem _ here)
        · rcases List.mem_cons.1 task with same | later
          · cases same; exact .inl (by simp)
          · exact .inr (by simp [later])
    refine ⟨fun a mem => kept a (List.mem_cons_of_mem _ mem), fun a mem => ?_, final⟩
    rcases List.mem_cons.1 mem with same | later
    · cases same; exact kept id (by simp)
    · exact entered a (by simp [later])

/-- A walk discovers only what its tasks lead to. -/
theorem walk_reached {arcs : List (Nat × Nat)} (tasks : List Task) (state : Walk) :
    ∀ a ∈ (walk arcs tasks state).discovered, a ∈ state.discovered ∨
      ∃ b, .enter b ∈ tasks ∧ ReflTransGen (Follows arcs) b a := by
  fun_induction walk arcs tasks state with
  | case1 state => exact fun a mem => .inl mem
  | case2 state id rest ih =>
    intro a mem
    rcases ih a mem with here | ⟨b, task, path⟩
    · exact .inl here
    · exact .inr ⟨b, by simp [task], path⟩
  | case3 state id rest known ih =>
    intro a mem
    rcases ih a mem with here | ⟨b, task, path⟩
    · exact .inl here
    · exact .inr ⟨b, by simp [task], path⟩
  | case4 state id rest fresh ih =>
    intro a mem
    rcases ih a mem with here | ⟨b, task, path⟩
    · rcases List.mem_cons.1 here with rfl | here
      · exact .inr ⟨a, by simp, .refl⟩
      · exact .inl here
    · rcases List.mem_append.1 task with new | old
      · have follows : Follows arcs id b := by simpa [Follows] using new
        exact .inr ⟨id, by simp, path.head follows⟩
      · exact .inr ⟨b, List.mem_cons_of_mem _ (by simpa using old), path⟩

/-- A walk from the start discovers exactly what its nodes lead to. -/
theorem mem_discovered_iff {arcs : List (Nat × Nat)} {starts : List Nat} {id : Nat} :
    id ∈ (walk arcs (starts.map .enter) ⟨[], []⟩).discovered ↔
      ∃ start ∈ starts, ReflTransGen (Follows arcs) start id := by
  obtain ⟨-, entered, final⟩ := walk_closed arcs (starts.map .enter) ⟨[], []⟩ (by simp)
  constructor
  · intro mem
    rcases walk_reached _ _ id mem with none | ⟨start, task, path⟩
    · cases none
    · exact ⟨start, by simpa using task, path⟩
  · rintro ⟨start, mem, path⟩
    induction path with
    | refl => exact entered start (List.mem_map_of_mem mem)
    | tail _ follows ih => exact final _ ih _ follows

/-- A walk finishes no node twice, whatever it walks along. -/
theorem nodup_finished_walk {arcs : List (Nat × Nat)} (tasks : List Task) (state : Walk)
    (known : ∀ id ∈ leaving tasks ++ state.finished, id ∈ state.discovered)
    (once : (leaving tasks ++ state.finished).Nodup) : (walk arcs tasks state).finished.Nodup := by
  fun_induction walk arcs tasks state with
  | case1 state => simpa [leaving] using once
  | case2 state id rest ih =>
    have same : (leaving rest ++ id :: state.finished).Perm
        (leaving (.leave id :: rest) ++ state.finished) := List.perm_middle
    exact ih (fun other mem => known other (same.mem_iff.1 mem)) (same.nodup_iff.2 once)
  | case3 state id rest _ ih => exact ih known once
  | case4 state id rest fresh ih =>
    refine ih (fun other mem => ?_) ?_
    · rw [leaving_enter] at mem
      rcases List.mem_cons.1 mem with rfl | mem
      · exact List.mem_cons_self
      · exact List.mem_cons_of_mem _ (known other mem)
    · rw [leaving_enter]
      exact List.nodup_cons.2 ⟨fun mem => fresh (known id mem), once⟩

/-- What holds between two tasks of a walk along arcs without cycles. -/
structure Underway (arcs : List (Nat × Nat)) (tasks : List Task) (state : Walk) : Prop where
  /-- What is discovered is finished or to be left. -/
  pending : ∀ id, id ∈ state.discovered ↔ id ∈ leaving tasks ∨ id ∈ state.finished
  once : (leaving tasks ++ state.finished).Nodup
  /-- A node that is to be left leads to the nodes of all tasks before that. -/
  nested : tasks.Pairwise fun above below =>
    ∀ id, below = .leave id → TransGen (Follows arcs) id above.node
  /-- What a node leads to that is to be left is discovered or to be entered before that. -/
  settled : ∀ above id below, tasks = above ++ .leave id :: below →
    ∀ next, Follows arcs id next → next ∈ state.discovered ∨ .enter next ∈ above
  /-- What a finished node leads to is finished. -/
  downward : ∀ id ∈ state.finished, ∀ next, Follows arcs id next → next ∈ state.finished
  sorted : state.finished.Pairwise fun a b => ¬ Follows arcs b a

/-- A walk from the start is underway. -/
theorem underway_start (arcs : List (Nat × Nat)) (starts : List Nat) :
    Underway arcs (starts.map .enter) ⟨[], []⟩ where
  pending id := by simp [mem_leaving]
  once := by
    have none := leaving_enter starts []
    rw [List.append_nil] at none
    rw [none]
    exact List.nodup_nil
  nested := by
    rw [List.pairwise_map]
    exact List.pairwise_of_forall fun _ _ _ same => by cases same
  settled above id below split := by
    have mem : Task.leave id ∈ starts.map .enter := by rw [split]; simp
    simp at mem
  downward := by simp
  sorted := List.Pairwise.nil

/-- Leaving a node that was entered keeps a walk underway. -/
theorem Underway.leave {arcs : List (Nat × Nat)} (acyclic : ∀ id, ¬ TransGen (Follows arcs) id id)
    {id : Nat} {rest : List Task} {state : Walk}
    (underway : Underway arcs (.leave id :: rest) state) :
    Underway arcs rest { state with finished := id :: state.finished } := by
  have leaving_cons : leaving (.leave id :: rest) = id :: leaving rest := rfl
  have once := underway.once
  rw [leaving_cons, List.cons_append, List.nodup_cons, List.mem_append, not_or] at once
  obtain ⟨⟨-, unfinished⟩, later⟩ := once
  have finished (next : Nat) (follows : Follows arcs id next) : next ∈ state.finished := by
    have discovered : next ∈ state.discovered := by
      simpa using underway.settled [] id rest rfl next follows
    rcases (underway.pending next).1 discovered with open_ | done
    · rw [leaving_cons] at open_
      rcases List.mem_cons.1 open_ with rfl | below
      · exact absurd (.single follows) (acyclic next)
      · have back := (List.pairwise_cons.1 underway.nested).1 _ (mem_leaving.1 below) next rfl
        exact absurd (.head follows back) (acyclic id)
    · exact done
  refine {
    pending := fun other => ?_
    once := ?_
    nested := (List.pairwise_cons.1 underway.nested).2
    settled := fun above other below split next follows => ?_
    downward := fun other mem next follows => ?_
    sorted := List.pairwise_cons.2 ⟨fun other mem follows => ?_, underway.sorted⟩ }
  · rw [underway.pending, leaving_cons, List.mem_cons, List.mem_cons]
    tauto
  · refine (List.perm_middle.nodup_iff).2 (List.nodup_cons.2 ⟨?_, later⟩)
    have once := underway.once
    rw [leaving_cons, List.cons_append, List.nodup_cons] at once
    exact once.1
  · rcases underway.settled (.leave id :: above) other below (by rw [split]; rfl) next follows with
      here | task
    · exact .inl here
    · exact .inr (by simpa using task)
  · rcases List.mem_cons.1 mem with rfl | mem
    · exact List.mem_cons_of_mem _ (finished next follows)
    · exact List.mem_cons_of_mem _ (underway.downward other mem next follows)
  · exact unfinished (underway.downward other mem id follows)

/-- Meeting a node again keeps a walk underway. -/
theorem Underway.skip {arcs : List (Nat × Nat)} {id : Nat} {rest : List Task} {state : Walk}
    (underway : Underway arcs (.enter id :: rest) state) (known : id ∈ state.discovered) :
    Underway arcs rest state where
  pending := underway.pending
  once := underway.once
  nested := (List.pairwise_cons.1 underway.nested).2
  settled above other below split next follows := by
    rcases underway.settled (.enter id :: above) other below (by rw [split]; rfl) next follows with
      here | task
    · exact .inl here
    · rcases List.mem_cons.1 task with same | task
      · cases same; exact .inl known
      · exact .inr task
  downward := underway.downward
  sorted := underway.sorted

/-- Entering a new node keeps a walk underway. -/
theorem Underway.enter {arcs : List (Nat × Nat)} {id : Nat} {rest : List Task} {state : Walk}
    (underway : Underway arcs (.enter id :: rest) state) (fresh : id ∉ state.discovered) :
    Underway arcs ((arcEnds arcs id).reverse.map .enter ++ .leave id :: rest)
      { state with discovered := id :: state.discovered } := by
  have leaving_eq : leaving ((arcEnds arcs id).reverse.map .enter ++ .leave id :: rest) =
      id :: leaving rest := leaving_enter _ _
  obtain ⟨above_rest, nested_rest⟩ := List.pairwise_cons.1 underway.nested
  refine {
    pending := fun other => ?_
    once := ?_
    nested := List.pairwise_append.2 ⟨?_, List.pairwise_cons.2 ⟨above_rest, nested_rest⟩,
      fun task mem below there other same => ?_⟩
    settled := fun above other below split next follows => ?_
    downward := underway.downward
    sorted := underway.sorted }
  · rw [leaving_eq, List.mem_cons, List.mem_cons, underway.pending other]
    exact or_assoc.symm
  · rw [leaving_eq, List.cons_append, List.nodup_cons, List.mem_append]
    exact ⟨fun mem => fresh ((underway.pending id).2 mem), underway.once⟩
  · rw [List.pairwise_map]
    exact List.pairwise_of_forall fun _ _ _ same => by cases same
  · obtain ⟨next, follows, rfl⟩ := List.mem_map.1 mem
    have follows : Follows arcs id next := List.mem_reverse.1 follows
    rcases List.mem_cons.1 there with rfl | there
    · cases same; exact .single follows
    · exact (above_rest below there other same).tail follows
  · rcases split_leave split with ⟨rfl, rfl⟩ | ⟨more, rfl, rfl⟩
    · exact .inr (by simpa [Follows] using follows)
    · rcases underway.settled (.enter id :: more) other below rfl next follows with here | task
      · exact .inl (List.mem_cons_of_mem _ here)
      · rcases List.mem_cons.1 task with same | task
        · cases same; exact .inl (by simp)
        · exact .inr (by simp [task])

/-- A walk along arcs without cycles stays underway until nothing is left to do. -/
theorem Underway.walk {arcs : List (Nat × Nat)} (acyclic : ∀ id, ¬ TransGen (Follows arcs) id id)
    {tasks : List Task} {state : Walk} (underway : Underway arcs tasks state) :
    Underway arcs [] (walk arcs tasks state) := by
  fun_induction Graph.walk arcs tasks state with
  | case1 state => exact underway
  | case2 state id rest ih => exact ih (underway.leave acyclic)
  | case3 state id rest known ih => exact ih (underway.skip known)
  | case4 state id rest fresh ih => exact ih (underway.enter fresh)

end Graph

end Shadeloom
