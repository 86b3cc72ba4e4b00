import Mathlib
import Shadeloom.Proofs.Build.Reaching
import Shadeloom.Proofs.Build.Statements
import Shadeloom.Proofs.Graph.Counting
/-!
# One node for each tree

Where sockets are used again, the trees that have been built are told apart by sameness, and with each
of them what its node is fed with has been built. While the operands of a tree are built the tree
itself is not, since it is larger than all that they reach; so it is kept once, after them. Therefore
as many nodes that compute something are added as literals and operations are kept: all that are
reached, each of them once.
-/
namespace Shadeloom

open Relation

/-- Whether a node is neither a port nor splits the vector of an input. -/
def NodeKind.isComputing : NodeKind → Bool
  | .namedInput => false
  | .namedOutput => false
  | .vectorSplit => false
  | _ => true

namespace Graph

/-- The number of nodes that are neither ports nor split the vector of an input. -/
def computingCount (graph : Graph) : Nat :=
  graph.countNodes fun op => op.kind.isComputing

/-- A node that is added counts if it computes something. -/
theorem Sound.computingCount_addNode {graph : Graph} (sound : graph.Sound) (node : Node) :
    (graph.addNode node).computingCount =
      graph.computingCount + if node.op.kind.isComputing then 1 else 0 :=
  sound.countNodes_addNode node

/-- Whether every node that splits a vector splits that of an input, and no two split the same. -/
structure SplitsOnce (graph : Graph) : Prop where
  fed : ∀ id node, graph.node? id = some node → node.op.kind = .vectorSplit →
    ∃ name input, graph.input? name = some input ∧ graph.source? ⟨id, 0⟩ = some ⟨input, 0⟩
  once : ∀ a b node node', graph.node? a = some node → node.op.kind = .vectorSplit →
    graph.node? b = some node' → node'.op.kind = .vectorSplit →
    graph.source? ⟨a, 0⟩ = graph.source? ⟨b, 0⟩ → a = b

end Graph

/-- The node of a function on operands computes something. -/
theorem Recipe.isComputing_ofFunction {function : Function} {operands : List Expr} {recipe : Recipe}
    (made : ofFunction function operands = .ok recipe) :
    recipe.node.op.kind.isComputing = true := by
  have plain {op : NodeOp} (computing : op.kind.isComputing = true)
      (made : plain function op operands = .ok recipe) :
      recipe.node.op.kind.isComputing = true := by
    obtain ⟨-, rfl⟩ := plain_eq_ok made
    exact computing
  have configured {op : List Expr → Except SettingFault NodeOp}
      (computing : ∀ settings kind, op settings = .ok kind → kind.kind.isComputing = true)
      (made : configured function operands op = .ok recipe) :
      recipe.node.op.kind.isComputing = true := by
    obtain ⟨first, settings, kind, -, found, rfl⟩ := configured_eq_ok made
    exact computing settings kind found
  unfold ofFunction at made
  split at made
  · obtain ⟨-, rfl⟩ | ⟨first, rest, -, -, rfl⟩ := math_eq_ok made
    · rfl
    · rfl
  all_goals first
    | exact plain rfl made
    | cases made
    | refine configured (fun settings kind same => ?_) made
      obtain ⟨_, -, equal⟩ := bind_eq_ok_iff.1 same
      cases equal
      rfl

/-- A recipe makes a node that computes something. -/
theorem Recipe.isComputing {library : Library} {e : Expr} {recipe : Recipe}
    (planned : Plan.of library e = .ok (.make recipe)) : recipe.node.op.kind.isComputing = true := by
  obtain ⟨literal, rfl, made⟩ | ⟨x, y, z, rfl, made⟩ | ⟨name, -, made⟩ := Plan.make_cases planned
  · obtain ⟨number, -, rfl⟩ := ofLiteral_eq_ok made
    rfl
  · obtain ⟨-, rfl⟩ := ofCombine_eq_ok made
    rfl
  · obtain ⟨-, ⟨group, -, instance_⟩ | ⟨-, function, -, applied⟩⟩ := ofOperation_eq_ok made
    · obtain ⟨definition, -, -, rfl⟩ := ofGroup_eq_ok instance_
      rfl
    · exact isComputing_ofFunction applied

/-- Whether a variable reads an input. -/
def Variable.ReadsInput (v : Variable) : Prop :=
  Text.afterStart? Function.instanceMark v.name = none

/-- Whether a variable reads a component of an input. -/
def Variable.ReadsComponent (v : Variable) : Prop :=
  v.ReadsInput ∧ ∃ subscript, v.subscript = some subscript ∧ subscript ≠ ""

namespace Scope

variable {library : Library} {held : List Nat} {before after : Scope}

/-- Reading a variable asks for its input, unless it names an instance, and splits the vector of the
input for a component. -/
theorem readVariable_reads {v : Variable} {socket : Socket}
    (done : before.readVariable v = .ok (socket, after)) :
    (¬ v.ReadsInput ∧ after = before) ∨ v.ReadsInput ∧ ∃ defaults type input asked,
      Scope.addInput { before with defaults } v.name type = (input, asked) ∧
        ((¬ v.ReadsComponent ∧ after = asked) ∨
          v.ReadsComponent ∧ ∃ id, asked.split v.name input = .ok (id, after)) := by
  obtain ⟨name, named, -, rfl⟩ | ⟨plain, defaults, -, type, input, asked, asks, read⟩ :=
    readVariable_eq_ok done
  · exact .inl ⟨by simp [Variable.ReadsInput, named], rfl⟩
  · refine .inr ⟨plain, defaults, type, input, asked, asks, ?_⟩
    obtain ⟨whole, -, -, rfl⟩ | ⟨whole, -, -, rfl⟩ |
      ⟨subscript, -, id, selects, part, -, -, -, split⟩ := read
    · exact .inl ⟨by simp [Variable.ReadsComponent, whole], rfl⟩
    · exact .inl ⟨by simp [Variable.ReadsComponent, whole], rfl⟩
    · exact .inr ⟨⟨plain, subscript, selects, part⟩, id, split⟩

/-- Asking for an input adds no node that computes something. -/
theorem computingCount_addInput (sound : before.graph.Sound) (name : String) (type : SocketType) :
    (before.addInput name type).2.graph.computingCount = before.graph.computingCount := by
  have adds := sound.addInput name type
  have count : (before.addInput name type).2.graph.computingCount = before.graph.computingCount +
      if (before.graph.input? name).isNone && false then 1 else 0 :=
    adds.countNodes fun op op' same => congrArg NodeKind.isComputing same
  rwa [Bool.and_false] at count

/-- Reading a variable builds no tree and adds no node that computes something. -/
theorem Tidy.readVariable_computes (tidy : before.Tidy library held) {v : Variable} {socket : Socket}
    (done : before.readVariable v = .ok (socket, after)) : after.built = before.built ∧
      after.graph.computingCount = before.graph.computingCount := by
  obtain ⟨-, rfl⟩ | ⟨-, defaults, type, input, asked, asks, read⟩ := readVariable_reads done
  · exact ⟨rfl, rfl⟩
  · have start := (tidy.withDefaults defaults).tidy
    have count := computingCount_addInput start.runnable.sound v.name type
    obtain ⟨advances, -, same, offers⟩ := start.addInput v.name type
    rw [asks] at count advances same offers
    have built := congrArg Scope.built same
    obtain ⟨-, rfl⟩ | ⟨-, id, split⟩ := read
    · exact ⟨built, count⟩
    · obtain ⟨-, rfl⟩ | ⟨-, rfl, graph, -, connects, rfl⟩ := advances.tidy.split_eq_ok offers split
      · exact ⟨built, count⟩
      · have split := advances.tidy.runnable.sound.computingCount_addNode (.ofOp .separateXyz)
        exact ⟨built, (connects.countNodes.trans split).trans count⟩

end Scope

namespace Scope

/-- Whether the trees that have been built are not the same, and with each of them all is built that
its node is fed with. -/
structure Caches (scope : Scope) : Prop where
  distinct : scope.built.Pairwise fun a b => a.1.same b.1 = false
  closed : ∀ entry ∈ scope.built, ∀ operand, entry.1.FedBy operand →
    ∃ other ∈ scope.built, operand.same other.1 = true

/-- The number of literals and operations that have been built. -/
def computed (scope : Scope) : Nat :=
  scope.built.countP fun entry => entry.1.isComputed

/-- Whether every node that splits a vector splits that of an input, and is kept under its name. -/
def SplitsKept (scope : Scope) : Prop :=
  ∀ id node, scope.graph.node? id = some node → node.op.kind = .vectorSplit →
    ∃ name input, scope.splits.get? name = some id ∧ scope.graph.input? name = some input ∧
      scope.graph.source? ⟨id, 0⟩ = some ⟨input, 0⟩

/-- What building some trees adds to a scope: trees that they reach are kept, and one node that
computes something is added for each of them. -/
structure Shares (reached : Expr → Prop) (before after : Scope) : Prop where
  caches : after.Caches
  kept : ∀ entry ∈ before.built, entry ∈ after.built
  fresh : ∀ entry ∈ after.built, entry ∈ before.built ∨ reached entry.1
  count : after.graph.computingCount + before.computed =
    before.graph.computingCount + after.computed
  splits : before.SplitsKept → after.SplitsKept

section

variable {library : Library} {held : List Nat} {before after : Scope} {reached : Expr → Prop}

/-- A tree that is taken again is the same as one that has been built. -/
theorem exists_of_remembered {reuse : Bool} {e : Expr} {socket : Socket}
    (found : before.remembered? reuse e = some socket) :
    ∃ entry ∈ before.built, e.same entry.1 = true := by
  unfold Scope.remembered? at found
  split at found
  · obtain ⟨entry, first, -⟩ := Option.map_eq_some_iff.1 found
    have same := List.find?_some first
    exact ⟨entry, List.mem_of_find?_eq_some first, (Expr.same_comm e entry.1).trans same⟩
  · cases found

/-- Where a tree is built, all is that it reaches. -/
theorem Caches.exists_of_path (caches : before.Caches) {e operand : Expr}
    (here : ∃ entry ∈ before.built, e.same entry.1 = true)
    (path : ReflTransGen Expr.FedBy e operand) :
    ∃ entry ∈ before.built, operand.same entry.1 = true := by
  induction path with
  | refl => exact here
  | tail _ fedBy ih =>
    obtain ⟨entry, mem, same⟩ := ih
    obtain ⟨operand', fedBy', alike⟩ := Expr.exists_same_of_mem (Expr.fed_of_same same) fedBy
    obtain ⟨other, mem', same'⟩ := caches.closed entry mem operand' fedBy'
    exact ⟨other, mem', Expr.same_trans alike same'⟩

/-- A step that keeps the trees that have been built and the nodes that compute something. -/
theorem Caches.shares (caches : before.Caches) (built : after.built = before.built)
    (count : after.graph.computingCount = before.graph.computingCount)
    (splits : before.SplitsKept → after.SplitsKept) : before.Shares reached after where
  caches := ⟨built ▸ caches.distinct, by rw [built]; exact caches.closed⟩
  kept entry mem := built ▸ mem
  fresh entry mem := .inl (built ▸ mem)
  count := by rw [count, computed, computed, built]
  splits := splits

/-- What building some trees and then others adds. -/
theorem Shares.trans {middle : Scope} {reached' reached'' : Expr → Prop}
    (early : before.Shares reached middle) (late : middle.Shares reached' after)
    (first : ∀ e, reached e → reached'' e) (second : ∀ e, reached' e → reached'' e) :
    before.Shares reached'' after where
  caches := late.caches
  kept entry mem := late.kept entry (early.kept entry mem)
  fresh entry mem := by
    rcases late.fresh entry mem with mem | reached
    · exact (early.fresh entry mem).imp_right (first entry.1)
    · exact .inr (second entry.1 reached)
  count := by
    have := early.count
    have := late.count
    omega
  splits kept := late.splits (early.splits kept)

/-- Splits stay kept when a node is added that splits nothing. -/
theorem SplitsKept.addNode (kept : before.SplitsKept) (sound : before.graph.Sound) {node : Node}
    (other : node.op.kind ≠ .vectorSplit) : (before.addNode node).SplitsKept := by
  intro id found here kind
  have here : (before.graph.addNode node).node? id = some found := here
  rw [sound.node?_addNode] at here
  split at here
  · cases here
    exact absurd kind other
  · obtain ⟨name, input, listed, named, linked⟩ := kept id found here kind
    refine ⟨name, input, listed, ?_, (sound.source?_addNode _).trans linked⟩
    show (before.graph.addNode node).input? name = some input
    rw [Graph.input?, Graph.inputs_addNode]
    exact named

/-- Splits stay kept when an input is asked for. -/
theorem SplitsKept.addInput (kept : before.SplitsKept) (tidy : before.Tidy library held)
    (name : String) (type : SocketType) : (before.addInput name type).2.SplitsKept := by
  obtain ⟨advances, adds, same, -⟩ := tidy.addInput name type
  intro id found here kind
  have old : ∃ node, before.graph.node? id = some node ∧ node.op.kind = .vectorSplit := by
    by_cases same : id = (before.addInput name type).1
    · subst same
      cases known : before.graph.node? (before.addInput name type).1 with
      | none =>
        rw [(adds.fresh known).2] at here
        cases here
        cases kind
      | some old =>
        rw [(adds.known old known).2] at here
        cases here
        exact ⟨old, rfl, (old.kind_widened type) ▸ kind⟩
    · exact ⟨found, (adds.node? id same).symm.trans here, kind⟩
  obtain ⟨node, found, kind⟩ := old
  obtain ⟨name', input, listed, named, linked⟩ := kept id node found kind
  refine ⟨name', input, ?_, advances.grows.input? _ _ named, (adds.source? _).trans linked⟩
  rw [same]
  exact listed

/-- Splits stay kept when a node is linked into that is held back. -/
theorem SplitsKept.connect (kept : before.SplitsKept) (tidy : before.Tidy library held)
    {source target : Socket} (into : target.node ∈ held) {graph : Graph}
    (connects : before.graph.Connects graph source target) :
    SplitsKept { before with graph } := by
  intro id found here kind
  obtain ⟨name, input, listed, named, linked⟩ := kept id found (connects.node? id ▸ here) kind
  refine ⟨name, input, listed, ?_, ?_⟩
  · show graph.input? name = some input
    rw [Graph.input?, connects.inputs]
    exact named
  · show graph.source? ⟨id, 0⟩ = some ⟨input, 0⟩
    rw [connects.source?, if_neg]
    · exact linked
    · rintro rfl
      exact (tidy.splits name id listed).2 into

/-- A link adds nothing to what is kept. -/
theorem Caches.connect (caches : before.Caches) (tidy : before.Tidy library held)
    {source target : Socket} (offers : source.node ∉ held) (into : target.node ∈ held)
    (done : before.connect source target = .ok after) : before.Shares reached after := by
  obtain ⟨-, connects, same⟩ := tidy.connect offers into done
  refine caches.shares (by rw [same]) connects.countNodes fun kept => ?_
  rw [same]
  exact kept.connect tidy into connects

/-- Splits stay kept when a vector is split. -/
theorem SplitsKept.split (kept : before.SplitsKept) (tidy : before.Tidy library held) {name : String}
    {input id : Nat} (offers : before.Offers held input)
    (named : before.graph.input? name = some input)
    (done : before.split name input = .ok (id, after)) : after.SplitsKept := by
  obtain ⟨-, rfl⟩ | ⟨absent, rfl, graph, -, connects, rfl⟩ := tidy.split_eq_ok offers done
  · exact kept
  · have sound := tidy.runnable.sound
    have input? (name : String) : graph.input? name = before.graph.input? name := by
      rw [Graph.input?, connects.inputs]
      exact congrArg (Table.get? · name) (Graph.inputs_addNode _ _)
    intro other found here kind
    have here : (before.graph.addNode (.ofOp .separateXyz)).node? other = some found :=
      connects.node? other ▸ here
    rw [sound.node?_addNode] at here
    split at here
    · rename_i same
      subst same
      refine ⟨name, input, ?_, (input? name).trans named, (connects.source? _).trans (if_pos rfl)⟩
      rw [Table.get?_insert, if_pos rfl]
    · rename_i apart
      obtain ⟨name', input', listed, named', linked⟩ := kept other found here kind
      refine ⟨name', input', ?_, (input? name').trans named', (connects.source? _).trans ?_⟩
      · rw [Table.get?_insert, if_neg]
        · exact listed
        · rintro rfl
          rw [absent] at listed
          cases listed
      · rw [if_neg]
        · exact (sound.source?_addNode _).trans linked
        · intro same
          exact apart (Socket.eq_iff.1 same).1

/-- Splits stay kept when a variable is read. -/
theorem SplitsKept.readVariable (kept : before.SplitsKept) (tidy : before.Tidy library held)
    {v : Variable} {socket : Socket} (done : before.readVariable v = .ok (socket, after)) :
    after.SplitsKept := by
  obtain ⟨-, rfl⟩ | ⟨-, defaults, type, input, asked, asks, read⟩ := readVariable_reads done
  · exact kept
  · have start := (tidy.withDefaults defaults).tidy
    have same : SplitsKept { before with defaults } := kept
    have added := same.addInput start v.name type
    obtain ⟨advances, adds, -, offers⟩ := start.addInput v.name type
    rw [asks] at added advances adds offers
    obtain ⟨-, rfl⟩ | ⟨-, id, split⟩ := read
    · exact added
    · exact added.split advances.tidy offers ((adds.input? v.name).trans (if_pos rfl)) split

/-- Reading a variable adds nothing to what is kept. -/
theorem Caches.readVariable (caches : before.Caches) (tidy : before.Tidy library held)
    {v : Variable} {socket : Socket} (done : before.readVariable v = .ok (socket, after)) :
    before.Shares reached after := by
  obtain ⟨built, count⟩ := tidy.readVariable_computes done
  exact caches.shares built count fun kept => kept.readVariable tidy done

/-- A tree is kept once all is built that its node is fed with, if no tree that is the same has been
built before. -/
theorem Shares.remember {start middle : Scope} {e : Expr} {socket : Socket}
    (shares : start.Shares reached middle) (built : start.built = before.built)
    (unknown : before.remembered? true e = none)
    (smaller : ∀ tree, reached tree → ReflTransGen Expr.FedBy e tree ∧ tree.size < e.size)
    (closed : ∀ operand, e.FedBy operand → ∃ entry ∈ middle.built, operand.same entry.1 = true)
    (count : start.graph.computingCount =
      before.graph.computingCount + if e.isComputed then 1 else 0)
    (splits : before.SplitsKept → start.SplitsKept) :
    before.Shares (ReflTransGen Expr.FedBy e) (middle.remember true e socket) := by
  have absent : ∀ entry ∈ before.built, entry.1.same e = false := by
    simpa [Scope.remembered?] using unknown
  have fresh : ∀ entry ∈ middle.built, entry ∈ before.built ∨ reached entry.1 := built ▸ shares.fresh
  -- What has been built since is reached by an operand, so it is smaller than the tree.
  have apart : ∀ entry ∈ middle.built, e.same entry.1 = false := by
    intro entry mem
    rcases fresh entry mem with mem | reached
    · rw [Expr.same_comm]
      exact absent entry mem
    · by_contra same
      have size := Expr.size_of_same (Bool.eq_true_of_not_eq_false same)
      have less := (smaller _ reached).2
      omega
  have more : (middle.remember true e socket).built = (e, socket) :: middle.built := rfl
  refine ⟨⟨?_, fun entry mem operand fedBy => ?_⟩, fun entry mem => ?_, fun entry mem => ?_, ?_,
    fun kept => shares.splits (splits kept)⟩
  · exact List.pairwise_cons.2 ⟨apart, shares.caches.distinct⟩
  · have old : ∃ other ∈ middle.built, operand.same other.1 = true := by
      rcases List.mem_cons.1 mem with rfl | mem
      · exact closed operand fedBy
      · exact shares.caches.closed entry mem operand fedBy
    obtain ⟨other, mem, same⟩ := old
    exact ⟨other, .tail _ mem, same⟩
  · exact .tail _ (shares.kept entry (built ▸ mem))
  · rcases List.mem_cons.1 mem with rfl | mem
    · exact .inr .refl
    · exact (fresh entry mem).imp_right fun reached => (smaller _ reached).1
  · have one : (middle.remember true e socket).computed =
        middle.computed + if e.isComputed then 1 else 0 := by
      rw [computed, more, List.countP_cons]
      rfl
    have before' : start.computed = before.computed := by rw [computed, computed, built]
    have total := shares.count
    show middle.graph.computingCount + before.computed = _
    omega

end

end Scope

section

variable {library : Library}

/-- Building a tree adds one node for each literal and operation that it reaches and that has not
been built, and feeding a node one for each that its operands reach. -/
theorem lower_shares (runnable : Library.Runnable library) :
    (∀ held e scope socket after, scope.Tidy library held →
      lower library true e scope = .ok (socket, after) → scope.Caches →
        scope.Shares (ReflTransGen Expr.FedBy e) after ∧
          ∃ entry ∈ after.built, e.same entry.1 = true) ∧
    ∀ held operands id scope after, scope.Tidy library (id :: held) →
      feed library true operands id scope = .ok after → scope.Caches →
        scope.Shares (fun tree => ∃ e ∈ operands.map Prod.snd, ReflTransGen Expr.FedBy e tree)
          after ∧
        ∀ e ∈ operands.map Prod.snd, ∃ entry ∈ after.built, e.same entry.1 = true := by
  apply @lower_tidy_induct library true runnable
    (fun _ e scope _ after => scope.Caches → scope.Shares (ReflTransGen Expr.FedBy e) after ∧
      ∃ entry ∈ after.built, e.same entry.1 = true)
    (fun _ operands _ scope after => scope.Caches →
      scope.Shares (fun tree => ∃ e ∈ operands.map Prod.snd, ReflTransGen Expr.FedBy e tree) after ∧
        ∀ e ∈ operands.map Prod.snd, ∃ entry ∈ after.built, e.same entry.1 = true)
  case remembered =>
    intro held e scope socket tidy found caches
    exact ⟨caches.shares rfl rfl fun kept => kept, Scope.exists_of_remembered found⟩
  case read =>
    intro held v scope socket after tidy fresh reads caches
    have shares : scope.Shares (fun _ => False) after := caches.readVariable tidy reads
    exact ⟨shares.remember rfl fresh (fun _ never => never.elim) (fun _ never => by cases never) rfl
      fun kept => kept, _, List.mem_cons_self, Expr.same_refl _⟩
  case make =>
    intro held e scope recipe fed tidy fresh planned feeds caches
    have sound := tidy.runnable.sound
    have computing := Recipe.isComputing planned
    obtain ⟨shares, each⟩ := feeds ⟨caches.distinct, caches.closed⟩
    rw [Recipe.map_operands planned] at shares each
    refine ⟨shares.remember rfl fresh (fun tree ⟨operand, fedBy, path⟩ => ?_) each ?_
      fun kept => kept.addNode sound ?_, _, List.mem_cons_self, Expr.same_refl _⟩
    · have less := Expr.size_lt_of_fedBy fedBy
      have most := Expr.size_le_of_path path
      exact ⟨.head fedBy path, by omega⟩
    · rw [Recipe.isComputed_of_make planned, if_pos rfl]
      have count := sound.computingCount_addNode recipe.node
      rwa [if_pos computing] at count
    · intro split
      rw [split] at computing
      cases computing
  case nil =>
    intro held id scope caches
    exact ⟨caches.shares rfl rfl fun kept => kept, by simp⟩
  case cons =>
    intro held place e rest id scope source built linked after tidy advances offers links first others
      caches
    obtain ⟨early, here⟩ := first caches
    have link : built.Shares (fun _ => False) linked :=
      early.caches.connect advances.tidy offers (by simp) links
    obtain ⟨late, each⟩ := others link.caches
    refine ⟨early.trans (link.trans late (fun _ never => never.elim) fun _ here => here)
      (fun tree path => ⟨e, by simp, path⟩) fun tree ⟨operand, mem, path⟩ =>
        ⟨operand, List.mem_cons_of_mem _ mem, path⟩, fun operand mem => ?_⟩
    rcases List.mem_cons.1 mem with rfl | mem
    · obtain ⟨entry, mem, same⟩ := here
      exact ⟨entry, late.kept _ (link.kept _ mem), same⟩
    · exact each operand mem

end

namespace Expr

/-- Trees are told apart by sameness. -/
def sameness : Setoid Expr where
  r a b := a.same b = true
  iseqv := ⟨same_refl, fun {a b} same => (same_comm b a).trans same, same_trans⟩

/-- The different trees among the literals and operations that are reached when a tree is built. -/
def reachedTrees (root : Expr) : Set (Quotient sameness) :=
  {tree | ∃ e, root.Reaches e ∧ e.isComputed = true ∧ Quotient.mk sameness e = tree}

/-- The different trees that a literal or an operation reaches are itself and those that are reached
by what it is fed with. -/
theorem reachedTrees_eq_insert {e : Expr} (computed : e.isComputed = true) :
    e.reachedTrees = insert (Quotient.mk sameness e)
      {tree | ∃ operand ∈ e.fed, tree ∈ operand.reachedTrees} := by
  ext tree
  rw [Set.mem_insert_iff]
  constructor
  · rintro ⟨reached, path, computed', rfl⟩
    rcases (reaches_iff.1 path).cases_head with rfl | ⟨operand, fedBy, later⟩
    · exact .inl rfl
    · exact .inr ⟨operand, fedBy, reached, reaches_iff.2 later, computed', rfl⟩
  · rintro (rfl | ⟨operand, fedBy, reached, path, computed', rfl⟩)
    · exact ⟨e, .root, computed, rfl⟩
    · exact ⟨reached, reaches_iff.2 (.head fedBy (reaches_iff.1 path)), computed', rfl⟩

/-- A variable reaches no literal and no operation. -/
theorem reachedTrees_var (v : Variable) : (Expr.var v).reachedTrees = ∅ := by
  refine Set.eq_empty_iff_forall_notMem.2 ?_
  rintro tree ⟨reached, path, computed, -⟩
  rcases (reaches_iff.1 path).cases_head with rfl | ⟨operand, fedBy, -⟩
  · cases computed
  · cases fedBy

/-- The tree that a statement builds, if it is no directive. -/
def lowered? (statement : Expr) : Option Expr :=
  match statement with
  | .empty => none
  | .call name _ => if (Builder.directive? name).isSome then none else some statement
  | .binary .assign _ tree => some tree
  | _ => some statement

/-- An expression without a name is built itself. -/
theorem IsBare.lowered?_eq {e : Expr} (bare : e.IsBare) : e.lowered? = some e := by
  cases e with
  | empty => exact absurd rfl bare.present
  | call name args => simp [lowered?, bare.call name args rfl]
  | binary op lhs rhs =>
    cases op with
    | assign => exact absurd rfl (bare.unnamed lhs rhs)
    | _ => rfl
  | _ => rfl

end Expr

namespace Scope

variable {library : Library} {held : List Nat} {scope : Scope}

/-- Where a tree has been built and nothing else that it does not reach, the literals and operations
that it reaches are as many as those that are kept. -/
theorem Caches.encard_reachedTrees (caches : scope.Caches) {root : Expr}
    (here : ∃ entry ∈ scope.built, root.same entry.1 = true)
    (reached : ∀ entry ∈ scope.built, ReflTransGen Expr.FedBy root entry.1) :
    root.reachedTrees.encard = scope.computed := by
  classical
  let kept := (scope.built.filter fun entry => entry.1.isComputed).map fun entry =>
    Quotient.mk Expr.sameness entry.1
  have distinct : kept.Nodup := by
    refine List.pairwise_map.2 ((caches.distinct.filter _).imp fun apart equal => ?_)
    have same := Quotient.exact equal
    exact Bool.false_ne_true (apart.symm.trans same)
  have each : root.reachedTrees = kept.toFinset := by
    ext tree
    rw [List.coe_toFinset]
    show (∃ e, root.Reaches e ∧ e.isComputed = true ∧ Quotient.mk Expr.sameness e = tree) ↔
      tree ∈ kept
    rw [List.mem_map]
    constructor
    · rintro ⟨e, path, computed, rfl⟩
      obtain ⟨entry, mem, same⟩ := caches.exists_of_path here (Expr.reaches_iff.1 path)
      have computed' : entry.1.isComputed = true := Expr.isComputed_of_same same ▸ computed
      exact ⟨entry, List.mem_filter.2 ⟨mem, computed'⟩, Quotient.sound (Expr.sameness.symm same)⟩
    · rintro ⟨entry, mem, rfl⟩
      obtain ⟨mem, computed⟩ := List.mem_filter.1 mem
      exact ⟨entry.1, Expr.reaches_iff.2 (reached entry mem), computed, rfl⟩
  rw [each, Set.encard_coe_eq_coe_finsetCard, List.toFinset_card_of_nodup distinct,
    List.length_map, ← List.countP_eq_length_filter]
  rfl

/-- No vector is split twice where every split is kept. -/
theorem SplitsKept.splitsOnce (kept : scope.SplitsKept) (sound : scope.graph.Sound) :
    scope.graph.SplitsOnce where
  fed id node found kind := by
    obtain ⟨name, input, -, named, linked⟩ := kept id node found kind
    exact ⟨name, input, named, linked⟩
  once a b node node' found kind found' kind' same := by
    obtain ⟨name, input, listed, named, linked⟩ := kept a node found kind
    obtain ⟨name', input', listed', named', linked'⟩ := kept b node' found' kind'
    rw [linked, linked', Option.some.injEq, Socket.mk.injEq] at same
    obtain rfl := same.1
    obtain rfl := sound.name_of_input? named named'
    exact Option.some.inj (listed.symm.trans listed')

end Scope

namespace Builder

variable {options : BuildOptions} {builder : Builder}

/-- Nothing has been built at the first statement. -/
theorem atStatement_start : (start options).atStatement = start options := by
  unfold atStatement
  split <;> rfl

/-- An output that is built first adds one node for each literal and operation that it reaches. -/
theorem start_output_shares (shared : options.optimize = true) {name : String} {type : SocketType}
    {root : Expr} (done : (start options).output name type root = .ok builder) :
    (builder.root.graph.computingCount : ℕ∞) = root.reachedTrees.encard ∧
      builder.root.graph.SplitsOnce := by
  obtain ⟨scope, lowered, rfl⟩ := output_eq_ok done
  let opened : Scope :=
    { Scope.empty rootName with graph := ((Graph.empty rootName).addOutput name type).2 }
  have tidy := Scope.tidy_empty .empty rootName
  have adds := tidy.runnable.sound.addOutput name type
  have ready : opened.Tidy .empty [((Graph.empty rootName).addOutput name type).1] :=
    tidy.addOutput adds
  have vacant : opened.Caches := ⟨.nil, fun entry mem => by cases mem⟩
  obtain ⟨⟨source, built⟩, builds, links⟩ := bind_eq_ok_iff.1 lowered
  have builds : lower .empty options.optimize root opened = .ok (source, built) := builds
  rw [shared] at builds
  obtain ⟨shares, entry, here, same⟩ :=
    (lower_shares Library.runnable_empty).1 _ root opened _ _ ready builds vacant
  obtain ⟨advances, offers⟩ :=
    (lower_keeps Library.runnable_empty true).1 root opened _ _ _ ready builds
  have into := List.mem_singleton_self ((Graph.empty rootName).addOutput name type).1
  have link : built.Shares (fun _ => False) scope :=
    shares.caches.connect advances.tidy offers.2 into links
  obtain ⟨linking, -⟩ := advances.tidy.connect offers.2 into links
  have whole : opened.Shares (ReflTransGen Expr.FedBy root) scope :=
    shares.trans link (fun _ path => path) fun _ never => never.elim
  have reached : ∀ entry ∈ scope.built, ReflTransGen Expr.FedBy root entry.1 := fun entry mem =>
    (whole.fresh entry mem).resolve_left List.not_mem_nil
  have counted := link.caches.encard_reachedTrees ⟨entry, link.kept entry here, same⟩ reached
  have none : opened.graph.computingCount = 0 := adds.countNodes
  have total : scope.graph.computingCount = scope.computed := by
    have count := whole.count
    rw [none] at count
    simpa [opened, Scope.computed, Scope.empty] using count
  have unsplit : opened.SplitsKept := by
    intro id node found kind
    have found := (adds.node? id).symm.trans found
    split at found
    · cases found
      cases kind
    · cases found
  refine ⟨?_, (whole.splits unsplit).splitsOnce linking.tidy.runnable.sound⟩
  rw [counted]
  exact congrArg Nat.cast total

/-- A first statement that is a directive adds nothing to the root. -/
theorem start_directive_root {role : Directive} {called : String} {arguments : List Expr}
    (done : (start options).directive role called arguments = .ok builder) :
    builder.root.graph = .empty rootName := by
  cases role with
  | groupStart =>
    obtain ⟨-, inputs, name, scope, -, -, declared, rfl⟩ := startGroup_eq_ok done
    rfl
  | groupEnd =>
    have done : (start options).endGroup called arguments = .ok builder := done
    obtain ⟨-, group, rest, site, -, -, opened, -⟩ := endGroup_eq_ok done
    cases opened
  | groupAdd =>
    obtain ⟨group, recipe, fed, called, graph, made, -⟩ := addInstance_eq_ok done
    obtain ⟨definition, found, -⟩ := Recipe.ofGroup_eq_ok made
    cases found
  | inputs | outputs =>
    obtain ⟨names, -, same⟩ := bind_eq_ok_iff.1 done
    cases same
    rfl

/-- A first statement adds one node for each literal and operation that it reaches, and splits no
vector twice. -/
theorem start_statement_shares (shared : options.optimize = true) {e : Expr}
    (done : (start options).statement e = .ok builder) :
    (builder.root.graph.computingCount : ℕ∞) =
        {tree | ∃ root ∈ e.lowered?, tree ∈ root.reachedTrees}.encard ∧
      builder.root.graph.SplitsOnce := by
  have single {root : Expr} (lowered : e.lowered? = some root) :
      {tree | ∃ root ∈ e.lowered?, tree ∈ root.reachedTrees} = root.reachedTrees := by
    simp [lowered]
  have unlowered (lowered : e.lowered? = none) (root : builder.root.graph = .empty rootName) :
      (builder.root.graph.computingCount : ℕ∞) =
          {tree | ∃ root ∈ e.lowered?, tree ∈ root.reachedTrees}.encard ∧
        builder.root.graph.SplitsOnce := by
    rw [root, lowered]
    refine ⟨by simp; rfl, ⟨fun id node found => ?_, fun a b node node' found => ?_⟩⟩
    · cases found
    · cases found
  obtain rfl | ⟨name, args, role, rfl, called⟩ | ⟨target, tree, rfl⟩ | bare := e.statement_cases
  · cases done
    have same : (start options).atStatement = start options := atStatement_start
    exact unlowered rfl (congrArg (fun builder => builder.root.graph) same)
  · rw [statement_of_directive called, atStatement_start] at done
    exact unlowered (by simp [Expr.lowered?, called]) (start_directive_root done)
  · obtain ⟨⟨name, type⟩, -, done⟩ := bind_eq_ok_iff.1 done
    have done : (start options).atStatement.output name type tree = .ok builder := done
    rw [atStatement_start] at done
    rw [single rfl]
    exact start_output_shares shared done
  · rw [statement_of_bare bare, atStatement_start] at done
    rw [single bare.lowered?_eq]
    exact start_output_shares shared done

end Builder

end Shadeloom
