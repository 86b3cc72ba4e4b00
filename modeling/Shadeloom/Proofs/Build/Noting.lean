import Mathlib
import Shadeloom.Proofs.Build.Lowering
import Shadeloom.Proofs.Build.Ramps
/-!
# Defaults that are noted

A variable that is read notes the default that is written for it, and the last one that is noted for
a name is the default of its input. A tree that has been built already is not built again, so its
variables are not read again either: while trees are used again, of equal variables only the first
one notes its default.
-/
namespace Shadeloom

open Shadeloom.Expr

section

variable {α : Type} [BEq α] [LawfulBEq α]

/-- Items that are in a list are none that it does not have yet. -/
theorem eraseDups_append_of_subset {early late : List α} (sub : ∀ a ∈ late, a ∈ early) :
    (early ++ late).eraseDups = early.eraseDups := by
  have none : late.removeAll early = [] := by
    simpa [List.removeAll, List.filter_eq_nil_iff] using sub
  rw [List.eraseDups_append, none, List.eraseDups_nil, List.append_nil]

/-- An item that is not in a list comes last. -/
theorem eraseDups_concat {items : List α} {a : α} (fresh : a ∉ items) :
    (items ++ [a]).eraseDups = items.eraseDups ++ [a] := by
  have kept : [a].removeAll items = [a] := by simp [List.removeAll, fresh]
  rw [List.eraseDups_append, kept]
  rfl

end

namespace Variable

/-- The number that is written as the default of a variable. -/
def number? (v : Variable) : Option Float :=
  v.fallback.bind readDefault?

/-- Whether a variable notes a default when it is read: one is written for it, and it is no reference
to an instance. -/
def hasDefault (v : Variable) : Bool :=
  v.fallback.isSome && (Text.afterStart? Function.instanceMark v.name).isNone

/-- The number that is written last for a name among variables. -/
def lastDefault? (vs : List Variable) (name : String) : Option Float :=
  (vs.filterMap fun v => if v.name = name then v.number? else none).getLast?

/-- A variable that comes last decides for its name, if it has a default. -/
theorem lastDefault?_concat (vs : List Variable) (v : Variable) (name : String) :
    lastDefault? (vs ++ [v]) name =
      if v.name = name then v.number?.or (lastDefault? vs name) else lastDefault? vs name := by
  unfold lastDefault?
  rw [List.filterMap_append, List.getLast?_append]
  by_cases here : v.name = name
  · cases number : v.number? <;> simp [here, number]
  · simp [here]

/-- Those of some variables that are read: all of them, or only the first ones of equal ones if trees
are used again. -/
def firsts (reuse : Bool) (vs : List Variable) : List Variable :=
  if reuse then vs.eraseDups else vs

/-- Variables that have been read are not read again while trees are used again. -/
theorem firsts_append_of_subset {early late : List Variable} (sub : ∀ v ∈ late, v ∈ early) :
    firsts true (early ++ late) = firsts true early :=
  eraseDups_append_of_subset sub

/-- A variable that has not been read is read. -/
theorem firsts_concat {reuse : Bool} {vs : List Variable} {v : Variable}
    (fresh : reuse = true → v ∉ vs) : firsts reuse (vs ++ [v]) = firsts reuse vs ++ [v] := by
  cases reuse with
  | false => rfl
  | true => exact eraseDups_concat (fresh rfl)

/-- No variables are read when there are none. -/
@[simp] theorem firsts_nil (reuse : Bool) : firsts reuse [] = [] := by
  cases reuse <;> rfl

end Variable

namespace Expr

variable {e e' : Expr}

/-- The variables of a tree that note a default when they are read, in preorder. -/
def defaulted (e : Expr) : List Variable :=
  e.usedVariables.filter Variable.hasDefault

/-- The variables of trees that note a default, tree by tree. -/
theorem defaulted_flatMap (es : List Expr) :
    es.flatMap defaulted = (es.flatMap usedVariables).filter Variable.hasDefault := by
  rw [List.filter_flatMap]
  rfl

/-- A call on a chain has the defaults of the elements of the chain. -/
theorem defaulted_call_chain (function : String) (es : List Expr) :
    (call function (chain es)).defaulted = es.flatMap defaulted := by
  rw [defaulted, usedVariables_call, usedVariables_chain, defaulted_flatMap]

/-- Trees that are the same use the same variables. -/
theorem usedVariables_of_same (same : e.same e' = true) : e.usedVariables = e'.usedVariables := by
  induction e generalizing e' with
  | empty => cases e' <;> first | rfl | cases same
  | var v =>
    cases e' with
    | var v' =>
      simp only [Expr.same, decide_eq_true_eq] at same
      rw [same]
    | _ => cases same
  | value literal => cases e' <;> first | rfl | cases same
  | combine x y z hx hy hz =>
    cases e' with
    | combine x' y' z' =>
      have optional {y y' : Option Expr}
          (ih : ∀ e ∈ y, ∀ {e' : Expr}, e.same e' = true → e.usedVariables = e'.usedVariables)
          (same : sameComponent y y' = true) :
          y.toList.flatMap usedVariables = y'.toList.flatMap usedVariables := by
        cases component_of_same same with
        | none => rfl
        | some here => simpa using ih _ rfl here
      simp only [Expr.same, Bool.and_eq_true] at same
      have other (a : Expr) (b c : Option Expr) (v : Variable) : combine a b c ≠ .var v :=
        fun equal => Expr.noConfusion equal
      rw [← usedVariables_operands (other x y z), ← usedVariables_operands (other x' y' z')]
      simp only [operands, components, List.flatMap_cons, List.flatMap_append, hx same.1.1,
        optional hy same.1.2, optional hz same.2]
    | _ => cases same
  | binary op lhs rhs hl hr =>
    cases e' with
    | binary op' lhs' rhs' =>
      simp only [Expr.same, Bool.and_eq_true] at same
      rw [usedVariables_binary, usedVariables_binary, hl same.1.2, hr same.2]
    | _ => cases same
  | call function args ha =>
    cases e' with
    | call function' args' =>
      simp only [Expr.same, Bool.and_eq_true] at same
      rw [usedVariables_call, usedVariables_call, ha same.2]
    | _ => cases same

/-- A word has no default. -/
theorem defaulted_of_word {word : String} (known : e.word? = some word) : e.defaulted = [] := by
  unfold word? at known
  split at known
  · simp [defaulted, Variable.hasDefault]
  · cases known

/-- A setting that is read as a number has no default. -/
theorem defaulted_of_settingNumber {a : Float} (read : e.settingNumber = .ok a) :
    e.defaulted = [] := by
  cases settingNumber_eq_ok_iff.1 read
  rfl

/-- A setting that is read as a name has no default. -/
theorem defaulted_of_settingName {name : String} (read : e.settingName = .ok name) :
    e.defaulted = [] := by
  unfold settingName at read
  split at read
  · rfl
  · cases read

/-- A setting that is read as a count has no default. -/
theorem defaulted_of_settingCount {count : Nat} (read : e.settingCount = .ok count) :
    e.defaulted = [] := by
  obtain ⟨a, number, -⟩ := bind_eq_ok_iff.1 read
  exact defaulted_of_settingNumber number

/-- A setting that is read as a color has no default. -/
theorem defaulted_of_settingColor {color : Vec3} (read : e.settingColor = .ok color) :
    e.defaulted = [] := by
  rcases settingColor_eq_ok_iff.1 read with ⟨⟨read⟩⟩ | ⟨⟨first⟩, second, third⟩
  · rfl
  · have plain {part : Option Expr} {a : Float} (component : IsComponent part a) :
        part.toList.flatMap usedVariables = [] := by
      rcases component with ⟨⟨read⟩⟩ | - <;> rfl
    rw [defaulted, ← usedVariables_operands fun v same => by cases same]
    simp only [operands, components, List.flatMap_cons, List.flatMap_append, plain second,
      plain third]
    rfl

end Expr

/-- Every item of a list has been read when steps along the list are carried out. -/
theorem exists_ok_of_foldlM {ε σ α : Type} {step : σ → α → Except ε σ} {items : List α}
    {first last : σ} (done : items.foldlM step first = .ok last) :
    ∀ item ∈ items, ∃ before after, step before item = .ok after := by
  induction items generalizing first with
  | nil => exact nofun
  | cons item rest ih =>
    rw [List.foldlM_cons] at done
    obtain ⟨between, read, later⟩ := bind_eq_ok_iff.1 done
    exact List.forall_mem_cons.2 ⟨⟨first, between, read⟩, ih later⟩

section

variable {settings : List Expr}

/-- The settings of a color ramp have no defaults. -/
theorem ColorRamp.defaulted_settings {ramp : ColorRamp} (set : ofArguments settings = .ok ramp) :
    ∀ e ∈ settings, e.defaulted = [] := by
  obtain ⟨read, reads, -⟩ := bind_eq_ok_iff.1 set
  rw [readArguments_eq] at reads
  obtain ⟨state, reads, -⟩ := bind_eq_ok_iff.1 reads
  intro e mem
  obtain ⟨before, after, step⟩ := exists_ok_of_foldlM reads e mem
  unfold readArgument at step
  split at step
  · rename_i word known
    exact defaulted_of_word known
  · split at step
    · obtain ⟨place, placed, -⟩ := bind_eq_ok_iff.1 step
      exact defaulted_of_settingNumber
        (settingNumber_eq_ok_iff.2 (position_eq_ok_iff.1 placed).1)
    · obtain ⟨color, colored, -⟩ := bind_eq_ok_iff.1 step
      exact defaulted_of_settingColor colored

/-- The settings of an image have no defaults. -/
theorem ImageTexture.defaulted_settings {texture : ImageTexture}
    (set : ofArguments settings = .ok texture) : ∀ e ∈ settings, e.defaulted = [] := by
  intro e mem
  obtain ⟨before, after, step⟩ := exists_ok_of_foldlM set e mem
  unfold readArgument at step
  split at step
  · rename_i word known
    exact defaulted_of_word known
  · split at step
    · cases step
    · obtain ⟨name, named, -⟩ := bind_eq_ok_iff.1 step
      exact defaulted_of_settingName named

/-- A value that a point density reads has no default. -/
theorem PointDensity.defaulted_of_readValue {before after : PointDensity} {e : Expr} {place : Nat}
    (read : before.readValue (e, place) = .ok after) : e.defaulted = [] := by
  unfold readValue at read
  split at read
  · unfold readParticleValue at read
    split at read <;> first | cases read | obtain ⟨a, value, -⟩ := bind_eq_ok_iff.1 read
    · exact defaulted_of_settingName value
    · exact defaulted_of_settingCount value
    · exact defaulted_of_settingNumber value
    · exact defaulted_of_settingCount value
  · unfold readVertexValue at read
    split at read <;> first | cases read | obtain ⟨a, value, -⟩ := bind_eq_ok_iff.1 read
    · exact defaulted_of_settingName value
    · exact defaulted_of_settingNumber value
    · exact defaulted_of_settingCount value
    · exact defaulted_of_settingName value

/-- The settings of a point density have no defaults. -/
theorem PointDensity.defaulted_settings {density : PointDensity}
    (set : ofArguments settings = .ok density) : ∀ e ∈ settings, e.defaulted = [] := by
  rw [ofArguments_eq] at set
  obtain ⟨worded, -, valued⟩ := bind_eq_ok_iff.1 set
  intro e mem
  cases known : e.word? with
  | some word => exact defaulted_of_word known
  | none =>
    obtain ⟨place, below, same⟩ := List.getElem_of_mem
      (List.mem_filter.2 ⟨mem, by rw [known]; rfl⟩ :
        e ∈ settings.filter fun argument => argument.word?.isNone)
    obtain ⟨before, after, read⟩ := exists_ok_of_foldlM valued (e, place)
      (List.mem_zipIdx_iff_getElem?.2 (by rw [List.getElem?_eq_getElem below, same]))
    exact defaulted_of_readValue read

end

namespace Recipe

variable {es : List Expr} {recipe : Recipe}

/-- The trees of operands that are fed in order are the trees that are given. -/
theorem map_snd_inOrder (es : List Expr) (first : Nat) :
    ((es.zipIdx first).map Prod.swap).map Prod.snd = es := by
  rw [List.map_map]
  exact List.zipIdx_map_fst first es

/-- The trees of the operands of an instance are those that the call is given. -/
theorem map_operands_ofGroup {library : Library} {function group : String}
    (made : ofGroup library function group es = .ok recipe) : recipe.operands.map Prod.snd = es := by
  obtain ⟨-, -, -, rfl⟩ := ofGroup_eq_ok made
  exact map_snd_inOrder es 0

/-- The operands of a function have the defaults of the trees that are given, in order. -/
theorem defaulted_ofFunction {function : Function} (made : ofFunction function es = .ok recipe) :
    (recipe.operands.map Prod.snd).flatMap defaulted = es.flatMap defaulted := by
  have plain {op : NodeOp} (made : plain function op es = .ok recipe) :
      (recipe.operands.map Prod.snd).flatMap defaulted = es.flatMap defaulted := by
    obtain ⟨-, rfl⟩ := plain_eq_ok made
    rw [inOrder, map_snd_inOrder]
  have configured {α : Type} {set : List Expr → Except SettingFault α} {op : α → NodeOp}
      (silent : ∀ settings result, set settings = .ok result → ∀ e ∈ settings, e.defaulted = [])
      (made : configured function es (fun settings => do .ok (op (← set settings))) = .ok recipe) :
      (recipe.operands.map Prod.snd).flatMap defaulted = es.flatMap defaulted := by
    obtain ⟨first, settings, kind, rfl, chosen, rfl⟩ := configured_eq_ok made
    obtain ⟨result, chosen, -⟩ := bind_eq_ok_iff.1 chosen
    rw [inOrder, map_snd_inOrder, List.flatMap_cons, List.flatMap_cons,
      List.flatMap_eq_nil_iff.2 (silent settings result chosen), List.flatMap_nil]
  unfold ofFunction at made
  split at made
  · obtain ⟨-, rfl⟩ | ⟨first, rest, rfl, -, rfl⟩ := math_eq_ok made
    · rw [inOrder, map_snd_inOrder]
    · rw [inOrder, map_snd_inOrder, List.flatMap_cons, List.flatMap_singleton,
        defaulted_call_chain, List.flatMap_cons]
  · exact plain made
  · exact plain made
  · exact plain made
  · exact plain made
  · exact plain made
  · exact plain made
  · exact configured (fun _ _ => ColorRamp.defaulted_settings) made
  · exact configured (fun _ _ => ImageTexture.defaulted_settings) made
  · exact configured (fun _ _ => PointDensity.defaulted_settings) made
  · cases made
  · cases made

/-- The operands of a node have the defaults of its tree, in order. -/
theorem defaulted_operands {library : Library} {e : Expr}
    (planned : Plan.of library e = .ok (.make recipe)) :
    (recipe.operands.map Prod.snd).flatMap defaulted = e.defaulted := by
  have whole (other : ∀ v, e ≠ .var v) : e.operands.flatMap defaulted = e.defaulted := by
    rw [defaulted_flatMap, usedVariables_operands other, defaulted]
  obtain ⟨literal, rfl, made⟩ | ⟨x, y, z, rfl, made⟩ | ⟨name, called, made⟩ :=
    Plan.make_cases planned
  · obtain ⟨number, -, rfl⟩ := ofLiteral_eq_ok made
    rfl
  · obtain ⟨-, rfl⟩ := ofCombine_eq_ok made
    rw [← whole nofun]
    cases y <;> cases z <;> rfl
  · rw [← whole fun v same => by cases same; cases called]
    obtain ⟨-, ⟨group, -, instance_⟩ | ⟨-, function, -, applied⟩⟩ := ofOperation_eq_ok made
    · rw [map_operands_ofGroup instance_]
    · exact defaulted_ofFunction applied

end Recipe

namespace Scope

open Variable

/-- Whether the defaults of a scope are the last ones of some variables. -/
def HasDefaultsOf (scope : Scope) (vs : List Variable) : Prop :=
  ∀ name, scope.defaults.get? name = lastDefault? vs name

/-- Whether a scope has the defaults of variables that were noted and of those that have been read
since trees were last forgotten, and the trees that have been built are known by the variables
read. -/
structure Reads (reuse : Bool) (noted read : List Variable) (scope : Scope) : Prop where
  defaults : scope.HasDefaultsOf (noted ++ firsts reuse read)
  written : reuse = true → ∀ entry ∈ scope.built, ∀ v ∈ entry.1.defaulted, v ∈ read
  known : reuse = true → ∀ v ∈ read, ∃ socket, (Expr.var v, socket) ∈ scope.built

section

variable {library : Library} {reuse : Bool} {noted read : List Variable} {before after : Scope}

/-- A default that is noted is that of one more variable. -/
theorem HasDefaultsOf.noteDefault {vs : List Variable} {v : Variable}
    (has : before.HasDefaultsOf vs) (done : before.noteDefault v = .ok after) :
    after.HasDefaultsOf (vs ++ [v]) := by
  intro name
  rw [lastDefault?_concat]
  unfold Scope.noteDefault at done
  split at done
  · rename_i unwritten
    cases done
    rw [has, number?, unwritten]
    split <;> rfl
  · rename_i text written
    obtain ⟨number, number_eq, same⟩ := bind_eq_ok_iff.1 done
    cases same
    unfold readDefault at number_eq
    split at number_eq
    · rename_i here
      cases number_eq
      rw [Table.get?_insert, has, number?, written, Option.bind_some, here]
      rfl
    · cases number_eq

namespace Reads

/-- What is read of a scope depends on its defaults and on the trees that have been built alone. -/
theorem congr (reads : before.Reads reuse noted read) (defaults : after.defaults = before.defaults)
    (built : after.built = before.built) : after.Reads reuse noted read where
  defaults := fun name => by rw [defaults]; exact reads.defaults name
  written := by rw [built]; exact reads.written
  known := by rw [built]; exact reads.known

/-- A tree whose variables have all been read is kept. -/
theorem remember (reads : before.Reads reuse noted read) {e : Expr} (socket : Socket)
    (sub : ∀ v ∈ e.defaulted, v ∈ read) : (before.remember reuse e socket).Reads reuse noted read := by
  cases reuse with
  | false => exact reads
  | true =>
    refine ⟨reads.defaults, fun _ => List.forall_mem_cons.2 ⟨sub, reads.written rfl⟩,
      fun _ v mem => ?_⟩
    obtain ⟨source, here⟩ := reads.known rfl v mem
    exact ⟨source, List.mem_cons_of_mem _ here⟩

/-- While trees are used again, a variable that is not remembered has not been read. -/
theorem not_mem_of_fresh (reads : before.Reads reuse noted read) {v : Variable}
    (fresh : before.remembered? reuse (.var v) = none) (reused : reuse = true) : v ∉ read := by
  subst reused
  intro mem
  obtain ⟨socket, here⟩ := reads.known rfl v mem
  have other : ∀ entry ∈ before.built, ¬ entry.1.same (.var v) = true := by
    simpa [Scope.remembered?] using fresh
  exact other _ here (by simp [Expr.same])

/-- A tree that is remembered has no variables that are not read. -/
theorem mem_of_remembered (reads : before.Reads reuse noted read) {e : Expr} {socket : Socket}
    (found : before.remembered? reuse e = some socket) :
    reuse = true ∧ ∀ v ∈ e.defaulted, v ∈ read := by
  unfold Scope.remembered? at found
  split at found
  · rename_i reused
    obtain ⟨entry, here, -⟩ := Option.map_eq_some_iff.1 found
    have same : entry.1.same e = true := by simpa using List.find?_some here
    refine ⟨reused, fun v mem => reads.written reused entry (List.mem_of_find?_eq_some here) v ?_⟩
    rwa [defaulted, usedVariables_of_same same]
  · cases found

end Reads

/-- A vector is split without regard to defaults and to the trees that have been built. -/
theorem split_keeps {name : String} {input id : Nat}
    (done : before.split name input = .ok (id, after)) :
    after.defaults = before.defaults ∧ after.built = before.built := by
  unfold Scope.split at done
  split at done
  · cases done
    exact ⟨rfl, rfl⟩
  · obtain ⟨linked, links, same⟩ := bind_eq_ok_iff.1 done
    obtain ⟨graph, -, rest⟩ := bind_eq_ok_iff.1 links
    cases same
    cases rest
    exact ⟨rfl, rfl⟩

/-- A variable that is read notes its default and leaves the trees that have been built. -/
theorem readVariable_notes {v : Variable} {socket : Socket}
    (done : before.readVariable v = .ok (socket, after)) : after.built = before.built ∧
      if v.hasDefault then ∃ noted, before.noteDefault v = .ok noted ∧
        after.defaults = noted.defaults
      else after.defaults = before.defaults := by
  obtain ⟨name, reference, -, rfl⟩ |
    ⟨plain, defaults, notes, type, input, asked, asks, taken⟩ := readVariable_eq_ok done
  · rw [if_neg (by simp [hasDefault, reference])]
    exact ⟨rfl, rfl⟩
  · have kept : asked.defaults = defaults ∧ asked.built = before.built := by
      cases asks
      exact ⟨rfl, rfl⟩
    have last : after.defaults = asked.defaults ∧ after.built = asked.built := by
      obtain ⟨-, -, -, rfl⟩ | ⟨-, -, -, rfl⟩ | ⟨-, -, id, -, -, -, -, -, splits⟩ := taken
      · exact ⟨rfl, rfl⟩
      · exact ⟨rfl, rfl⟩
      · exact split_keeps splits
    refine ⟨last.2.trans kept.2, ?_⟩
    rw [last.1, kept.1]
    split
    · exact ⟨_, notes, rfl⟩
    · rename_i silent
      have unwritten : v.fallback = none := by simpa [hasDefault, plain] using silent
      unfold Scope.noteDefault at notes
      rw [unwritten] at notes
      exact (congrArg Scope.defaults (Except.ok.inj notes)).symm

/-- A variable that is read and kept is one more that has been read. -/
theorem Reads.readVariable (reads : before.Reads reuse noted read) {v : Variable} {socket : Socket}
    (fresh : before.remembered? reuse (.var v) = none)
    (done : before.readVariable v = .ok (socket, after)) :
    (after.remember reuse (.var v) socket).Reads reuse noted (read ++ (Expr.var v).defaulted) := by
  obtain ⟨built, notes⟩ := readVariable_notes done
  cases has : v.hasDefault with
  | false =>
    rw [has, if_neg Bool.false_ne_true] at notes
    have none : (Expr.var v).defaulted = [] := by simp [defaulted, has]
    rw [none, List.append_nil]
    exact (reads.congr notes built).remember socket (by simp [none])
  | true =>
    rw [has, if_pos rfl] at notes
    obtain ⟨noted', notes, same⟩ := notes
    have one : (Expr.var v).defaulted = [v] := by simp [defaulted, has]
    have defaults : after.HasDefaultsOf (noted ++ firsts reuse (read ++ [v])) := by
      rw [firsts_concat (reads.not_mem_of_fresh fresh), ← List.append_assoc]
      exact fun name => by rw [same]; exact reads.defaults.noteDefault notes name
    rw [one]
    cases reuse with
    | false => exact ⟨defaults, nofun, nofun⟩
    | true =>
      refine ⟨defaults, fun _ => List.forall_mem_cons.2 ⟨by simp [one], fun entry mem w here => ?_⟩,
        fun _ w mem => ?_⟩
      · exact List.mem_append_left _ (reads.written rfl entry (built ▸ mem) w here)
      · rcases List.mem_append.1 mem with mem | mem
        · obtain ⟨source, here⟩ := reads.known rfl w mem
          exact ⟨source, List.mem_cons_of_mem _ (built ▸ here)⟩
        · rw [List.mem_singleton.1 mem]
          exact ⟨socket, List.mem_cons_self⟩

end

end Scope

section

open Scope

variable {library : Library} {reuse : Bool} {noted : List Variable}

/-- A tree that is built has its variables read, and operands that are fed have theirs. -/
theorem lower_keeps_reads :
    (∀ e before read socket after, before.Reads reuse noted read →
      lower library reuse e before = .ok (socket, after) →
        after.Reads reuse noted (read ++ e.defaulted)) ∧
    ∀ operands id before read after, before.Reads reuse noted read →
      feed library reuse operands id before = .ok after →
        after.Reads reuse noted (read ++ (operands.map Prod.snd).flatMap defaulted) := by
  have both := lower.mutual_induct library reuse
    (fun e before => ∀ read socket after, before.Reads reuse noted read →
      lower library reuse e before = .ok (socket, after) →
        after.Reads reuse noted (read ++ e.defaulted))
    (fun operands id before => ∀ read after, before.Reads reuse noted read →
      feed library reuse operands id before = .ok after →
        after.Reads reuse noted (read ++ (operands.map Prod.snd).flatMap defaulted))
    ?_ ?_ ?_ ?_ ?_ ?_
  · exact ⟨fun e before => both.1 e before, fun operands id before => both.2 operands id before⟩
  · intro e before socket found read socket' after reads done
    rw [lower_of_remembered found] at done
    cases done
    obtain ⟨rfl, sub⟩ := reads.mem_of_remembered found
    refine ⟨?_, fun _ entry mem v here => ?_, fun _ v mem => ?_⟩
    · rw [Variable.firsts_append_of_subset sub]
      exact reads.defaults
    · exact List.mem_append_left _ (reads.written rfl entry mem v here)
    · exact reads.known rfl v ((List.mem_append.1 mem).elim id (sub v))
  · intro e before fresh error planned read socket after reads done
    rw [lower_of_refused fresh planned] at done
    cases done
  · intro e before fresh v planned read socket after reads done
    obtain rfl := Plan.eq_var_of_read planned
    rw [lower_of_read fresh planned] at done
    obtain ⟨⟨source, last⟩, taken, same⟩ := bind_eq_ok_iff.1 done
    cases same
    exact reads.readVariable fresh taken
  · intro e before fresh recipe planned id fed read socket after reads done
    rw [lower_of_make fresh planned] at done
    obtain ⟨last, fills, same⟩ := bind_eq_ok_iff.1 done
    cases same
    have reads' := fed read last (reads.congr rfl rfl) fills
    rw [Recipe.defaulted_operands planned] at reads'
    exact reads'.remember _ fun v mem => List.mem_append_right _ mem
  · intro id before read after reads done
    rw [feed] at done
    cases done
    rwa [List.map_nil, List.flatMap_nil, List.append_nil]
  · intro id before place e rest first others read after reads done
    rw [feed] at done
    obtain ⟨⟨source, built⟩, builds, done⟩ := bind_eq_ok_iff.1 done
    obtain ⟨linked, links, done⟩ := bind_eq_ok_iff.1 done
    have kept : linked.Reads reuse noted (read ++ e.defaulted) := by
      obtain ⟨graph, -, same⟩ := bind_eq_ok_iff.1 links
      cases same
      exact (first read source built reads builds).congr rfl rfl
    have reads' := others linked _ after kept done
    rwa [List.append_assoc] at reads'

end

end Shadeloom
