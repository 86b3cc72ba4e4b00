import Mathlib
import Shadeloom.Proofs.Build.Needs
/-!
# What building a tree reaches

To build a tree its operands are built, and theirs in turn: only the first of them where the others
are settings, and the call on the later ones where a function takes more than two. What is reached
depends neither on a library nor on what has been built before, and trees that are the same reach
trees that are the same.
-/
namespace Shadeloom

open Relation

namespace Function

/-- Whether a function takes the later ones of more than two operands by a call of its own. -/
def nests (function : Function) : Bool :=
  match function.role with
  | .math _ => function.isVariadic
  | _ => false

/-- A function that takes operands by a call of its own has no settings. -/
theorem takesSettings_of_nests {function : Function} (nests : function.nests = true) :
    function.takesSettings = false := by
  unfold Function.nests at nests
  unfold takesSettings
  split at nests
  · rename_i op role
    rw [role]
  · cases nests

end Function

namespace Expr

/-- The function at the root of a tree. -/
def function? (e : Expr) : Option Function :=
  e.operation?.bind Function.find?

/-- The operands of a tree that are built: only the first one where the others are settings. -/
def builtOperands (e : Expr) : List Expr :=
  if e.function?.any Function.takesSettings then e.operands.take 1 else e.operands

/-- The trees that are reached when a tree is built. -/
inductive Reaches (root : Expr) : Expr → Prop
  | root : Reaches root root
  | operand {e operand : Expr} (reached : Reaches root e) (mem : operand ∈ e.builtOperands) :
    Reaches root operand
  | later {e first : Expr} {rest : List Expr} {function : Function} (reached : Reaches root e)
    (called : e.function? = some function) (nests : function.nests = true)
    (split : e.operands = first :: rest) (many : 1 < rest.length) :
    Reaches root (.call function.name (chain rest))

/-- The trees that the node of a tree is fed with. -/
def fed (e : Expr) : List Expr :=
  match e.function?, e.operands with
  | some function, first :: rest =>
    if function.nests && decide (1 < rest.length) then [first, .call function.name (chain rest)]
    else e.builtOperands
  | _, _ => e.builtOperands

/-- Whether the node of a tree is fed with another tree. -/
def FedBy (e operand : Expr) : Prop :=
  operand ∈ e.fed

/-- Whether a tree is a literal or an operation. -/
def isComputed : Expr → Bool
  | .empty => false
  | .var _ => false
  | _ => true

section

variable {e e' first operand root : Expr} {rest : List Expr} {function : Function}

/-- A function is found under the name of the function at the root. -/
theorem find?_of_function? (called : e.function? = some function) :
    e.operation? = some function.name ∧ Function.find? function.name = some function := by
  obtain ⟨name, named, found⟩ := Option.bind_eq_some_iff.1 called
  have same := Function.name_of_find? found
  exact ⟨same ▸ named, same ▸ found⟩

/-- Where no operand is a setting all of them are built. -/
theorem builtOperands_eq (plain : ∀ function, e.function? = some function →
    function.takesSettings = false) : e.builtOperands = e.operands := by
  unfold builtOperands
  rw [if_neg]
  rw [Option.any_eq_true_iff_get]
  rintro ⟨there, settings⟩
  rw [plain _ (Option.some_get there).symm] at settings
  cases settings

/-- The operands that are built are among all of them. -/
theorem mem_operands_of_built (mem : operand ∈ e.builtOperands) : operand ∈ e.operands := by
  unfold builtOperands at mem
  split at mem
  · exact List.mem_of_mem_take mem
  · exact mem

/-- A node is fed with the call on the later ones of more than two operands. -/
theorem fed_of_nests (called : e.function? = some function) (nests : function.nests = true)
    (split : e.operands = first :: rest) (many : 1 < rest.length) :
    e.fed = [first, .call function.name (chain rest)] := by
  simp [fed, called, split, nests, many]

/-- A node is fed with the operands that are built where there are few. -/
theorem fed_of_few (few : ∀ function, e.function? = some function → function.nests = true →
    e.operands.length ≤ 2) : e.fed = e.builtOperands := by
  unfold fed
  split
  · rename_i function first rest called split
    rw [if_neg]
    intro many
    rw [Bool.and_eq_true, decide_eq_true_eq] at many
    have length := few function called many.1
    rw [split, List.length_cons] at length
    omega
  · rfl

/-- A node is fed with the operands that are built, or with the call on the later ones. -/
theorem fed_eq_or (e : Expr) : (∃ function first rest, e.function? = some function ∧
    function.nests = true ∧ e.operands = first :: rest ∧ 1 < rest.length) ∨
      e.fed = e.builtOperands := by
  by_cases many : ∃ function, e.function? = some function ∧ function.nests = true ∧
      2 < e.operands.length
  · obtain ⟨function, called, nests, many⟩ := many
    match split : e.operands with
    | [] =>
      rw [split] at many
      cases many
    | first :: rest =>
      rw [split, List.length_cons] at many
      exact .inl ⟨function, first, rest, called, nests, rfl, by omega⟩
  · refine .inr (fed_of_few fun function called nests => Nat.le_of_not_lt fun more => ?_)
    exact many ⟨function, called, nests, more⟩

/-- An operand is smaller than its tree. -/
theorem size_lt_of_mem_operands (mem : operand ∈ e.operands) : operand.size < e.size := by
  have among {es : List Expr} (mem : operand ∈ es) : operand.size ≤ totalSize es := by
    induction es with
    | nil => cases mem
    | cons e rest ih =>
      rw [totalSize]
      rcases List.mem_cons.1 mem with rfl | mem
      · exact Nat.le_add_right _ _
      · exact (ih mem).trans (Nat.le_add_left _ _)
  by_cases comma : ∃ lhs rhs, e = .binary .comma lhs rhs
  · obtain ⟨lhs, rhs, rfl⟩ := comma
    have mem : operand ∈ [lhs, rhs] := mem
    have less := among mem
    simp only [totalSize] at less
    rw [size]
    omega
  · have room := weight_operands_le e fun lhs rhs same => comma ⟨lhs, rhs, same⟩
    have less := among mem
    have some := List.length_pos_of_mem mem
    rw [weight] at room
    omega

/-- What a node is fed with is smaller than its tree. -/
theorem size_lt_of_fedBy (fedBy : e.FedBy operand) : operand.size < e.size := by
  unfold FedBy at fedBy
  obtain ⟨function, first, rest, called, nests, split, many⟩ | same := fed_eq_or e
  · rw [fed_of_nests called nests split many] at fedBy
    rcases List.mem_cons.1 fedBy with rfl | fedBy
    · exact size_lt_of_mem_operands (by simp [split])
    · rw [List.mem_singleton.1 fedBy]
      have apart (lhs rhs : Expr) : e ≠ .binary .comma lhs rhs := by
        rintro rfl
        have short : [lhs, rhs] = first :: rest := split
        cases short
        exact absurd many (Nat.lt_irrefl 1)
      have room := weight_operands_le e apart
      have tail := size_chain rest (List.ne_nil_of_length_pos (Nat.zero_lt_of_lt many))
      rw [split, weight, totalSize, List.length_cons] at room
      rw [weight] at tail
      rw [size]
      have := first.size_pos
      omega
  · rw [same] at fedBy
    exact size_lt_of_mem_operands (mem_operands_of_built fedBy)

/-- What is reached by what nodes are fed with is no larger. -/
theorem size_le_of_path (path : ReflTransGen FedBy root e) : e.size ≤ root.size := by
  induction path with
  | refl => exact Nat.le_refl _
  | tail _ fedBy ih => exact (size_lt_of_fedBy fedBy).le.trans ih

/-- Trees that are the same have the same size. -/
theorem size_of_same (same : e.same e' = true) : e.size = e'.size := by
  induction e generalizing e' with
  | empty => cases e' <;> first | rfl | cases same
  | var v => cases e' <;> first | rfl | cases same
  | value literal => cases e' <;> first | rfl | cases same
  | combine x y z hx hy hz =>
    cases e' with
    | combine x' y' z' =>
      simp only [Expr.same, Bool.and_eq_true] at same
      have first := hx same.1.1
      cases component_of_same same.1.2 with
      | none =>
        cases component_of_same same.2 with
        | none => simp only [size, first]
        | some third => simp only [size, first, hz _ rfl third]
      | some second =>
        cases component_of_same same.2 with
        | none => simp only [size, first, hy _ rfl second]
        | some third => simp only [size, first, hy _ rfl second, hz _ rfl third]
    | _ => cases same
  | binary op lhs rhs hl hr =>
    cases e' with
    | binary op' lhs' rhs' =>
      simp only [Expr.same, Bool.and_eq_true, decide_eq_true_eq] at same
      obtain ⟨⟨rfl, left⟩, right⟩ := same
      cases op <;> simp only [size, hl left, hr right]
    | _ => cases same
  | call function args ha =>
    cases e' with
    | call function' args' =>
      simp only [Expr.same, Bool.and_eq_true] at same
      simp only [size, ha same.2]
    | _ => cases same

/-- The call on the later operands takes them as its operands. -/
theorem arguments_chain_of_split (called : e.function? = some function)
    (nests : function.nests = true) (split : e.operands = first :: rest) (many : 1 < rest.length) :
    (chain rest).arguments = rest := by
  have nonempty : rest ≠ [] := List.ne_nil_of_length_pos (Nat.zero_lt_of_lt many)
  cases e with
  | binary op lhs rhs =>
    have split : (if op.isStructural then [lhs, rhs] else lhs :: rhs.arguments) = first :: rest :=
      split
    split at split
    · cases split
      exact absurd many (Nat.lt_irrefl 1)
    · cases split
      rw [chain_arguments]
  | call name args =>
    have split : args.arguments = first :: rest := split
    have whole : (chain (first :: rest)).arguments = first :: rest := by
      rw [← split, chain_arguments]
    obtain ⟨next, more, rfl⟩ := List.exists_cons_of_ne_nil nonempty
    rw [chain, arguments] at whole
    · exact (List.cons.inj whole).2
    · exact List.cons_ne_nil next more
  | combine x y z =>
    have listed : Function.find? "combine" = some function := called
    have never : (Function.find? "combine").all (fun function => !function.nests) = true := by
      decide +kernel
    rw [listed] at never
    simp [nests] at never
  | _ => cases split

/-- A call on operands leads to each of them. -/
theorem path_of_mem_call (found : Function.find? function.name = some function)
    (nests : function.nests = true) {es : List Expr} (several : 1 < es.length)
    (listed : (chain es).arguments = es) (mem : operand ∈ es) :
    ReflTransGen FedBy (.call function.name (chain es)) operand := by
  have called : (Expr.call function.name (chain es)).function? = some function := found
  induction es with
  | nil => cases mem
  | cons first rest ih =>
    have operands : (Expr.call function.name (chain (first :: rest))).operands = first :: rest :=
      listed
    by_cases many : 1 < rest.length
    · have fed := fed_of_nests called nests operands many
      rcases List.mem_cons.1 mem with rfl | mem
      · exact .single (by rw [FedBy, fed]; exact .head _)
      · have later := arguments_chain_of_split called nests operands many
        have step : (Expr.call function.name (chain (first :: rest))).FedBy
            (.call function.name (chain rest)) := by
          rw [FedBy, fed]
          exact .tail _ (.head _)
        exact .head step (ih many later mem found)
    · refine .single ?_
      rw [FedBy, fed_of_few, builtOperands_eq, operands]
      · exact mem
      · intro other called'
        cases called.symm.trans called'
        exact Function.takesSettings_of_nests nests
      · intro _ _ _
        rw [operands, List.length_cons]
        omega

/-- What is reached is what nodes are fed with, step by step. -/
theorem reaches_iff : root.Reaches e ↔ ReflTransGen FedBy root e := by
  constructor
  · intro reached
    induction reached with
    | root => exact .refl
    | @operand e operand _ mem path =>
      obtain ⟨function, first, rest, called, nests, split, many⟩ | same := fed_eq_or e
      · have fed := fed_of_nests called nests split many
        have listed := mem_operands_of_built mem
        rw [split] at listed
        rcases List.mem_cons.1 listed with rfl | listed
        · exact path.tail (by rw [FedBy, fed]; exact .head _)
        · have step : e.FedBy (.call function.name (chain rest)) := by
            rw [FedBy, fed]
            exact .tail _ (.head _)
          have found := (find?_of_function? called).2
          exact (path.tail step).trans (path_of_mem_call found nests many
            (arguments_chain_of_split called nests split many) listed)
      · have step : e.FedBy operand := by rwa [FedBy, same]
        exact path.tail step
    | later _ called nests split many path =>
      refine path.tail ?_
      rw [FedBy, fed_of_nests called nests split many]
      exact .tail _ (.head _)
  · intro path
    induction path with
    | refl => exact .root
    | @tail e operand _ fedBy reached =>
      unfold FedBy at fedBy
      obtain ⟨function, first, rest, called, nests, split, many⟩ | same := fed_eq_or e
      · rw [fed_of_nests called nests split many] at fedBy
        rcases List.mem_cons.1 fedBy with rfl | fedBy
        · refine .operand reached ?_
          rw [builtOperands_eq, split]
          · exact .head _
          · intro other called'
            cases called.symm.trans called'
            exact Function.takesSettings_of_nests nests
        · rw [List.mem_singleton.1 fedBy]
          exact .later reached called nests split many
      · exact .operand reached (same ▸ fedBy)

/-- Trees that are the same have the same function at the root. -/
theorem function?_of_same (same : e.same e' = true) : e.function? = e'.function? := by
  rw [function?, function?, operation?_of_same same]

/-- Trees that are the same are both computed or both not. -/
theorem isComputed_of_same (same : e.same e' = true) : e.isComputed = e'.isComputed := by
  cases e <;> cases e' <;> first | rfl | cases same

/-- Trees that are the same are fed with trees that are the same. -/
theorem fed_of_same (same : e.same e' = true) : SameAll e.fed e'.fed := by
  have function := function?_of_same same
  have operands : SameAll e.operands e'.operands := isPartwise_same.operands same
  have built : SameAll e.builtOperands e'.builtOperands := by
    unfold builtOperands
    rw [function]
    split
    · exact List.forall₂_take 1 operands
    · exact operands
  unfold fed
  rw [function]
  cases e'.function? with
  | none => exact built
  | some called =>
    cases split : e.operands with
    | nil =>
      rw [split] at operands
      cases operands' : e'.operands with
      | nil => exact built
      | cons first rest =>
        rw [operands'] at operands
        cases operands
    | cons first rest =>
      rw [split] at operands
      cases split' : e'.operands with
      | nil =>
        rw [split'] at operands
        cases operands
      | cons first' rest' =>
        rw [split'] at operands
        obtain ⟨head, tail⟩ := List.forall₂_cons.1 operands
        dsimp only
        rw [tail.length_eq]
        split
        · refine .cons head (.cons ?_ .nil)
          simp only [Expr.same, decide_true, Bool.true_and]
          exact chain_same tail
        · exact built

/-- For each of some trees there is one that is the same. -/
theorem exists_same_of_mem {es es' : List Expr} (same : SameAll es es') (mem : e ∈ es) :
    ∃ e' ∈ es', e.same e' = true := by
  induction same with
  | nil => cases mem
  | cons head _ ih =>
    rcases List.mem_cons.1 mem with rfl | mem
    · exact ⟨_, List.mem_cons_self, head⟩
    · obtain ⟨e', mem', same⟩ := ih mem
      exact ⟨e', List.mem_cons_of_mem _ mem', same⟩

/-- Trees that are the same reach trees that are the same. -/
theorem path_of_same (same : e.same e' = true) (path : ReflTransGen FedBy e operand) :
    ∃ operand', ReflTransGen FedBy e' operand' ∧ operand.same operand' = true := by
  induction path with
  | refl => exact ⟨e', .refl, same⟩
  | tail _ fedBy ih =>
    obtain ⟨between, path, alike⟩ := ih
    obtain ⟨operand', mem, same⟩ := exists_same_of_mem (fed_of_same alike) fedBy
    exact ⟨operand', path.tail mem, same⟩

end

end Expr

namespace Recipe

/-- The trees that are fed in order are those that are given. -/
theorem map_snd_zipIdx (es : List Expr) (first : Nat) :
    ((es.zipIdx first).map Prod.swap).map Prod.snd = es := by
  rw [List.map_map]
  exact List.zipIdx_map_fst first es

/-- A scalar operation of more than two operands is one of many. -/
theorem isVariadic_of_math {function : Function} {op : MathOp} {operands : List Expr}
    {recipe : Recipe} (made : math function op operands = .ok recipe)
    (many : 2 < operands.length) : function.isVariadic = true := by
  have few : op.arity ≤ 2 := by cases op <;> decide
  unfold math at made
  split at made
  · cases made
  · rename_i fits
    have more : op.arity < operands.length := by omega
    cases variadic : function.isVariadic with
    | true => rfl
    | false => exact absurd (by simp [more, variadic]) fits

section

variable {library : Library} {e : Expr} {recipe : Recipe}

/-- The node of an operation on operands is fed with what its tree is fed with. -/
theorem map_operands_ofFunction {function : Function} (called : e.function? = some function)
    (made : ofFunction function e.operands = .ok recipe) :
    recipe.operands.map Prod.snd = e.fed := by
  have plain {op : NodeOp} (single : function.nests = false)
      (unset : function.takesSettings = false)
      (made : plain function op e.operands = .ok recipe) :
      recipe.operands.map Prod.snd = e.fed := by
    obtain ⟨-, rfl⟩ := plain_eq_ok made
    rw [Expr.fed_of_few, Expr.builtOperands_eq]
    · exact map_snd_zipIdx _ _
    · intro other called'
      cases called.symm.trans called'
      exact unset
    · intro other called' nests
      cases called.symm.trans called'
      exact absurd nests (by simp [single])
  have configured {op : List Expr → Except SettingFault NodeOp} (single : function.nests = false)
      (settings : function.takesSettings = true)
      (made : configured function e.operands op = .ok recipe) :
      recipe.operands.map Prod.snd = e.fed := by
    obtain ⟨first, rest, kind, split, -, rfl⟩ := configured_eq_ok made
    rw [Expr.fed_of_few]
    · simp [inOrder, Expr.builtOperands, called, settings, split]
    · intro other called' nests
      cases called.symm.trans called'
      exact absurd nests (by simp [single])
  unfold ofFunction at made
  split at made
  · rename_i op role
    have unset : function.takesSettings = false := by simp [Function.takesSettings, role]
    have nests : function.nests = function.isVariadic := by simp [Function.nests, role]
    obtain ⟨few, rfl⟩ | ⟨first, rest, split, many, rfl⟩ := math_eq_ok made
    · rw [Expr.fed_of_few fun _ _ _ => few, Expr.builtOperands_eq]
      · exact map_snd_zipIdx _ _
      · intro other called'
        cases called.symm.trans called'
        exact unset
    · have variadic := isVariadic_of_math made (by rw [split, List.length_cons]; omega)
      rw [Expr.fed_of_nests called (nests.trans variadic) split many]
      rfl
  all_goals rename_i role
  all_goals first
    | exact plain (by simp [Function.nests, role]) (by simp [Function.takesSettings, role]) made
    | exact configured (by simp [Function.nests, role]) (by simp [Function.takesSettings, role]) made
    | cases made

/-- The node of a tree is fed with the same trees under every library. -/
theorem map_operands (planned : Plan.of library e = .ok (.make recipe)) :
    recipe.operands.map Prod.snd = e.fed := by
  obtain ⟨literal, rfl, made⟩ | ⟨x, y, z, rfl, made⟩ | ⟨name, called, made⟩ :=
    Plan.make_cases planned
  · obtain ⟨number, -, rfl⟩ := ofLiteral_eq_ok made
    rfl
  · obtain ⟨-, rfl⟩ := ofCombine_eq_ok made
    have plain : (Function.find? "combine").all (fun function =>
        !function.nests && !function.takesSettings) = true := by decide +kernel
    have single (function : Function) (called : (Expr.combine x y z).function? = some function) :
        function.nests = false ∧ function.takesSettings = false := by
      have listed : Function.find? "combine" = some function := called
      rw [listed] at plain
      simpa using plain
    rw [Expr.fed_of_few, Expr.builtOperands_eq fun function called => (single function called).2]
    · cases y <;> cases z <;> rfl
    · intro function called nests
      exact absurd nests (by simp [(single function called).1])
  · obtain ⟨-, ⟨group, grouped, instance_⟩ | ⟨-, function, found, applied⟩⟩ :=
      ofOperation_eq_ok made
    · obtain ⟨definition, -, -, rfl⟩ := ofGroup_eq_ok instance_
      -- A call of a group is no function that is listed.
      have unlisted (function : Function) : e.function? ≠ some function := by
        intro listed
        obtain ⟨named, found⟩ := Expr.find?_of_function? listed
        rw [called, Option.some.injEq] at named
        have ungrouped := (Function.fitted_of_mem (Function.mem_of_find? found)).2
        rw [← named, grouped] at ungrouped
        cases ungrouped
      rw [Expr.fed_of_few fun function listed => absurd listed (unlisted function),
        Expr.builtOperands_eq fun function listed => absurd listed (unlisted function)]
      exact map_snd_zipIdx _ _
    · exact map_operands_ofFunction (by rw [Expr.function?, called]; exact found) applied

/-- A tree for which a node is made is a literal or an operation. -/
theorem isComputed_of_make (planned : Plan.of library e = .ok (.make recipe)) :
    e.isComputed = true := by
  cases e with
  | empty => cases planned
  | var v => cases planned
  | _ => rfl

end

end Recipe

end Shadeloom
