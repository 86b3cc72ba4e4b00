import Mathlib
import Shadeloom.Compile
import Shadeloom.Proofs.Build.Refusals
import Shadeloom.Proofs.Expr.Checks
import Shadeloom.Proofs.Source.Parsing
/-!
# Valid sources are built as they are checked

The check and the build of a tree agree on the names of functions and on their arguments: where
operands suit an operation, a build knows the operation and has a socket for every operand, and for
the call that takes the later arguments of a function of many arguments this holds again. Only
instances of groups have as many sockets as the definition says, which no check knows.
-/
namespace Shadeloom

open Shadeloom.Expr

/-- Whether an error tells of an operation that is not known, or has too many arguments although it
is no instance of a group. -/
def BuildError.IsOversight : BuildError → Prop
  | .unknownOperation _ => True
  | .tooManyArguments function _ =>
    (Function.calledGroup? function).isSome = false ∧ function ≠ "group:add"
  | _ => False

/-- The operation of the node that a role makes for its operands alone. -/
def Role.plainOp? : Role → Option NodeOp
  | vectorMath op => some (.vectorMath op)
  | mix blend _ => some (.mix blend)
  | noise => some .noise
  | musgrave type => some (.musgrave type)
  | voronoi mode => some (.voronoi mode)
  | combine => some .combineXyz
  | _ => none

/-- Whether the node of a function has sockets for as many operands as the function takes. -/
def Function.isRoomy (function : Function) : Bool :=
  function.role.plainOp?.all fun op =>
    function.maxArgs ≤ op.inputSockets.length - function.role.inputSocket

/-- The node of every listed function has sockets for all operands. -/
theorem Function.isRoomy_of_mem {function : Function} (listed : function ∈ all) :
    function.isRoomy = true := by
  have each : ∀ function ∈ all, function.isRoomy = true := by decide +kernel
  exact each function listed

namespace Recipe

variable {function : Function} {es : List Expr} {error : BuildError}

/-- No suitable operands are too many for a scalar operation. -/
theorem math_not_oversight {op : MathOp} (listed : function ∈ Function.all)
    (role : function.role = .math op) (accepts : function.accepts es.length = true)
    (refused : math function op es = .error error) : ¬ error.IsOversight := by
  have fitted := (Function.fitted_of_mem listed).1
  unfold Function.isFitted at fitted
  rw [role] at fitted
  simp only [Bool.and_eq_true, Bool.or_eq_true, decide_eq_true_eq] at fitted
  rw [Function.accepts_iff] at accepts
  unfold math at refused
  split at refused
  · rename_i many
    simp only [Bool.and_eq_true, decide_eq_true_eq, Bool.not_eq_true', Bool.and_eq_false_iff,
      decide_eq_false_iff_not] at many
    rcases fitted.2 with most | ⟨two, variadic⟩
    · omega
    · rcases many.2 with other | other
      · exact absurd two other
      · rw [variadic] at other
        cases other
  · split at refused <;> cases refused

/-- No suitable operands are too many for a node that is fed with operands alone. -/
theorem plain_not_oversight {op : NodeOp} (listed : function ∈ Function.all)
    (role : function.role.plainOp? = some op) (accepts : function.accepts es.length = true)
    (refused : plain function op es = .error error) : ¬ error.IsOversight := by
  have roomy := Function.isRoomy_of_mem listed
  unfold Function.isRoomy at roomy
  rw [role, Option.all_some, decide_eq_true_eq] at roomy
  rw [Function.accepts_iff] at accepts
  unfold plain at refused
  dsimp only at refused
  split at refused
  · omega
  · cases refused

/-- What is wrong with settings is no oversight. -/
theorem configured_not_oversight {op : List Expr → Except SettingFault NodeOp}
    (refused : configured function es op = .error error) : ¬ error.IsOversight := by
  unfold configured at refused
  split at refused
  · cases refused
    exact id
  · split at refused <;> cases refused
    exact id

/-- No operands that suit a listed function lead to an oversight. -/
theorem ofFunction_not_oversight (listed : function ∈ Function.all)
    (accepts : function.accepts es.length = true) (computes : function.role ≠ .sugar)
    (refused : ofFunction function es = .error error) : ¬ error.IsOversight := by
  unfold ofFunction at refused
  split at refused
  · rename_i op role
    exact math_not_oversight listed role accepts refused
  · rename_i op role
    exact plain_not_oversight listed (by rw [role]; rfl) accepts refused
  · rename_i blend first role
    exact plain_not_oversight listed (by rw [role]; rfl) accepts refused
  · rename_i role
    exact plain_not_oversight listed (by rw [role]; rfl) accepts refused
  · rename_i type role
    exact plain_not_oversight listed (by rw [role]; rfl) accepts refused
  · rename_i mode role
    exact plain_not_oversight listed (by rw [role]; rfl) accepts refused
  · rename_i role
    exact plain_not_oversight listed (by rw [role]; rfl) accepts refused
  · exact configured_not_oversight refused
  · exact configured_not_oversight refused
  · exact configured_not_oversight refused
  · rename_i role
    exact absurd role computes
  · cases refused
    exact id

/-- An instance of a group is refused for its name or its sockets. -/
theorem ofGroup_not_oversight {library : Library} {name group : String}
    (instance_ : (Function.calledGroup? name).isSome = true ∨ name = "group:add")
    (refused : ofGroup library name group es = .error error) : ¬ error.IsOversight := by
  obtain rfl | ⟨limit, rfl⟩ := ofGroup_refused refused
  · exact id
  · rintro ⟨uncalled, other⟩
    rcases instance_ with called | same
    · rw [called] at uncalled
      cases uncalled
    · exact other same

/-- No operands that suit an operation lead to an oversight. -/
theorem ofOperation_not_oversight {library : Library} {name : String} (suits : Suits name es)
    (refused : ofOperation library name es = .error error) : ¬ error.IsOversight := by
  unfold ofOperation at refused
  split at refused
  · cases refused
    exact id
  · split at refused
    · rename_i group called
      exact ofGroup_not_oversight (.inl (by rw [called]; rfl)) refused
    · rename_i uncalled
      obtain called | ⟨function, found, accepts, computes⟩ := suits
      · rw [uncalled] at called
        cases called
      · rw [found] at refused
        exact ofFunction_not_oversight (Function.mem_of_find? found) accepts computes refused

end Recipe

/-- A tree whose operands suit its operation is not refused for an oversight. -/
theorem Plan.not_oversight {library : Library} {e : Expr} {error : BuildError}
    (fitting : e.IsFitting) (refused : Plan.of library e = .error error) : ¬ error.IsOversight := by
  unfold Plan.of at refused
  split at refused
  · cases refused
    exact id
  · cases refused
  · rw [map_eq_error_iff] at refused
    unfold Recipe.ofLiteral at refused
    split at refused <;> cases refused
    exact id
  · rw [map_eq_error_iff] at refused
    unfold Recipe.ofCombine at refused
    split at refused <;> cases refused
    exact id
  · cases refused
    exact id
  · cases refused
    exact id
  · rename_i op lhs rhs comma assign
    rw [map_eq_error_iff] at refused
    refine Recipe.ofOperation_not_oversight (fitting ?_ op.symbol rfl) refused
    cases op <;> first | rfl | exact absurd rfl comma | exact absurd rfl assign
  · rw [map_eq_error_iff] at refused
    exact Recipe.ofOperation_not_oversight (fitting rfl _ rfl) refused

/-- A variable that cannot be read is no oversight. -/
theorem Scope.readVariable_not_oversight {scope : Scope} {v : Variable} {error : BuildError}
    (refused : scope.readVariable v = .error error) : ¬ error.IsOversight := by
  obtain ⟨name, rfl⟩ | ⟨name, socket, rfl⟩ | ⟨text, rfl⟩ | ⟨subscript, -, -, -, rfl⟩ | ⟨fault, rfl⟩ :=
    readVariable_refused refused <;> exact id

/-- An error that arises where operands suit their operations is no oversight. -/
theorem BuildError.Arises.not_oversight {statements : List Expr} {error : BuildError}
    (arises : error.Arises (fun e => e.Every IsFitting) statements) : ¬ error.IsOversight := by
  cases arises with
  | tree stops =>
    cases stops with
    | plan every planned => exact Plan.not_oversight every.self planned
    | read _ reads => exact Scope.readVariable_not_oversight reads
    | graph _ => exact id
  | @added _ name _ _ _ called made =>
    refine Recipe.ofGroup_not_oversight (.inr ?_) made
    have each : ∀ function ∈ Function.all, function.role = .directive .groupAdd →
        function.name = "group:add" := by decide +kernel
    unfold Builder.directive? at called
    split at called
    · rename_i directive role
      cases called
      obtain ⟨function, found, role⟩ := Option.map_eq_some_iff.1 role
      rw [← Function.name_of_find? found]
      exact each function (Function.mem_of_find? found) role
    · cases called
  | declared _ => exact id
  | unassigned _ _ => exact id
  | directive _ _ => exact id
  | unopened _ => exact id
  | mismatched _ _ => exact id
  | unended _ => exact id
  | cyclic _ => exact id

/-- Operations on math functions are no vectors, commas or assignments. -/
theorem Expr.math_cases {e : Expr} {function : Function} {op : MathOp}
    (found : Function.find? function.name = some function) (role : function.role = .math op)
    (named : e.operation? = some function.name) :
    (∃ args, e = .call function.name args) ∨
      ∃ op lhs rhs, e = .binary op lhs rhs ∧ op.isStructural = false := by
  cases e with
  | empty => cases named
  | var v => cases named
  | value literal => cases named
  | combine x y z =>
    have same : Function.find? "combine" = some ⟨"combine", 1, 3, .combine⟩ := by decide +kernel
    rw [← Option.some.inj named, same, Option.some.injEq] at found
    rw [← found] at role
    cases role
  | binary op lhs rhs =>
    have known : (Function.find? op.symbol).isSome = true := by
      rw [Option.some.inj named, found]
      rfl
    refine .inr ⟨op, lhs, rhs, rfl, ?_⟩
    cases op <;> first | rfl | exact absurd known (by decide +kernel)
  | call name args =>
    cases named
    exact .inl ⟨args, rfl⟩

/-- The last operand of a math function is no chain. -/
theorem Expr.not_comma_of_math {e last : Expr} {function : Function} {op : MathOp}
    (found : Function.find? function.name = some function) (role : function.role = .math op)
    (named : e.operation? = some function.name) (ends : e.operands.getLast? = some last)
    (lhs rhs : Expr) : last ≠ .binary .comma lhs rhs := by
  obtain ⟨args, rfl⟩ | ⟨op, left, right, rfl, computes⟩ := math_cases found role named
  · exact not_comma_of_getLast? ends lhs rhs
  · have operands : (Expr.binary op left right).operands = left :: right.arguments := by
      simp only [Expr.operands, computes, Bool.false_eq_true, if_false]
    rw [operands, List.getLast?_cons_of_ne_nil right.arguments_ne_nil] at ends
    exact not_comma_of_getLast? ends lhs rhs

/-- The arguments of the call that takes the later operands of a math function are these. -/
theorem Expr.arguments_chain_of_math {e first : Expr} {rest : List Expr} {function : Function}
    {op : MathOp} (found : Function.find? function.name = some function)
    (role : function.role = .math op) (named : e.operation? = some function.name)
    (split : e.operands = first :: rest) (many : 1 < rest.length) :
    (chain rest).arguments = rest := by
  have nonempty : rest ≠ [] := List.ne_nil_of_length_pos (Nat.zero_lt_of_lt many)
  refine arguments_chain nonempty fun last ends => not_comma_of_math found role named ?_
  rw [split, List.getLast?_cons_of_ne_nil nonempty, ends]

/-- That operands suit their operations goes over to the trees that nodes are fed with. -/
theorem Expr.isHereditary_isFitting : IsHereditary fun e => e.Every IsFitting := by
  intro library e recipe every planned
  refine Recipe.every_fed (fun _ _ structural => by cases structural) ?_ every planned
  intro function op first rest found uncalled named role split many _ name same
  cases same
  have listed := arguments_chain_of_math found role named split many
  have computes : e.isStructural = false := by
    obtain ⟨args, rfl⟩ | ⟨op, left, right, rfl, computes⟩ := math_cases found role named
    · rfl
    · exact computes
  refine .inr ⟨function, found, ?_, by rw [role]; exact nofun⟩
  show function.accepts (chain rest).arguments.length = true
  obtain called | ⟨function', found', accepts, -⟩ := every.self computes _ named
  · rw [uncalled] at called
    cases called
  · rw [found, Option.some.injEq] at found'
    subst found'
    have fitted := (Function.fitted_of_mem (Function.mem_of_find? found)).1
    have arity : op.arity ≤ 2 := by cases op <;> decide
    unfold Function.isFitted at fitted
    rw [role] at fitted
    simp only [Bool.and_eq_true, Bool.or_eq_true, decide_eq_true_eq] at fitted
    rw [split] at accepts
    rw [listed]
    simp only [Function.accepts_iff, List.length_cons] at accepts ⊢
    omega

/-- A valid source is never refused by a build for an operation that is not known, nor for too many
arguments of anything but an instance of a group; and no sugar is left in its tree. -/
theorem Source.build_knows_operations {source : String} {e : Expr}
    (valid : validate source = .ok e) (options : BuildOptions) :
    (∀ name, e.build options ≠ .error (.unknownOperation name)) ∧
      (∀ function max, e.build options = .error (.tooManyArguments function max) →
        (Function.calledGroup? function).isSome = true ∨ function = "group:add") ∧
      ∀ name args, .call name args ∈ e.preorder → ∀ function, Function.find? name = some function →
        function.role ≠ .sugar := by
  have fitting := every_isFitting_of_validate valid
  have agrees (error : BuildError) (refused : e.build options = .error error) :
      ¬ error.IsOversight :=
    (Expr.build_arises Expr.isHereditary_isFitting
      (fun statement mem => (fitting.arguments statement mem).builds) refused).not_oversight
  refine ⟨fun name refused => agrees _ refused trivial, fun function max refused => ?_,
    fun name args mem function found => ?_⟩
  · have instance_ := agrees _ refused
    by_contra other
    rw [not_or, Bool.not_eq_true] at other
    exact instance_ other
  · obtain called | ⟨function', found', -, computes⟩ := fitting _ mem rfl name rfl
    · have uncalled := (Function.fitted_of_mem (Function.mem_of_find? found)).2
      rw [Function.name_of_find? found] at uncalled
      rw [uncalled] at called
      cases called
    · rw [found, Option.some.injEq] at found'
      exact found' ▸ computes

/-- A source with sugar in a call of many arguments is valid, and is read as a tree that a build
knows all operations of. -/
theorem Source.build_knows_operations_of_greatest :
    ∃ e, validate "max(floor(x),y,2)" = .ok e ∧
      e = .call "max" (.chain [Expr.floorOf (.var (.plain "x")), .var (.plain "y"),
        Expr.numeral "2"]) ∧
      ∀ name, e.build .standard ≠ .error (.unknownOperation name) := by
  have parsed : parse "max(floor(x),y,2)" = .call "max" (.chain
      [Expr.floorOf (.var (.plain "x")), .var (.plain "y"), Expr.numeral "2"]) := by
    unfold parse
    have whole : Form.ofChars (Text.trim "max(floor(x),y,2)".toList) =
        .call "max".toList "floor(x),y,2".toList := by decide +kernel
    have first : Form.ofChars (Text.trim "floor(x),y,2".toList) =
        .operation .comma "floor(x)".toList "y,2".toList := by decide +kernel
    have second : Form.ofChars (Text.trim "y,2".toList) =
        .operation .comma "y".toList "2".toList := by decide +kernel
    have floor : Form.ofChars (Text.trim "floor(x)".toList) =
        .call "floor".toList "x".toList := by decide +kernel
    have x : Form.ofChars (Text.trim "x".toList) = .atom "x".toList := by decide +kernel
    have y : Form.ofChars (Text.trim "y".toList) = .atom "y".toList := by decide +kernel
    have two : Form.ofChars (Text.trim "2".toList) = .atom "2".toList := by decide +kernel
    rw [parseChars_of_call whole, parseChars_of_operation first, parseChars_of_call floor,
      parseChars_of_operation second, parseChars_of_atom x, parseChars_of_atom y,
      parseChars_of_atom two]
    rfl
  have balanced : isBalanced "max(floor(x),y,2)" = true := by decide +kernel
  have checked : (Expr.call "max" (.chain [Expr.floorOf (.var (.plain "x")), .var (.plain "y"),
      Expr.numeral "2"])).check = .ok () := by decide +kernel
  have valid : validate "max(floor(x),y,2)" = .ok (.call "max" (.chain
      [Expr.floorOf (.var (.plain "x")), .var (.plain "y"), Expr.numeral "2"])) := by
    unfold validate
    rw [parsed]
    simp only [balanced, checked]
    rfl
  exact ⟨_, valid, rfl, (build_knows_operations valid .standard).1⟩

end Shadeloom
