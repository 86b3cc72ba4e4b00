import Shadeloom.Expr.Basic
/-!
# Sugar

Functions and comparisons that no node computes stand for trees of other operations. A function
expands only when it has as many arguments as its expansion needs; otherwise the call stays as it
is written.
-/
namespace Shadeloom.Expr

/-- A call with two arguments. -/
def call2 (function : String) (a b : Expr) : Expr :=
  .call function (.binary .comma a b)

/-- The remainder that has the sign of the divisor: `mod(mod(a,b)+b,b)`. -/
def flooredModulo (a b : Expr) : Expr :=
  call2 "mod" (.binary .add (call2 "mod" a b) b) b

/-- The angle of a point: `1.5707963-(atan(x/y)+(y<0.0)*3.14159265)`. -/
def angle (y x : Expr) : Expr :=
  .binary .sub (numeral "1.5707963")
    (.binary .add (.call "atan" (.binary .div x y))
      (.binary .mul (.binary .lt y (numeral "0.0")) (numeral "3.14159265")))

/-- The greatest whole number that is not above a number: `round(a-0.5)`. -/
def floorOf (a : Expr) : Expr :=
  .call "round" (.binary .sub a (numeral "0.5"))

/-- The least whole number above a number: `round(a+0.5)`. -/
def ceilingOf (a : Expr) : Expr :=
  .call "round" (.binary .add a (numeral "0.5"))

/-- The number between 0 and 1 closest to a number: `max(min(a,1.0),0.0)`. -/
def clamped (a : Expr) : Expr :=
  call2 "max" (call2 "min" a (numeral "1.0")) (numeral "0.0")

/-- The opposite of a truth value: `1.0-a`. -/
def negation (a : Expr) : Expr :=
  .binary .sub (numeral "1.0") a

/-- Whether two numbers are equal: `1.0-(abs(a-b)>0)`. -/
def equality (a b : Expr) : Expr :=
  negation (.binary .gt (.call "abs" (.binary .sub a b)) (numeral "0"))

/-- Whether a number is not below another: `1-(a<b)`. -/
def atLeast (a b : Expr) : Expr :=
  .binary .sub (numeral "1") (.binary .lt a b)

/-- Whether a number is not above another: `1-(a>b)`. -/
def atMost (a b : Expr) : Expr :=
  .binary .sub (numeral "1") (.binary .gt a b)

/-- What a function of one argument stands for, if it is sugar. -/
def expandUnary? (name : String) (a : Expr) : Option Expr :=
  match name with
  | "not" => some (negation a)
  | "clamp" => some (clamped a)
  | "clip" => some (clamped a)
  | "fract" => some (flooredModulo a (numeral "1.0"))
  | "floor" => some (floorOf a)
  | "ceil" => some (ceilingOf a)
  | "combine" => some (.combine a none none)
  | _ => none

/-- What a function of two arguments stands for, if it is sugar. -/
def expandBinary? (name : String) (a b : Expr) : Option Expr :=
  match name with
  | "and" => some (call2 "min" a b)
  | "or" => some (call2 "max" a b)
  | "atan2" => some (angle a b)
  | "xor" => some (.call "abs" (.binary .sub a b))
  | "mmod" => some (flooredModulo a b)
  | "combine" => some (.combine a (some b) none)
  | _ => none

/-- What a function of three or more arguments stands for, if it is sugar. -/
def expandMany? (name : String) (args : List Expr) : Option Expr :=
  match name, args with
  | "and", args => some (.call "min" (chain args))
  | "or", args => some (.call "max" (chain args))
  | "combine", [x, y, z] => some (.combine x (some y) (some z))
  | _, _ => none

/-- What a call with the arguments stands for, if it is sugar. -/
def expand? (name : String) : List Expr → Option Expr
  | [] => none
  | [a] => expandUnary? name a
  | [a, b] => expandBinary? name a b
  | args => expandMany? name args

/-- A call as it is read: its expansion if it is sugar, the plain call otherwise. -/
def application (name : String) (args : Expr) : Expr :=
  (expand? name args.arguments).getD (.call name args)

end Shadeloom.Expr
