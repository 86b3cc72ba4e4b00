import Shadeloom.Build.Error
import Shadeloom.Expr.Basic
/-!
# Settings of calls

The arguments of a color ramp, an image or a point density after the first one are settings. A
bare name is an option word in any case, and everything else is a value; words and values may
stand in any order among each other.
-/
namespace Shadeloom

namespace Expr

/-- The word in capitals that a bare name is. -/
def word? : Expr → Option String
  | .var ⟨name, none, none⟩ => some (name.map Char.toUpper)
  | _ => none

/-- The number that a literal argument is. -/
def settingNumber (e : Expr) : Except SettingFault Float :=
  match e with
  | .value literal =>
    match literal.number? with
    | some number => .ok number
    | none => .error (.notANumber literal.text)
  | _ => .error (.notANumber e.text)

/-- The name in quotes that an argument is. -/
def settingName (e : Expr) : Except SettingFault String :=
  match e with
  | .value literal =>
    match literal.unquoted? with
    | some name => .ok name
    | none => .error (.unquotedLiteral literal.text)
  | _ => .error (.notALiteral e.text)

/-- The greatest count. -/
def greatestCount : Float := 4294967295.0

/-- The positive whole number that an argument is. -/
def settingCount (e : Expr) : Except SettingFault Nat := do
  let number ← e.settingNumber
  if 1.0 ≤ number && number.floor == number && number ≤ greatestCount then
    .ok number.toUInt32.toNat
  else .error (.notACount e.text)

/-- The color that an argument is: a vector of numbers, or one number for all components. -/
def settingColor (e : Expr) : Except SettingFault Vec3 :=
  match e with
  | .combine x y z => do
    let component (part : Option Expr) : Except SettingFault Float :=
      match part with
      | some part => part.settingNumber
      | none => .ok 0.0
    let x ← x.settingNumber
    let y ← component y
    let z ← component z
    .ok ⟨x, y, z⟩
  | _ => do .ok (.splat (← e.settingNumber))

/-- Whether an argument is a vector put together from components. -/
def isCombine : Expr → Bool
  | .combine _ _ _ => true
  | _ => false

end Expr

namespace ColorRamp

/-- The ramp with the setting that an option word stands for. -/
def setWord? (ramp : ColorRamp) : String → Option ColorRamp
  | "RGB" => some { ramp with colorMode := .rgb }
  | "HSV" => some { ramp with colorMode := .hsv }
  | "HSL" => some { ramp with colorMode := .hsl }
  | "NEAR" => some { ramp with hueInterpolation := .near }
  | "FAR" => some { ramp with hueInterpolation := .far }
  | "CW" => some { ramp with hueInterpolation := .cw }
  | "CCW" => some { ramp with hueInterpolation := .ccw }
  | "EASE" => some { ramp with interpolation := .ease }
  | "CARDINAL" => some { ramp with interpolation := .cardinal }
  | "LINEAR" => some { ramp with interpolation := .linear }
  | "B_SPLINE" => some { ramp with interpolation := .bSpline }
  | "BSPLINE" => some { ramp with interpolation := .bSpline }
  | "CONSTANT" => some { ramp with interpolation := .constant }
  | _ => none

/-- The position that an argument is. -/
def position (argument : Expr) : Except SettingFault Float := do
  if argument.isCombine then throw (.colorWithoutPosition argument.text)
  let place ← argument.settingNumber
  if 0.0 ≤ place && place ≤ 1.0 then .ok place else .error (.positionOutside place)

/-- Reads arguments into a ramp; a position is kept until its color comes. -/
def readArguments (ramp : ColorRamp) (pending : Option Float) :
    List Expr → Except SettingFault ColorRamp
  | [] =>
    match pending with
    | some place => .error (.positionWithoutColor place)
    | none => .ok ramp
  | argument :: rest =>
    match argument.word? with
    | some word =>
      match ramp.setWord? word with
      | some ramp => ramp.readArguments pending rest
      | none => .error (.unknownOption word)
    | none =>
      match pending with
      | none => do ramp.readArguments (some (← position argument)) rest
      | some place => do
        (ramp.insertStop ⟨place, ← argument.settingColor⟩).readArguments none rest

/-- The ramp that arguments set; without any stop it passes from black to white. -/
def ofArguments (arguments : List Expr) : Except SettingFault ColorRamp := do
  let ramp ← readArguments { blackToWhite with stops := [] } none arguments
  .ok (if ramp.stops.isEmpty then { ramp with stops := blackToWhite.stops } else ramp)

end ColorRamp

namespace ImageTexture

/-- The texture with the setting that an option word stands for. -/
def setWord? (texture : ImageTexture) : String → Option ImageTexture
  | "LINEAR" => some { texture with interpolation := .linear }
  | "CLOSEST" => some { texture with interpolation := .closest }
  | "CUBIC" => some { texture with interpolation := .cubic }
  | "SMART" => some { texture with interpolation := .smart }
  | "FLAT" => some { texture with projection := .flat }
  | "BOX" => some { texture with projection := .box }
  | "SPHERE" => some { texture with projection := .sphere }
  | "TUBE" => some { texture with projection := .tube }
  | "REPEAT" => some { texture with extension := .repeat }
  | "EXTEND" => some { texture with extension := .extend }
  | "CLIP" => some { texture with extension := .clip }
  | "COLOR" => some { texture with colorSpace := some .color }
  | "SRGB" => some { texture with colorSpace := some .color }
  | "NON_COLOR" => some { texture with colorSpace := some .nonColor }
  | "NONE" => some { texture with colorSpace := some .nonColor }
  | _ => none

/-- The texture with the setting that an argument stands for; the only value is the image. -/
def readArgument (texture : ImageTexture) (argument : Expr) : Except SettingFault ImageTexture :=
  match argument.word? with
  | some word =>
    match texture.setWord? word with
    | some texture => .ok texture
    | none => .error (.unknownOption word)
  | none =>
    if texture.image.isSome then .error (.unexpectedValue argument.text)
    else do .ok { texture with image := some (← argument.settingName) }

/-- The texture that arguments set. -/
def ofArguments (arguments : List Expr) : Except SettingFault ImageTexture :=
  arguments.foldlM readArgument standard

end ImageTexture

namespace PointDensity

/-- The density with the setting that an option word stands for. -/
def setWord? (density : PointDensity) : String → Option PointDensity
  | "PARTICLE" => some { density with source := .particleSystem }
  | "VERTEX" => some { density with source := .object }
  | "OBJECT" => some { density with space := .object }
  | "WORLD" => some { density with space := .world }
  | "LINEAR" => some { density with interpolation := .linear }
  | "CLOSEST" => some { density with interpolation := .closest }
  | "CUBIC" => some { density with interpolation := .cubic }
  | "COLOR" => some { density with vertexColorSource := some .vertexColor }
  | "WEIGHT" => some { density with vertexColorSource := some .vertexWeight }
  | "NORMAL" => some { density with vertexColorSource := some .vertexNormal }
  | "AGE" => some { density with particleColorSource := some .particleAge }
  | "SPEED" => some { density with particleColorSource := some .particleSpeed }
  | "VELOCITY" => some { density with particleColorSource := some .particleVelocity }
  | _ => none

/-- The density with the setting that an option word stands for. -/
def readWord (density : PointDensity) (word : String) : Except SettingFault PointDensity :=
  match density.setWord? word with
  | some density => .ok density
  | none => .error (.unknownOption word)

/-- The density of a particle system with the value at a place. -/
def readParticleValue (density : PointDensity) (argument : Expr) :
    Nat → Except SettingFault PointDensity
  | 0 => do .ok { density with object := some (← argument.settingName) }
  | 1 => do .ok { density with particleSystem := some (← argument.settingCount) }
  | 2 => do .ok { density with radius := ← argument.settingNumber }
  | 3 => do .ok { density with resolution := ← argument.settingCount }
  | _ => .error (.unexpectedValue argument.text)

/-- The density of the vertices of an object with the value at a place. -/
def readVertexValue (density : PointDensity) (argument : Expr) :
    Nat → Except SettingFault PointDensity
  | 0 => do .ok { density with object := some (← argument.settingName) }
  | 1 => do .ok { density with radius := ← argument.settingNumber }
  | 2 => do .ok { density with resolution := ← argument.settingCount }
  | 3 => do .ok { density with vertexAttribute := some (← argument.settingName) }
  | _ => .error (.unexpectedValue argument.text)

/-- The density with the value at a place, whose meaning depends on what the points are. -/
def readValue (density : PointDensity) (value : Expr × Nat) : Except SettingFault PointDensity :=
  match density.source with
  | .particleSystem => density.readParticleValue value.1 value.2
  | .object => density.readVertexValue value.1 value.2

/-- Reads arguments into a density. Values are kept until all words are read, because what a value
means depends on what the points are. -/
def readArguments (density : PointDensity) (values : List Expr) :
    List Expr → Except SettingFault PointDensity
  | [] => values.zipIdx.foldlM readValue density
  | argument :: rest =>
    match argument.word? with
    | some word => do (← density.readWord word).readArguments values rest
    | none => density.readArguments (values ++ [argument]) rest

/-- The density that arguments set. -/
def ofArguments (arguments : List Expr) : Except SettingFault PointDensity :=
  readArguments standard [] arguments

/-- All words are read before the values by their places. -/
theorem readArguments_eq (density : PointDensity) (values arguments : List Expr) :
    density.readArguments values arguments = (do
      let density ← (arguments.filterMap Expr.word?).foldlM readWord density
      (values ++ arguments.filter fun argument => argument.word?.isNone).zipIdx.foldlM
        readValue density) := by
  induction arguments generalizing density values with
  | nil => simp [readArguments]
  | cons argument rest ih =>
    unfold readArguments
    cases known : argument.word? with
    | some word => simp [known, ih]
    | none => simp [known, ih]

/-- The words of arguments are read first, then the values by their places. -/
theorem ofArguments_eq (arguments : List Expr) :
    ofArguments arguments = (do
      let density ← (arguments.filterMap Expr.word?).foldlM readWord standard
      (arguments.filter fun argument => argument.word?.isNone).zipIdx.foldlM
        readValue density) := by
  rw [ofArguments, readArguments_eq, List.nil_append]

end PointDensity

end Shadeloom
