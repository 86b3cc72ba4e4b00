import Shadeloom.Bisect
import Shadeloom.Value
/-!
# Settings of nodes

Color ramps, image textures and point densities carry settings beside their sockets. Images and
objects are settings by name only. The stops of a ramp are kept in the order of their positions,
and a new stop goes behind those that are not above it.
-/
namespace Shadeloom

/-- How a color ramp passes from one stop to the next. -/
inductive RampInterpolation where
  | ease
  | cardinal
  | linear
  | bSpline
  | constant
  deriving Repr, DecidableEq, Inhabited

namespace RampInterpolation

/-- Every interpolation. -/
def all : List RampInterpolation := [ease, cardinal, linear, bSpline, constant]

/-- The written name of an interpolation. -/
def name : RampInterpolation → String
  | ease => "Ease"
  | cardinal => "Cardinal"
  | linear => "Linear"
  | bSpline => "BSpline"
  | constant => "Constant"

end RampInterpolation

/-- The color space in which a ramp mixes. -/
inductive RampColorMode where
  | rgb
  | hsv
  | hsl
  deriving Repr, DecidableEq, Inhabited

namespace RampColorMode

/-- Every mode. -/
def all : List RampColorMode := [rgb, hsv, hsl]

/-- The written name of a mode. -/
def name : RampColorMode → String
  | rgb => "Rgb"
  | hsv => "Hsv"
  | hsl => "Hsl"

end RampColorMode

/-- The way around the hues that a ramp takes. -/
inductive HueInterpolation where
  | near
  | far
  | cw
  | ccw
  deriving Repr, DecidableEq, Inhabited

namespace HueInterpolation

/-- Every way. -/
def all : List HueInterpolation := [near, far, cw, ccw]

/-- The written name of a way. -/
def name : HueInterpolation → String
  | near => "Near"
  | far => "Far"
  | cw => "Cw"
  | ccw => "Ccw"

end HueInterpolation

/-- A color at a position of a ramp. -/
structure RampStop where
  position : Float
  color : Vec3
  deriving Repr, Inhabited, DecidableEq

/-- The stored form of a stop. -/
def RampStop.codec : Codec RampStop where
  encode stop := .obj [("position", Codec.float.encode stop.position),
    ("color", Vec3.codec.encode stop.color)]
  decode value :=
    match value.members? ["position", "color"] with
    | some [some position, some color] => do
      some ⟨← Codec.float.decode position, ← Vec3.codec.decode color⟩
    | _ => none

/-- The settings of a color ramp. -/
structure ColorRamp where
  interpolation : RampInterpolation
  colorMode : RampColorMode
  hueInterpolation : HueInterpolation
  stops : List RampStop
  deriving Repr, Inhabited, DecidableEq

namespace ColorRamp

/-- A ramp from black at 0 to white at 1. -/
def blackToWhite : ColorRamp where
  interpolation := .linear
  colorMode := .rgb
  hueInterpolation := .near
  stops := [⟨0.0, .splat 0.0⟩, ⟨1.0, .splat 1.0⟩]

/-- How many of the sorted stops are at or below a position. -/
def countUpTo (position : Float) (stops : List RampStop) : Nat :=
  Bisect.countPassing (fun stop => stop.position ≤ position) stops

/-- Puts a stop behind those that are at or below its position. -/
def insertStop (ramp : ColorRamp) (stop : RampStop) : ColorRamp :=
  { ramp with
    stops := ramp.stops.insertIdx (countUpTo stop.position ramp.stops) stop }

/-- The stored form of a ramp. -/
def codec : Codec ColorRamp where
  encode ramp := .obj [
    ("interpolation", .str ramp.interpolation.name),
    ("color_mode", .str ramp.colorMode.name),
    ("hue_interpolation", .str ramp.hueInterpolation.name),
    ("stops", RampStop.codec.list.encode ramp.stops)]
  decode value :=
    match value.members? ["interpolation", "color_mode", "hue_interpolation", "stops"] with
    | some [some interpolation, some colorMode, some hueInterpolation, some stops] => do
      some {
        interpolation := ←
          (Codec.choice RampInterpolation.all RampInterpolation.name).decode interpolation
        colorMode := ← (Codec.choice RampColorMode.all RampColorMode.name).decode colorMode
        hueInterpolation := ←
          (Codec.choice HueInterpolation.all HueInterpolation.name).decode hueInterpolation
        stops := ← RampStop.codec.list.decode stops }
    | _ => none

end ColorRamp

/-- How an image or a point density is sampled between its points. -/
inductive Interpolation where
  | linear
  | closest
  | cubic
  | smart
  deriving Repr, DecidableEq, Inhabited

namespace Interpolation

/-- Every interpolation. -/
def all : List Interpolation := [linear, closest, cubic, smart]

/-- The written name of an interpolation. -/
def name : Interpolation → String
  | linear => "Linear"
  | closest => "Closest"
  | cubic => "Cubic"
  | smart => "Smart"

end Interpolation

/-- How an image is projected. -/
inductive Projection where
  | flat
  | box
  | sphere
  | tube
  deriving Repr, DecidableEq, Inhabited

namespace Projection

/-- Every projection. -/
def all : List Projection := [flat, box, sphere, tube]

/-- The written name of a projection. -/
def name : Projection → String
  | flat => "Flat"
  | box => "Box"
  | sphere => "Sphere"
  | tube => "Tube"

end Projection

/-- What an image is outside of its bounds. -/
inductive Extension where
  | repeat
  | extend
  | clip
  deriving Repr, DecidableEq, Inhabited

namespace Extension

/-- Every extension. -/
def all : List Extension := [.repeat, extend, clip]

/-- The written name of an extension. -/
def name : Extension → String
  | .repeat => "Repeat"
  | extend => "Extend"
  | clip => "Clip"

end Extension

/-- Whether an image holds colors or other data. -/
inductive ColorSpace where
  | color
  | nonColor
  deriving Repr, DecidableEq, Inhabited

namespace ColorSpace

/-- Every color space. -/
def all : List ColorSpace := [color, nonColor]

/-- The written name of a color space. -/
def name : ColorSpace → String
  | color => "Color"
  | nonColor => "NonColor"

end ColorSpace

/-- The settings of an image texture. -/
structure ImageTexture where
  image : Option String
  interpolation : Interpolation
  projection : Projection
  extension : Extension
  colorSpace : Option ColorSpace
  deriving Repr, Inhabited, DecidableEq

namespace ImageTexture

/-- The settings where nothing is chosen. -/
def standard : ImageTexture where
  image := none
  interpolation := .linear
  projection := .flat
  extension := .repeat
  colorSpace := none

/-- The stored form of image settings. -/
def codec : Codec ImageTexture where
  encode texture := .obj [
    ("image", Codec.text.option.encode texture.image),
    ("interpolation", .str texture.interpolation.name),
    ("projection", .str texture.projection.name),
    ("extension", .str texture.extension.name),
    ("color_space", (Codec.choice ColorSpace.all ColorSpace.name).option.encode texture.colorSpace)]
  decode value :=
    match value.members? ["image", "interpolation", "projection", "extension", "color_space"] with
    | some [image, some interpolation, some projection, some extension, colorSpace] => do
      some {
        image := ← Codec.text.option.decode (image.getD .null)
        interpolation := ← (Codec.choice Interpolation.all Interpolation.name).decode interpolation
        projection := ← (Codec.choice Projection.all Projection.name).decode projection
        extension := ← (Codec.choice Extension.all Extension.name).decode extension
        colorSpace := ←
          (Codec.choice ColorSpace.all ColorSpace.name).option.decode (colorSpace.getD .null) }
    | _ => none

end ImageTexture

/-- What the points of a point density are. -/
inductive PointSource where
  | particleSystem
  /-- The vertices of an object. -/
  | object
  deriving Repr, DecidableEq, Inhabited

namespace PointSource

/-- Every source. -/
def all : List PointSource := [particleSystem, object]

/-- The written name of a source. -/
def name : PointSource → String
  | particleSystem => "ParticleSystem"
  | object => "Object"

end PointSource

/-- The space of a point density. -/
inductive PointSpace where
  | object
  | world
  deriving Repr, DecidableEq, Inhabited

namespace PointSpace

/-- Every space. -/
def all : List PointSpace := [object, world]

/-- The written name of a space. -/
def name : PointSpace → String
  | object => "Object"
  | world => "World"

end PointSpace

/-- What colors the vertices of a point density. -/
inductive VertexColorSource where
  | vertexColor
  | vertexWeight
  | vertexNormal
  deriving Repr, DecidableEq, Inhabited

namespace VertexColorSource

/-- Every source. -/
def all : List VertexColorSource := [vertexColor, vertexWeight, vertexNormal]

/-- The written name of a source. -/
def name : VertexColorSource → String
  | vertexColor => "VertexColor"
  | vertexWeight => "VertexWeight"
  | vertexNormal => "VertexNormal"

end VertexColorSource

/-- What colors the particles of a point density. -/
inductive ParticleColorSource where
  | particleAge
  | particleSpeed
  | particleVelocity
  deriving Repr, DecidableEq, Inhabited

namespace ParticleColorSource

/-- Every source. -/
def all : List ParticleColorSource := [particleAge, particleSpeed, particleVelocity]

/-- The written name of a source. -/
def name : ParticleColorSource → String
  | particleAge => "ParticleAge"
  | particleSpeed => "ParticleSpeed"
  | particleVelocity => "ParticleVelocity"

end ParticleColorSource

/-- The settings of a point density. -/
structure PointDensity where
  object : Option String
  source : PointSource
  space : PointSpace
  interpolation : Interpolation
  /-- The number of the particle system, counted from 1. -/
  particleSystem : Option Nat
  radius : Float
  resolution : Nat
  vertexColorSource : Option VertexColorSource
  particleColorSource : Option ParticleColorSource
  vertexAttribute : Option String
  deriving Repr, Inhabited, DecidableEq

namespace PointDensity

/-- The settings where nothing is chosen. -/
def standard : PointDensity where
  object := none
  source := .particleSystem
  space := .object
  interpolation := .linear
  particleSystem := none
  radius := 0.3
  resolution := 100
  vertexColorSource := none
  particleColorSource := none
  vertexAttribute := none

/-- How many values a stored count may have. -/
def countLimit : Nat := 1 <<< 32

/-- The stored form of point density settings. -/
def codec : Codec PointDensity where
  encode density := .obj [
    ("object", Codec.text.option.encode density.object),
    ("point_source", .str density.source.name),
    ("space", .str density.space.name),
    ("interpolation", .str density.interpolation.name),
    ("particle_system", (Codec.natBelow countLimit).option.encode density.particleSystem),
    ("radius", Codec.float.encode density.radius),
    ("resolution", (Codec.natBelow countLimit).encode density.resolution),
    ("vertex_color_source",
      (Codec.choice VertexColorSource.all VertexColorSource.name).option.encode
        density.vertexColorSource),
    ("particle_color_source",
      (Codec.choice ParticleColorSource.all ParticleColorSource.name).option.encode
        density.particleColorSource),
    ("vertex_attribute", Codec.text.option.encode density.vertexAttribute)]
  decode value :=
    match value.members? ["object", "point_source", "space", "interpolation", "particle_system",
      "radius", "resolution", "vertex_color_source", "particle_color_source",
      "vertex_attribute"] with
    | some [object, some source, some space, some interpolation, particleSystem, some radius,
        some resolution, vertexColorSource, particleColorSource, vertexAttribute] => do
      some {
        object := ← Codec.text.option.decode (object.getD .null)
        source := ← (Codec.choice PointSource.all PointSource.name).decode source
        space := ← (Codec.choice PointSpace.all PointSpace.name).decode space
        interpolation := ← (Codec.choice Interpolation.all Interpolation.name).decode interpolation
        particleSystem := ←
          (Codec.natBelow countLimit).option.decode (particleSystem.getD .null)
        radius := ← Codec.float.decode radius
        resolution := ← (Codec.natBelow countLimit).decode resolution
        vertexColorSource := ←
          (Codec.choice VertexColorSource.all VertexColorSource.name).option.decode
            (vertexColorSource.getD .null)
        particleColorSource := ←
          (Codec.choice ParticleColorSource.all ParticleColorSource.name).option.decode
            (particleColorSource.getD .null)
        vertexAttribute := ← Codec.text.option.decode (vertexAttribute.getD .null) }
    | _ => none

end PointDensity

end Shadeloom
