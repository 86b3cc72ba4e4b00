import Shadeloom.Node.Basic
import Shadeloom.Proofs.Json.Codecs
/-!
# Nodes that can be stored

A node is read back from its stored form exactly if every double in it is finite and every count
fits its width; of the stored form of any other node nothing is read. The stored forms of records
are cut into their members once, by name.
-/
namespace Shadeloom

/-- All interpolations of ramps are kept. -/
theorem RampInterpolation.keeps : (Codec.choice all name).Keeps (fun _ => True) 0 :=
  Codec.choice_keeps (fun a => by cases a <;> decide) (by decide)

/-- All color modes are kept. -/
theorem RampColorMode.keeps : (Codec.choice all name).Keeps (fun _ => True) 0 :=
  Codec.choice_keeps (fun a => by cases a <;> decide) (by decide)

/-- All ways around the hues are kept. -/
theorem HueInterpolation.keeps : (Codec.choice all name).Keeps (fun _ => True) 0 :=
  Codec.choice_keeps (fun a => by cases a <;> decide) (by decide)

/-- All interpolations are kept. -/
theorem Interpolation.keeps : (Codec.choice all name).Keeps (fun _ => True) 0 :=
  Codec.choice_keeps (fun a => by cases a <;> decide) (by decide)

/-- All projections are kept. -/
theorem Projection.keeps : (Codec.choice all name).Keeps (fun _ => True) 0 :=
  Codec.choice_keeps (fun a => by cases a <;> decide) (by decide)

/-- All extensions are kept. -/
theorem Extension.keeps : (Codec.choice all name).Keeps (fun _ => True) 0 :=
  Codec.choice_keeps (fun a => by cases a <;> decide) (by decide)

/-- All color spaces are kept. -/
theorem ColorSpace.keeps : (Codec.choice all name).Keeps (fun _ => True) 0 :=
  Codec.choice_keeps (fun a => by cases a <;> decide) (by decide)

/-- All sources of points are kept. -/
theorem PointSource.keeps : (Codec.choice all name).Keeps (fun _ => True) 0 :=
  Codec.choice_keeps (fun a => by cases a <;> decide) (by decide)

/-- All spaces of points are kept. -/
theorem PointSpace.keeps : (Codec.choice all name).Keeps (fun _ => True) 0 :=
  Codec.choice_keeps (fun a => by cases a <;> decide) (by decide)

/-- All sources of vertex colors are kept. -/
theorem VertexColorSource.keeps : (Codec.choice all name).Keeps (fun _ => True) 0 :=
  Codec.choice_keeps (fun a => by cases a <;> decide) (by decide)

/-- All sources of particle colors are kept. -/
theorem ParticleColorSource.keeps : (Codec.choice all name).Keeps (fun _ => True) 0 :=
  Codec.choice_keeps (fun a => by cases a <;> decide) (by decide)

/-- All math operations are kept. -/
theorem MathOp.keeps : (Codec.choice all name).Keeps (fun _ => True) 0 :=
  Codec.choice_keeps (fun a => by cases a <;> decide) (by decide)

/-- All vector operations are kept. -/
theorem VectorOp.keeps : (Codec.choice all name).Keeps (fun _ => True) 0 :=
  Codec.choice_keeps (fun a => by cases a <;> decide) (by decide)

/-- All blends are kept. -/
theorem MixBlend.keeps : (Codec.choice all name).Keeps (fun _ => True) 0 :=
  Codec.choice_keeps (fun a => by cases a <;> decide) (by decide)

/-- All types of Musgrave noise are kept. -/
theorem MusgraveType.keeps : (Codec.choice all name).Keeps (fun _ => True) 0 :=
  Codec.choice_keeps (fun a => by cases a <;> decide) (by decide)

/-- All modes of Voronoi noise are kept. -/
theorem VoronoiMode.keeps : (Codec.choice all name).Keeps (fun _ => True) 0 :=
  Codec.choice_keeps (fun a => by cases a <;> decide) (by decide)

/-- All types of sockets are kept. -/
theorem SocketType.codec_keeps : SocketType.codec.Keeps (fun _ => True) 0 :=
  Codec.choice_keeps (fun a => by cases a <;> decide) (by decide)

/-- Whether the components of a vector can be stored. -/
def Vec3.IsStorable (v : Vec3) : Prop :=
  ∀ x ∈ v.toList, x.isFinite = true

/-- Whether a value can be stored. -/
def Value.IsStorable : Value → Prop
  | scalar a => a.isFinite = true
  | vector v => v.IsStorable

/-- Whether a stop of a ramp can be stored. -/
@[mk_iff]
structure RampStop.IsStorable (stop : RampStop) : Prop where
  position : stop.position.isFinite = true
  color : stop.color.IsStorable

/-- Whether a ramp can be stored. -/
def ColorRamp.IsStorable (ramp : ColorRamp) : Prop :=
  ∀ stop ∈ ramp.stops, stop.IsStorable

/-- Whether point density settings can be stored. -/
@[mk_iff]
structure PointDensity.IsStorable (density : PointDensity) : Prop where
  particleSystem : ∀ number ∈ density.particleSystem, number < countLimit
  radius : density.radius.isFinite = true
  resolution : density.resolution < countLimit

/-- Whether an operation can be stored. -/
def NodeOp.IsStorable : NodeOp → Prop
  | constant value => value.isFinite = true
  | input port => port.default.IsStorable
  | colorRamp ramp => ramp.IsStorable
  | pointDensity density => density.IsStorable
  | _ => True

/-- Whether a node can be stored. -/
@[mk_iff]
structure Node.IsStorable (node : Node) : Prop where
  op : node.op.IsStorable
  inputs : ∀ socket ∈ node.inputs, socket.default.IsStorable

/-- Texts that may be missing are kept. -/
theorem Codec.optionalText_keeps : text.option.Keeps (fun _ => True) 0 :=
  text_keeps.optional fun _ => by simp [text]

/-- Choices that may be missing are kept. -/
theorem Codec.Keeps.optionalChoice {α : Type} {all : List α} {name : α → String}
    (keeps : (choice all name).Keeps (fun _ => True) 0) :
    (choice all name).option.Keeps (fun _ => True) 0 :=
  keeps.optional fun _ => by simp [choice]

/-- Vectors of finite components are kept. -/
theorem Vec3.codec_keeps : Vec3.codec.Keeps Vec3.IsStorable 1 where
  decode_iff v read := by
    have components := Codec.float_keeps.list.decode_iff v.toList
    simp only [codec]
    constructor
    · intro found
      split at found
      · rename_i same
        obtain ⟨finite, parts⟩ := (components _).1 same
        cases found
        simp only [toList, List.cons.injEq, and_true] at parts
        obtain ⟨rfl, rfl, rfl⟩ := parts
        exact ⟨finite, rfl⟩
      · cases found
    · rintro ⟨finite, rfl⟩
      rw [(components _).2 ⟨finite, rfl⟩]
      rfl
  nests v := Codec.float_keeps.list.nests v.toList

/-- Values of finite components are kept. -/
theorem Value.codec_keeps : Value.codec.Keeps Value.IsStorable 2 where
  decode_iff value read := by
    cases value with
    | scalar a => exact Codec.float_keeps.map_decode_iff scalar a read
    | vector v => exact Vec3.codec_keeps.map_decode_iff vector v read
  nests value := by
    cases value with
    | scalar a => exact Json.nests_tagged.2 (Codec.float_keeps.nests_of_le (by decide) a)
    | vector v => exact Json.nests_tagged.2 (Vec3.codec_keeps.nests v)

/-- Stops of finite components are kept. -/
theorem RampStop.codec_keeps : RampStop.codec.Keeps RampStop.IsStorable 2 where
  decode_iff stop read := by
    simp only [codec]
    rw [Json.members?_obj]
    · simp [Option.bind_eq_some_iff, Codec.float_keeps.decode_iff, Vec3.codec_keeps.decode_iff,
        isStorable_iff, and_assoc]
    · rfl
    · decide
  nests stop := by
    simp [codec, Codec.float_keeps.nests_of_le, Vec3.codec_keeps.nests]

/-- Ramps of stops that are kept are kept. -/
theorem ColorRamp.codec_keeps : ColorRamp.codec.Keeps ColorRamp.IsStorable 4 where
  decode_iff ramp read := by
    simp only [codec]
    rw [Json.members?_obj]
    · simp [Option.bind_eq_some_iff, RampInterpolation.keeps.decode_name_iff,
        RampColorMode.keeps.decode_name_iff, HueInterpolation.keeps.decode_name_iff,
        RampStop.codec_keeps.list.decode_iff, IsStorable]
    · rfl
    · decide
  nests ramp := by
    simp [codec, RampStop.codec_keeps.list.nests]

/-- Image settings are kept. -/
theorem ImageTexture.codec_keeps : ImageTexture.codec.Keeps (fun _ => True) 1 where
  decode_iff texture read := by
    simp only [codec]
    rw [Json.members?_obj]
    · simp [Option.bind_eq_some_iff, Codec.optionalText_keeps.decode_iff,
        Interpolation.keeps.decode_name_iff, Projection.keeps.decode_name_iff,
        Extension.keeps.decode_name_iff, ColorSpace.keeps.optionalChoice.decode_iff]
    · rfl
    · decide
  nests texture := by
    simp [codec, Codec.optionalText_keeps.nests, ColorSpace.keeps.optionalChoice.nests]

/-- Counts that may be missing are kept if they fit their width. -/
theorem PointDensity.optionalCount_keeps :
    (Codec.natBelow countLimit).option.Keeps (fun count => ∀ n ∈ count, n < countLimit) 0 :=
  (Codec.natBelow_keeps countLimit).option fun _ => by simp [Codec.natBelow, Json.ofNat]

/-- Point density settings of a finite radius and counts that fit their width are kept. -/
theorem PointDensity.codec_keeps : PointDensity.codec.Keeps PointDensity.IsStorable 1 where
  decode_iff density read := by
    simp only [codec]
    rw [Json.members?_obj]
    · simp only [List.map_cons, List.map_nil, Option.getD_some, Option.bind_eq_bind,
        Option.bind_eq_some_iff, Codec.float_keeps.decode_iff, Codec.optionalText_keeps.decode_iff,
        PointSource.keeps.decode_name_iff, PointSpace.keeps.decode_name_iff,
        Interpolation.keeps.decode_name_iff, optionalCount_keeps.decode_iff,
        (Codec.natBelow_keeps countLimit).decode_iff,
        VertexColorSource.keeps.optionalChoice.decode_iff,
        ParticleColorSource.keeps.optionalChoice.decode_iff, isStorable_iff, true_and,
        exists_eq_left', and_assoc, exists_and_left, Option.some.injEq]
    · rfl
    · decide
  nests density := by
    simp [codec, Codec.float_keeps.nests, Codec.optionalText_keeps.nests,
      optionalCount_keeps.nests, (Codec.natBelow_keeps countLimit).nests,
      VertexColorSource.keeps.optionalChoice.nests,
      ParticleColorSource.keeps.optionalChoice.nests]

/-- Operations that can be stored are kept. -/
theorem NodeOp.codec_keeps : NodeOp.codec.Keeps NodeOp.IsStorable 5 where
  decode_iff op read := by
    cases op with
    | math op => exact MathOp.keeps.map_decode_iff math op read
    | vectorMath op => exact VectorOp.keeps.map_decode_iff vectorMath op read
    | mix blend => exact MixBlend.keeps.map_decode_iff mix blend read
    | musgrave type => exact MusgraveType.keeps.map_decode_iff musgrave type read
    | voronoi mode => exact VoronoiMode.keeps.map_decode_iff voronoi mode read
    | colorRamp ramp => exact ColorRamp.codec_keeps.map_decode_iff colorRamp ramp read
    | image texture => exact ImageTexture.codec_keeps.map_decode_iff image texture read
    | pointDensity density =>
      exact PointDensity.codec_keeps.map_decode_iff pointDensity density read
    | noise | separateXyz | combineXyz =>
      show some _ = some read ↔ _
      simp [IsStorable]
    | constant value =>
      show ofRecord? "Constant" (.obj [("value", Codec.float.encode value)]) = some read ↔ _
      simp only [ofRecord?]
      rw [Json.members?_obj]
      · simp [Codec.float_keeps.decode_iff, IsStorable]
      · rfl
      · decide
    | input port =>
      show ofRecord? "NamedInput" (.obj [("name", Codec.text.encode port.name),
        ("ty", SocketType.codec.encode port.type), ("default", Value.codec.encode port.default),
        ("exposed", Codec.bool.encode port.exposed)]) = some read ↔ _
      simp only [ofRecord?]
      rw [Json.members?_obj]
      · simp [Option.bind_eq_some_iff, Codec.text_keeps.decode_iff,
          SocketType.codec_keeps.decode_iff, Value.codec_keeps.decode_iff,
          Codec.bool_keeps.decode_iff, IsStorable]
      · rfl
      · decide
    | output port =>
      show ofRecord? "NamedOutput" (.obj [("name", Codec.text.encode port.name),
        ("ty", SocketType.codec.encode port.type), ("exposed", Codec.bool.encode port.exposed)]) =
          some read ↔ _
      simp only [ofRecord?]
      rw [Json.members?_obj]
      · simp [Option.bind_eq_some_iff, Codec.text_keeps.decode_iff,
          SocketType.codec_keeps.decode_iff, Codec.bool_keeps.decode_iff, IsStorable]
      · rfl
      · decide
    | group name =>
      show ofRecord? "GroupInstance" (.obj [("group", Codec.text.encode name)]) = some read ↔ _
      simp only [ofRecord?]
      rw [Json.members?_obj]
      · simp [Codec.text_keeps.decode_iff, IsStorable]
      · rfl
      · decide
  nests op := by
    cases op with
    | noise | separateXyz | combineXyz => exact .str _
    | math | vectorMath | mix | musgrave | voronoi => exact Json.nests_tagged.2 (.str _)
    | colorRamp ramp => exact Json.nests_tagged.2 (ColorRamp.codec_keeps.nests ramp)
    | image texture =>
      exact Json.nests_tagged.2 (ImageTexture.codec_keeps.nests_of_le (by decide) texture)
    | pointDensity density =>
      exact Json.nests_tagged.2 (PointDensity.codec_keeps.nests_of_le (by decide) density)
    | constant | input | output | group =>
      simp [codec, stored, Codec.float_keeps.nests_of_le, Value.codec_keeps.nests_of_le,
        SocketType.codec_keeps.nests_of_le]

/-- Input sockets of finite defaults are kept. -/
theorem InputSocket.codec_keeps :
    InputSocket.codec.Keeps (fun socket => socket.default.IsStorable) 3 where
  decode_iff socket read := by
    simp only [codec]
    rw [Json.members?_obj]
    · simp [Option.bind_eq_some_iff, Codec.text, SocketType.codec_keeps.decode_iff,
        Value.codec_keeps.decode_iff]
    · rfl
    · decide
  nests socket := by
    simp [codec, SocketType.codec_keeps.nests_of_le, Value.codec_keeps.nests]

/-- Output sockets are kept. -/
theorem OutputSocket.codec_keeps : OutputSocket.codec.Keeps (fun _ => True) 1 where
  decode_iff socket read := by
    simp only [codec]
    rw [Json.members?_obj]
    · simp [Option.bind_eq_some_iff, Codec.text, SocketType.codec_keeps.decode_iff]
    · rfl
    · decide
  nests socket := by
    simp [codec, SocketType.codec_keeps.nests]

/-- Nodes that can be stored are kept. -/
theorem Node.codec_keeps : Node.codec.Keeps Node.IsStorable 6 where
  decode_iff node read := by
    simp only [codec]
    rw [Json.members?_obj]
    · simp [Option.bind_eq_some_iff, NodeOp.codec_keeps.decode_iff,
        InputSocket.codec_keeps.list.decode_iff, OutputSocket.codec_keeps.list.decode_iff,
        Codec.optionalText_keeps.decode_iff, isStorable_iff, and_assoc]
    · rfl
    · decide
  nests node := by
    simp [codec, NodeOp.codec_keeps.nests, InputSocket.codec_keeps.list.nests_of_le,
      OutputSocket.codec_keeps.list.nests_of_le, Codec.optionalText_keeps.nests_of_le]

end Shadeloom
