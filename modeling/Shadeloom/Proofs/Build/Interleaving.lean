import Mathlib
import Shadeloom.Proofs.Build.Likeness
/-!
# Words among values

The settings of a call are option words and values. A word may stand anywhere among the values: a
step that reads a word and a step that reads a value come to the same in either order, so all words
may as well be read first. What is set depends on the words in their order and on the values in
theirs alone.
-/
namespace Shadeloom

open Shadeloom.Expr

section

variable {ε α β σ : Type}

/-- What two steps give is what the second one gives after what the first one gives. -/
theorem toOption_bind (first : Except ε α) (next : α → Except ε β) :
    (first >>= next).toOption = first.toOption.bind fun a => (next a).toOption := by
  cases first <;> rfl

/-- What is carried out gives its result. -/
theorem toOption_eq_some_iff {first : Except ε α} {result : α} :
    first.toOption = some result ↔ first = .ok result := by
  cases first <;> simp [Except.toOption]

/-- What steps along a list give is what they give one by one. -/
theorem toOption_foldlM (step : σ → α → Except ε σ) (items : List α) (state : σ) :
    (items.foldlM step state).toOption =
      items.foldlM (fun state item => (step state item).toOption) state := by
  induction items generalizing state with
  | nil => rfl
  | cons item rest ih =>
    rw [List.foldlM_cons, List.foldlM_cons, toOption_bind]
    exact congrArg _ (funext ih)

end

namespace Expr

/-- Whether a setting is an option word, which is a bare name. -/
def isWord (e : Expr) : Bool :=
  e.word?.isSome

/-- Whether settings have the same words in the same order, and the same values in the same order.
-/
structure Interleaved (es es' : List Expr) : Prop where
  words : es.filter isWord = es'.filter isWord
  values : (es.filter fun e => !e.isWord) = es'.filter fun e => !e.isWord

/-- A setting that is no word has none. -/
theorem word?_of_value {e : Expr} (value : e.isWord = false) : e.word? = none := by
  simpa [isWord] using value

/-- A setting that is a word has it. -/
theorem exists_word {e : Expr} (word : e.isWord = true) : ∃ text, e.word? = some text :=
  Option.isSome_iff_exists.1 word

/-- The words of settings are those of the settings that are words. -/
theorem words_filter (es : List Expr) :
    (es.filter isWord).filterMap word? = es.filterMap word? := by
  rw [List.filterMap_filter]
  congr
  funext e
  cases known : e.word? <;> simp [isWord, known]

section

variable {σ : Type} {step : σ → Expr → Option σ}
  (swap : ∀ state value word, value.isWord = false → word.isWord = true →
    (step state value).bind (step · word) = (step state word).bind (step · value))

include swap

/-- A value that is read before words may be read behind them. -/
theorem foldlM_value_last {value : Expr} (plain : value.isWord = false) {words : List Expr}
    (named : ∀ word ∈ words, word.isWord = true) (rest : List Expr) (state : σ) :
    (value :: (words ++ rest)).foldlM step state = (words ++ value :: rest).foldlM step state := by
  induction words generalizing state with
  | nil => rfl
  | cons word words ih =>
    rw [List.forall_mem_cons] at named
    calc (value :: word :: (words ++ rest)).foldlM step state
        = ((step state value).bind (step · word)).bind ((words ++ rest).foldlM step) := by
          rw [Option.bind_assoc]; rfl
      _ = ((step state word).bind (step · value)).bind ((words ++ rest).foldlM step) := by
          rw [swap state value word plain named.1]
      _ = (step state word).bind ((value :: (words ++ rest)).foldlM step) := by
          rw [Option.bind_assoc]; rfl
      _ = (step state word).bind ((words ++ value :: rest).foldlM step) :=
          congrArg _ (funext (ih named.2))

/-- All words may be read before all values. -/
theorem foldlM_words_first (es : List Expr) (state : σ) :
    es.foldlM step state =
      (es.filter isWord ++ es.filter fun e => !e.isWord).foldlM step state := by
  induction es generalizing state with
  | nil => rfl
  | cons e es ih =>
    have sorted : (e :: es).foldlM step state =
        (e :: (es.filter isWord ++ es.filter fun e => !e.isWord)).foldlM step state := by
      rw [List.foldlM_cons, List.foldlM_cons]
      exact congrArg _ (funext ih)
    cases kind : e.isWord with
    | true => simpa [kind] using sorted
    | false =>
      rw [sorted, foldlM_value_last swap kind fun word mem => (List.mem_filter.1 mem).2]
      simp [kind]

/-- What is read does not depend on where the words stand among the values. -/
theorem foldlM_of_interleaved {es es' : List Expr} (interleaved : Interleaved es es') (state : σ) :
    es.foldlM step state = es'.foldlM step state := by
  rw [foldlM_words_first swap es, foldlM_words_first swap es', interleaved.words,
    interleaved.values]

end

end Expr

namespace ColorRamp

/-- Reads an argument into a ramp and the position that waits for its color. -/
def readArgument (state : ColorRamp × Option Float) (argument : Expr) :
    Except SettingFault (ColorRamp × Option Float) :=
  match argument.word? with
  | some word =>
    match state.1.setWord? word with
    | some ramp => .ok (ramp, state.2)
    | none => .error (.unknownOption word)
  | none =>
    match state.2 with
    | none => do .ok (state.1, some (← position argument))
    | some place => do .ok (state.1.insertStop ⟨place, ← argument.settingColor⟩, none)

/-- The ramp that is read when no position waits for its color. -/
def finish (state : ColorRamp × Option Float) : Except SettingFault ColorRamp :=
  match state.2 with
  | some place => .error (.positionWithoutColor place)
  | none => .ok state.1

/-- Arguments are read one by one. -/
theorem readArguments_eq (ramp : ColorRamp) (pending : Option Float) (arguments : List Expr) :
    ramp.readArguments pending arguments =
      arguments.foldlM readArgument (ramp, pending) >>= finish := by
  induction arguments generalizing ramp pending with
  | nil => cases pending <;> rfl
  | cons argument rest ih =>
    unfold readArguments
    rw [List.foldlM_cons, readArgument]
    cases argument.word? with
    | some word =>
      dsimp only
      cases ramp.setWord? word with
      | some ramp => exact ih ramp pending
      | none => rfl
    | none =>
      cases pending with
      | none =>
        dsimp only
        cases position argument with
        | ok place => exact ih ramp (some place)
        | error fault => rfl
      | some place =>
        dsimp only
        cases argument.settingColor with
        | ok color => exact ih _ none
        | error fault => rfl

/-- A word sets a ramp before or after a stop is inserted. -/
theorem setWord?_insertStop (ramp : ColorRamp) (stop : RampStop) (word : String) :
    (ramp.insertStop stop).setWord? word = (ramp.setWord? word).map (insertStop · stop) := by
  unfold setWord?
  split <;> rfl

/-- A word may be read before or after a value. -/
theorem readArgument_swap (state : ColorRamp × Option Float) (value word : Expr)
    (plain : value.isWord = false) (named : word.isWord = true) :
    (readArgument state value).toOption.bind (fun state => (readArgument state word).toOption) =
      (readArgument state word).toOption.bind fun state =>
        (readArgument state value).toOption := by
  obtain ⟨ramp, pending⟩ := state
  obtain ⟨text, read⟩ := exists_word named
  have none := word?_of_value plain
  cases pending with
  | none =>
    cases placed : position value <;> cases set : ramp.setWord? text <;>
      simp [readArgument, none, read, placed, set, Except.toOption, bind, Except.bind]
  | some place =>
    cases colored : value.settingColor <;> cases set : ramp.setWord? text <;>
      simp [readArgument, none, read, colored, set, setWord?_insertStop, Except.toOption, bind,
        Except.bind]

/-- What arguments set is what their words set, and then their values. -/
theorem readArguments_words_first (ramp : ColorRamp) (arguments : List Expr) :
    (ramp.readArguments none arguments).toOption =
      (((arguments.filter isWord).foldlM readArgument (ramp, none)) >>= fun state =>
        (arguments.filter fun e => !e.isWord).foldlM readArgument state >>= finish).toOption := by
  rw [readArguments_eq, toOption_bind, toOption_foldlM, foldlM_words_first readArgument_swap,
    ← toOption_foldlM, ← toOption_bind, List.foldlM_append, bind_assoc]

/-- Ramps do not depend on where the words stand among the values. -/
theorem ofArguments_of_interleaved {es es' : List Expr} (interleaved : Interleaved es es') :
    (ofArguments es).toOption = (ofArguments es').toOption := by
  unfold ofArguments
  rw [toOption_bind, toOption_bind, readArguments_words_first, readArguments_words_first _ es',
    interleaved.words, interleaved.values]

end ColorRamp

namespace ImageTexture

/-- A word sets a texture before or after its image is set. -/
theorem setWord?_withImage (texture : ImageTexture) (image : Option String) (word : String) :
    ({ texture with image := image } : ImageTexture).setWord? word =
      (texture.setWord? word).map fun texture => { texture with image := image } := by
  unfold setWord?
  split <;> rfl

/-- A word may be read before or after a value. -/
theorem readArgument_swap (texture : ImageTexture) (value word : Expr)
    (plain : value.isWord = false) (named : word.isWord = true) :
    (readArgument texture value).toOption.bind
        (fun texture => (readArgument texture word).toOption) =
      (readArgument texture word).toOption.bind fun texture =>
        (readArgument texture value).toOption := by
  obtain ⟨text, read⟩ := exists_word named
  have none := word?_of_value plain
  cases set : texture.setWord? text with
  | none =>
    cases chosen : texture.image <;> cases called : value.settingName <;>
      simp [readArgument, none, read, set, chosen, called, setWord?_withImage, Except.toOption,
        bind, Except.bind]
  | some changed =>
    have same := image_of_setWord? set
    cases chosen : texture.image <;> cases called : value.settingName <;>
      simp [readArgument, none, read, set, chosen, called, same, setWord?_withImage,
        Except.toOption, bind, Except.bind]

/-- Textures do not depend on where the words stand among the values. -/
theorem ofArguments_of_interleaved {es es' : List Expr} (interleaved : Interleaved es es') :
    (ofArguments es).toOption = (ofArguments es').toOption := by
  unfold ofArguments
  rw [toOption_foldlM, toOption_foldlM, foldlM_of_interleaved readArgument_swap interleaved]

end ImageTexture

namespace PointDensity

/-- Densities do not depend on where the words stand among the values. -/
theorem ofArguments_of_interleaved {es es' : List Expr} (interleaved : Interleaved es es') :
    ofArguments es = ofArguments es' := by
  have values (es : List Expr) :
      (es.filter fun e => e.word?.isNone) = es.filter fun e => !e.isWord := by
    simp [isWord]
  rw [ofArguments_eq, ofArguments_eq, ← words_filter es, ← words_filter es', values es, values es',
    interleaved.words, interleaved.values]

end PointDensity

/-- A word may stand before or behind values. -/
theorem Expr.interleaved_of_value_before_word {word : Expr} (named : word.isWord = true)
    {values : List Expr} (plain : ∀ value ∈ values, value.isWord = false)
    (before after : List Expr) :
    Interleaved (before ++ values ++ word :: after) (before ++ word :: values ++ after) := by
  have none : values.filter isWord = [] := List.filter_eq_nil_iff.2 fun value mem => by
    simp [plain value mem]
  constructor
  · simp [List.filter_append, named, none]
  · simp [List.filter_append, named]

/-- The settings of color ramps, images and point densities do not depend on where the words stand
among the values: they are there or not and are the same wherever the words stand. So the word that
says what the points of a density are may come behind the values whose meaning it decides. -/
theorem Expr.settings_of_interleaved :
    (∀ {es es' : List Expr}, Interleaved es es' →
      (ColorRamp.ofArguments es).toOption = (ColorRamp.ofArguments es').toOption ∧
      (ImageTexture.ofArguments es).toOption = (ImageTexture.ofArguments es').toOption ∧
      (PointDensity.ofArguments es).toOption = (PointDensity.ofArguments es').toOption) ∧
    ∀ {word : Expr} {values : List Expr} (before after : List Expr),
      word.word? = some "PARTICLE" ∨ word.word? = some "VERTEX" →
      (∀ value ∈ values, value.isWord = false) →
      (PointDensity.ofArguments (before ++ values ++ word :: after)).toOption =
        (PointDensity.ofArguments (before ++ word :: values ++ after)).toOption := by
  constructor
  · intro es es' interleaved
    exact ⟨ColorRamp.ofArguments_of_interleaved interleaved,
      ImageTexture.ofArguments_of_interleaved interleaved,
      congrArg _ (PointDensity.ofArguments_of_interleaved interleaved)⟩
  · intro word values before after source plain
    have named : word.isWord = true := by
      rcases source with read | read <;> simp [isWord, read]
    exact congrArg _ (PointDensity.ofArguments_of_interleaved
      (interleaved_of_value_before_word named plain before after))

/-- A ramp with a word between a position and its color is the one with the words in front, and the
second value is a radius also where the word for vertices comes last. -/
theorem Expr.settings_of_late_words :
    let constant : Expr := .var ⟨"constant", none, none⟩
    let hsv : Expr := .var ⟨"HSV", none, none⟩
    let vertex : Expr := .var ⟨"vertex", none, none⟩
    let half : Expr := .value ⟨"0.5"⟩
    let mesh : Expr := .value ⟨"\"mesh\""⟩
    (ColorRamp.ofArguments [half, constant, half, hsv]).toOption =
        (ColorRamp.ofArguments [constant, half, hsv, half]).toOption ∧
      (ColorRamp.ofArguments [constant, half, hsv, half]).toOption =
        some ⟨.constant, .hsv, .near, [⟨0.5, .splat 0.5⟩]⟩ ∧
      (PointDensity.ofArguments [mesh, half, vertex]).toOption =
        (PointDensity.ofArguments [vertex, mesh, half]).toOption ∧
      (PointDensity.ofArguments [vertex, mesh, half]).toOption =
        some { PointDensity.standard with source := .object, object := some "mesh", radius := 0.5 } := by
  intro constant hsv vertex half mesh
  have late : vertex.word? = some "VERTEX" := by decide +kernel
  have plain : ∀ value ∈ [mesh, half], value.isWord = false := by
    simp [mesh, half, isWord, word?]
  have moved : Interleaved [half, constant, half, hsv] [constant, half, hsv, half] := ⟨rfl, rfl⟩
  exact ⟨(settings_of_interleaved.1 moved).1, by decide +kernel,
    settings_of_interleaved.2 [] [] (.inr late) plain, by decide +kernel⟩

end Shadeloom
