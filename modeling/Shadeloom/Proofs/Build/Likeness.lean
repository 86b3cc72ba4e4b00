import Mathlib
import Shadeloom.Build.Recipe
import Shadeloom.Proofs.Arithmetic.Zeros
import Shadeloom.Proofs.Expr.Quotes
import Shadeloom.Proofs.Build.Doubles
/-!
# Settings that are alike

Trees are alike under a change of doubles when they are the same, their literals stand for numbers
that the change makes equal, and the same names in them stand in quotes. Settings that are alike set
the same ramp, texture or density but for the change, or are both refused.
-/
namespace Shadeloom

open Shadeloom.Expr

/-- Whether a change of doubles can not be told by defaults, by comparing or by counting. -/
structure Harmless (f : Float → Float) : Prop where
  keeps : KeepsDefaults f
  le_iff : ∀ x y, f x ≤ f y ↔ x ≤ y
  eq_of_one_le : ∀ x y, 1.0 ≤ x → f x = f y → x = y

/-- No change is harmless. -/
theorem harmless_id : Harmless id where
  keeps _ _ := rfl
  le_iff _ _ := Iff.rfl
  eq_of_one_le _ _ _ same := same

/-- One zero for both is harmless. -/
theorem harmless_oneZero : Harmless oneZero where
  keeps := by
    show ∀ x ∈ [(0.0 : Float), 0.5, 1.0, 2.0, 5.0], oneZero x = x
    decide +kernel
  le_iff x y := oneZero_le_iff.trans le_oneZero_iff
  eq_of_one_le x y large same := by
    have other {z : Float} (large : 1.0 ≤ z) : (z == 0.0) = false := by
      by_contra zero
      rw [← le_oneZero_iff, oneZero_of_zero (by simpa using zero)] at large
      exact absurd large (by decide +kernel)
    have large' : 1.0 ≤ y := by rwa [← le_oneZero_iff, ← same, le_oneZero_iff]
    rwa [oneZero_of_ne (other large), oneZero_of_ne (other large')] at same

/-- Whether trees that are related are alike under a change of doubles. -/
structure Likeness (f : Float → Float) (alike : Expr → Expr → Prop) : Prop extends
    IsPartwise alike where
  number : ∀ {literal literal'}, alike (.value literal) (.value literal') →
    literal.number?.map f = literal'.number?.map f
  names : ∀ {e e'}, alike e e' → e.names.map isQuoted = e'.names.map isQuoted
  variadic : ∀ {function op es es'}, Function.find? function.name = some function →
    function.role = .math op → es ≠ [] → List.Forall₂ alike es es' →
      alike (.call function.name (.chain es)) (.call function.name (.chain es'))

/-- The key of a quoted literal is the number of a constant, or its text. -/
theorem Literal.key_of_unquoted? {literal : Literal} {text : String}
    (inside : literal.unquoted? = some text) :
    literal.key = .number (keyBits piValue) ∧ text = "pi" ∨
      literal.key = .number (keyBits eValue) ∧ text = "e" ∨ literal.key = .text literal.text := by
  unfold key number?
  rw [inside]
  by_cases pi : text = "pi"
  · subst pi
    exact .inl ⟨rfl, rfl⟩
  · by_cases e : text = "e"
    · subst e
      exact .inr (.inl ⟨rfl, rfl⟩)
    · exact .inr (.inr (by simp))

/-- Quoted literals that are the same have the same text between their quotes. -/
theorem Literal.unquoted?_of_same {a b : Literal} (same : a.same b = true)
    (left : a.isQuoted = true) (right : b.isQuoted = true) : a.unquoted? = b.unquoted? := by
  have keys : a.key = b.key := by simpa [Literal.same] using same
  obtain ⟨text, inside⟩ := Option.isSome_iff_exists.1 left
  obtain ⟨text', inside'⟩ := Option.isSome_iff_exists.1 right
  have apart : keyBits piValue ≠ keyBits eValue := by decide +kernel
  rcases key_of_unquoted? inside with ⟨key, rfl⟩ | ⟨key, rfl⟩ | key <;>
    rcases key_of_unquoted? inside' with ⟨key', rfl⟩ | ⟨key', rfl⟩ | key' <;>
    simp only [key, key', Key.number.injEq, Key.text.injEq, reduceCtorEq] at keys
  · rw [inside, inside']
  · exact absurd keys apart
  · exact absurd keys.symm apart
  · rw [inside, inside']
  · obtain ⟨text⟩ := a
    obtain ⟨text'⟩ := b
    exact congrArg (fun text => (Literal.mk text).unquoted?) keys

section

variable {f : Float → Float} {alike : Expr → Expr → Prop} {e e' : Expr}

/-- Settings that are alike are both no numbers, or numbers that are equal after the change. -/
theorem Likeness.settingNumber (likeness : Likeness f alike) (here : alike e e') :
    Concur (fun x y => f x = f y) e.settingNumber e'.settingNumber := by
  have same := likeness.same here
  cases e with
  | value literal =>
    cases e' with
    | value literal' =>
      have numbers := likeness.number here
      unfold Expr.settingNumber
      dsimp only
      cases first : literal.number? <;> cases second : literal'.number? <;>
        simp only [first, second, Option.map_some, Option.map_none, Option.some.injEq] at numbers
      · exact .refused _ _
      · cases numbers
      · cases numbers
      · exact .done numbers
    | _ => cases same
  | _ => cases e' <;> first | exact .refused _ _ | cases same

/-- Settings that are alike are the same count. -/
theorem Likeness.settingCount (harmless : Harmless f) (likeness : Likeness f alike)
    (here : alike e e') : Concur Eq e.settingCount e'.settingCount := by
  refine (likeness.settingNumber here).bind fun x y same => ?_
  by_cases large : 1.0 ≤ x
  · cases harmless.eq_of_one_le x y large same
    split
    · exact .done rfl
    · exact .refused _ _
  · have small : ¬ 1.0 ≤ y := by rwa [← harmless.le_iff, ← same, harmless.le_iff]
    simp only [large, small, decide_false, Bool.false_and, Bool.false_eq_true, if_false]
    exact .refused _ _

/-- Components of a color that are alike are the same number after the change. -/
theorem Likeness.settingComponent (likeness : Likeness f alike) {y y' : Option Expr}
    (here : Option.Rel alike y y') :
    Concur (fun b b' => f b = f b')
      (match y with | some part => part.settingNumber | none => .ok 0.0)
      (match y' with | some part => part.settingNumber | none => .ok 0.0) := by
  cases here with
  | none => exact .done rfl
  | some here => exact likeness.settingNumber here

/-- Settings that are alike are the same color after the change. -/
theorem Likeness.settingColor (likeness : Likeness f alike) (here : alike e e') :
    Concur (fun c c' => c.map f = c'.map f) e.settingColor e'.settingColor := by
  have same := likeness.same here
  cases e with
  | combine x y z =>
    cases e' with
    | combine x' y' z' =>
      obtain ⟨first, second, third⟩ := likeness.components here
      refine (likeness.settingNumber first).bind fun a a' one => ?_
      refine (likeness.settingComponent second).bind fun b b' two => ?_
      refine (likeness.settingComponent third).bind fun c c' three => ?_
      exact .done (by simp only [Vec3.map, one, two, three])
    | _ => cases same
  | value literal =>
    cases e' with
    | value literal' =>
      exact (likeness.settingNumber here).bind fun x y same =>
        .done (by simp only [Vec3.splat, Vec3.map, same])
    | _ => cases same
  | _ => cases e' <;> first | exact .refused _ _ | cases same

/-- Names that are the same and in quotes alike are the same text. -/
theorem settingName_concurs (same : e.same e' = true) (quoted : e.isQuoted = e'.isQuoted) :
    Concur Eq e.settingName e'.settingName := by
  cases e with
  | value literal =>
    cases e' with
    | value literal' =>
      have quoted : literal.isQuoted = literal'.isQuoted := quoted
      unfold settingName
      dsimp only
      cases first : literal.unquoted? with
      | none =>
        cases second : literal'.unquoted? with
        | none => exact .refused _ _
        | some text => simp [Literal.isQuoted, first, second] at quoted
      | some text =>
        have left : literal.isQuoted = true := by simp [Literal.isQuoted, first]
        rw [← Literal.unquoted?_of_same same left (quoted ▸ left), first]
        exact .done rfl
    | _ => cases same
  | _ => cases e' <;> first | exact .refused _ _ | cases same

namespace ColorRamp

/-- Positions that are alike are equal after the change. -/
theorem position_concurs (harmless : Harmless f) (likeness : Likeness f alike) (here : alike e e') :
    Concur (fun x y => f x = f y) (position e) (position e') := by
  unfold position
  rw [isCombine_of_same (likeness.same here)]
  split
  · exact .refused _ _
  · refine (likeness.settingNumber here).bind fun x y same => ?_
    have low : 0.0 ≤ x ↔ 0.0 ≤ y := by rw [← harmless.le_iff, same, harmless.le_iff]
    have high : x ≤ 1.0 ↔ y ≤ 1.0 := by rw [← harmless.le_iff, same, harmless.le_iff]
    simp only [low, high]
    split
    · exact .done same
    · exact .refused _ _

/-- A word sets a ramp before or after the change. -/
theorem setWord?_mapDoubles (ramp : ColorRamp) (word : String) :
    (ramp.mapDoubles f).setWord? word = (ramp.setWord? word).map (mapDoubles f) := by
  unfold setWord?
  split <;> rfl

/-- A stop is inserted before or after the change. -/
theorem insertStop_mapDoubles (harmless : Harmless f) (ramp : ColorRamp) (stop : RampStop) :
    (ramp.mapDoubles f).insertStop (stop.mapDoubles f) = (ramp.insertStop stop).mapDoubles f := by
  have place : countUpTo (stop.mapDoubles f).position (ramp.stops.map (RampStop.mapDoubles f)) =
      countUpTo stop.position ramp.stops := by
    have passes (place : Nat) : Bisect.passesAt
        (fun other : RampStop => decide (other.position ≤ (stop.mapDoubles f).position))
          (ramp.stops.map (RampStop.mapDoubles f)) place =
        Bisect.passesAt (fun other => decide (other.position ≤ stop.position)) ramp.stops place := by
      unfold Bisect.passesAt
      rw [List.getElem?_map]
      cases ramp.stops[place]? <;> simp [RampStop.mapDoubles, harmless.le_iff]
    unfold countUpTo Bisect.countPassing
    rw [funext passes, List.length_map]
  simp only [insertStop, mapDoubles, place, List.map_insertIdx]

/-- Arguments that are alike are read into ramps that are equal after the change. -/
theorem readArguments_concurs (harmless : Harmless f) (likeness : Likeness f alike)
    {es es' : List Expr} (here : List.Forall₂ alike es es') {ramp ramp' : ColorRamp}
    (same : ramp.mapDoubles f = ramp'.mapDoubles f) {pending pending' : Option Float}
    (waiting : pending.map f = pending'.map f) :
    Concur (fun ramp ramp' => mapDoubles f ramp = mapDoubles f ramp')
      (ramp.readArguments pending es) (ramp'.readArguments pending' es') := by
  induction here generalizing ramp ramp' pending pending' with
  | nil =>
    cases pending <;> cases pending' <;>
      first | exact .done same | exact .refused _ _ | cases waiting
  | @cons e e' rest rest' head tail ih =>
    unfold readArguments
    rw [word?_of_same (likeness.same head)]
    cases e'.word? with
    | some word =>
      have set : (ramp.setWord? word).map (mapDoubles f) =
          (ramp'.setWord? word).map (mapDoubles f) := by
        rw [← setWord?_mapDoubles, same, setWord?_mapDoubles]
      dsimp only
      cases first : ramp.setWord? word <;> cases second : ramp'.setWord? word <;>
        simp only [first, second, Option.map_some, Option.map_none, Option.some.injEq,
          reduceCtorEq] at set
      · exact .refused _ _
      · exact ih set waiting
    | none =>
      cases pending <;> cases pending' <;>
        simp only [Option.map_some, Option.map_none, Option.some.injEq, reduceCtorEq] at waiting
      · exact (position_concurs harmless likeness head).bind fun x y place =>
          ih same (congrArg some place)
      · refine (likeness.settingColor head).bind fun color color' colored => ih ?_ rfl
        rw [← insertStop_mapDoubles harmless, ← insertStop_mapDoubles harmless, same]
        simp only [RampStop.mapDoubles, waiting, colored]

/-- Arguments that are alike set ramps that are equal after the change. -/
theorem ofArguments_concurs (harmless : Harmless f) (likeness : Likeness f alike)
    {es es' : List Expr} (here : List.Forall₂ alike es es') :
    Concur (fun ramp ramp' => mapDoubles f ramp = mapDoubles f ramp') (ofArguments es)
      (ofArguments es') := by
  refine (readArguments_concurs harmless likeness here rfl rfl).bind fun ramp ramp' same => .done ?_
  have empty : ramp.stops.isEmpty = ramp'.stops.isEmpty := by
    have stops := congrArg (fun ramp => ramp.stops.isEmpty) same
    simpa [mapDoubles] using stops
  rw [empty]
  split
  · simp only [mapDoubles, ColorRamp.mk.injEq] at same ⊢
    simp only [same, true_and]
  · exact same

end ColorRamp

/-- Whether values are alike at the same place, and quoted alike if names are read there. -/
structure ValuesAlike (alike : Expr → Expr → Prop) (places : List Nat) (a b : Expr × Nat) :
    Prop where
  place : a.2 = b.2
  alike : alike a.1 b.1
  quoted : a.2 ∈ places → a.1.isQuoted = b.1.isQuoted

/-- The values among settings that are alike are alike, when names are quoted alike. -/
theorem Likeness.values (likeness : Likeness f alike) {places : List Nat} {es es' : List Expr}
    (here : List.Forall₂ alike es es')
    (quoted : (((Expr.values es).filter fun value => value.2 ∈ places).map Prod.fst).map isQuoted =
      (((Expr.values es').filter fun value => value.2 ∈ places).map Prod.fst).map isQuoted) :
    List.Forall₂ (ValuesAlike alike places) (Expr.values es) (Expr.values es') := by
  have chosen : List.Forall₂ alike (es.filter fun e => e.word?.isNone)
      (es'.filter fun e => e.word?.isNone) := by
    clear quoted
    induction here with
    | nil => exact .nil
    | cons head tail ih =>
      rw [List.filter_cons, List.filter_cons, word?_of_same (likeness.same head)]
      split
      · exact .cons head ih
      · exact ih
  unfold Expr.values at quoted ⊢
  generalize es.filter (fun e => e.word?.isNone) = values at chosen quoted
  generalize es'.filter (fun e => e.word?.isNone) = values' at chosen quoted
  generalize 0 = first at quoted ⊢
  induction chosen generalizing first with
  | nil => exact .nil
  | cons head tail ih =>
    rw [List.zipIdx_cons, List.zipIdx_cons, List.filter_cons, List.filter_cons] at quoted
    rw [List.zipIdx_cons, List.zipIdx_cons]
    by_cases named : first ∈ places
    · rw [if_pos (by simpa using named), if_pos (by simpa using named)] at quoted
      simp only [List.map_cons, List.cons.injEq] at quoted
      exact .cons ⟨rfl, head, fun _ => quoted.1⟩ (ih _ quoted.2)
    · rw [if_neg (by simpa using named), if_neg (by simpa using named)] at quoted
      exact .cons ⟨rfl, head, fun here => absurd here named⟩ (ih _ quoted)

namespace ImageTexture

/-- A word sets no image. -/
theorem image_of_setWord? {texture set : ImageTexture} {word : String}
    (done : texture.setWord? word = some set) : set.image = texture.image := by
  unfold setWord? at done
  split at done <;> cases done <;> rfl

/-- Arguments that are the same change a texture alike, unless a name is read that is not quoted
alike; there is no image afterwards only where there is none before and the argument is a word. -/
theorem readArgument_concurs (same : e.same e' = true) (texture : ImageTexture)
    (quoted : texture.image = none → e'.word? = none → e.isQuoted = e'.isQuoted) :
    Concur (fun a b => a = b ∧ (a.image = none → texture.image = none ∧ e'.word?.isSome = true))
      (readArgument texture e) (readArgument texture e') := by
  unfold readArgument
  rw [word?_of_same same]
  cases known : e'.word? with
  | some option =>
    dsimp only
    cases set : texture.setWord? option with
    | none => exact .refused _ _
    | some changed => exact .done ⟨rfl, fun none => ⟨image_of_setWord? set ▸ none, rfl⟩⟩
  | none =>
    dsimp only
    split
    · exact .refused _ _
    · rename_i fresh
      have none : texture.image = none := by simpa using fresh
      refine (settingName_concurs same (quoted none known)).bind fun name name' named => ?_
      exact .done ⟨by rw [named], nofun⟩

/-- Arguments that are alike set the same texture when their first values are quoted alike. -/
theorem foldlM_concurs (likeness : Likeness f alike) {es es' : List Expr}
    (here : List.Forall₂ alike es es') (texture : ImageTexture)
    (quoted : texture.image = none →
      ((es.filter fun e => e.word?.isNone).head?.map isQuoted) =
        (es'.filter fun e => e.word?.isNone).head?.map isQuoted) :
    Concur Eq (es.foldlM readArgument texture) (es'.foldlM readArgument texture) := by
  induction here generalizing texture with
  | nil => exact .done rfl
  | @cons e e' rest rest' head tail ih =>
    have same := likeness.same head
    rw [List.filter_cons, List.filter_cons, word?_of_same same] at quoted
    rw [List.foldlM_cons, List.foldlM_cons]
    refine (readArgument_concurs same texture fun none value => ?_).bind ?_
    · simpa [value] using quoted none
    · rintro set _ ⟨rfl, before⟩
      refine ih set fun none => ?_
      obtain ⟨none, word⟩ := before none
      simpa [Option.isSome_iff_ne_none.1 word] using quoted none

end ImageTexture

namespace PointDensity

/-- Whether densities are equal after the change, and of points of a kind. -/
structure Alike (f : Float → Float) (source : PointSource) (a b : PointDensity) : Prop where
  same : a.mapDoubles f = b.mapDoubles f
  left : a.source = source
  right : b.source = source

/-- Values that are alike set densities that are equal after the change. -/
theorem readValue_concurs (harmless : Harmless f) (likeness : Likeness f alike)
    {source : PointSource} {a b : PointDensity} (equal : Alike f source a b) {v w : Expr × Nat}
    (here : ValuesAlike alike (if source = .object then [0, 3] else [0]) v w) :
    Concur (Alike f source) (a.readValue v) (b.readValue w) := by
  obtain ⟨same, left, right⟩ := equal
  obtain ⟨e, place⟩ := v
  obtain ⟨e', place'⟩ := w
  obtain ⟨rfl, here, quoted⟩ := here
  have name (named : place ∈ if source = .object then [0, 3] else [0]) :=
    settingName_concurs (likeness.same here) (quoted named)
  have count := likeness.settingCount harmless here
  have number := likeness.settingNumber here
  simp only [mapDoubles, PointDensity.mk.injEq] at same
  unfold readValue
  rw [left, right]
  cases source with
  | particleSystem =>
    rcases place with _ | _ | _ | _ | place
    · exact (name (by simp)).bind fun x y set =>
        .done ⟨by simp [mapDoubles, same, set], left, right⟩
    · exact count.bind fun x y set => .done ⟨by simp [mapDoubles, same, set], left, right⟩
    · exact number.bind fun x y set => .done ⟨by simp [mapDoubles, same, set], left, right⟩
    · exact count.bind fun x y set => .done ⟨by simp [mapDoubles, same, set], left, right⟩
    · exact .refused _ _
  | object =>
    rcases place with _ | _ | _ | _ | place
    · exact (name (by simp)).bind fun x y set =>
        .done ⟨by simp [mapDoubles, same, set], left, right⟩
    · exact number.bind fun x y set => .done ⟨by simp [mapDoubles, same, set], left, right⟩
    · exact count.bind fun x y set => .done ⟨by simp [mapDoubles, same, set], left, right⟩
    · exact (name (by simp)).bind fun x y set =>
        .done ⟨by simp [mapDoubles, same, set], left, right⟩
    · exact .refused _ _

/-- Arguments that are alike set densities that are equal after the change, when names are quoted
alike. -/
theorem ofArguments_concurs (harmless : Harmless f) (likeness : Likeness f alike)
    {function : Function} {output : Nat} (role : function.role = .pointDensity output)
    {es es' : List Expr} (here : List.Forall₂ alike es es')
    (quoted : (function.names es).map isQuoted = (function.names es').map isQuoted) :
    Concur (fun a b => a.mapDoubles f = b.mapDoubles f) (ofArguments es) (ofArguments es') := by
  have same : SameAll es es' := here.imp fun _ _ => likeness.same
  unfold Function.names at quoted
  rw [← namePlaces_of_same function same] at quoted
  rw [ofArguments_eq, ofArguments_eq, ← words_of_same same]
  cases words : (es.filterMap word?).foldlM readWord standard with
  | error fault => exact .refused _ _
  | ok density =>
    have places : function.namePlaces es = if density.source = .object then [0, 3] else [0] := by
      simp only [Function.namePlaces, role, words]
    rw [places] at quoted
    have each (a b : PointDensity) (v w : Expr × Nat) (equal : Alike f density.source a b)
        (here : ValuesAlike alike (if density.source = .object then [0, 3] else [0]) v w) :
        Concur (Alike f density.source) (a.readValue v) (b.readValue w) :=
      readValue_concurs harmless likeness equal here
    exact (Concur.foldlM each (likeness.values here quoted) ⟨rfl, rfl, rfl⟩).mono
      fun a b equal => equal.same

end PointDensity

/-- Arguments that are alike set the same texture, when names are quoted alike. -/
theorem ImageTexture.ofArguments_concurs (likeness : Likeness f alike) {function : Function}
    {output : Nat} (role : function.role = .image output) {es es' : List Expr}
    (here : List.Forall₂ alike es es')
    (quoted : (function.names es).map isQuoted = (function.names es').map isQuoted) :
    Concur Eq (ofArguments es) (ofArguments es') := by
  refine foldlM_concurs likeness here standard fun _ => ?_
  simp only [Function.names, Function.namePlaces, role] at quoted
  have values := likeness.values here quoted
  unfold Expr.values at values
  generalize es.filter (fun e => e.word?.isNone) = chosen at values ⊢
  generalize es'.filter (fun e => e.word?.isNone) = chosen' at values ⊢
  cases chosen <;> cases chosen' <;> cases values
  · rfl
  · rename_i head tail
    exact congrArg some (head.quoted (by simp))

end

end Shadeloom
