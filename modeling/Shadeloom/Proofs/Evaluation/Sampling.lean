import Mathlib
import Shadeloom.Evaluation.Operator
import Shadeloom.Proofs.Node.Stops
/-!
# Sampling color ramps

The color of a ramp whose stops are in order. At a number it is the color of an end that is at or
beyond it, otherwise the blend of the two neighbors around it; so a ramp that is computed at all
has a color at every number, and only at what is no number it has none.
-/
namespace Shadeloom

namespace RampStop

/-- Whether two stops are those around a place: neighbors, of which the left one is the last stop at
or below the place and the right one the first stop above it. -/
structure Surrounds (stops : List RampStop) (place : Float) (below : Nat) (left right : RampStop) :
    Prop where
  left_here : stops[below]? = some left
  right_next : stops[below + 1]? = some right
  low : left.position ≤ place
  high : place < right.position
  last : ∀ i stop, stops[i]? = some stop → stop.position ≤ place → i ≤ below
  first : ∀ i stop, stops[i]? = some stop → place < stop.position → below + 1 ≤ i

/-- Where stops change from those at or below a place to those above it, two stops are around it. -/
theorem surrounds_append {below above : List RampStop} {left right : RampStop} {place : Float}
    (lower : ∀ stop ∈ below ++ [left], stop.position ≤ place)
    (upper : ∀ stop ∈ right :: above, place < stop.position) :
    Surrounds (below ++ [left] ++ right :: above) place below.length left right := by
  have side (i : Nat) (stop : RampStop)
      (here : (below ++ [left] ++ right :: above)[i]? = some stop) :
      i ≤ below.length ∧ stop.position ≤ place ∨ below.length + 1 ≤ i ∧ place < stop.position := by
    have length : (below ++ [left]).length = below.length + 1 := by simp
    rcases Nat.lt_or_ge i (below.length + 1) with before | after
    · rw [List.getElem?_append_left (by omega)] at here
      exact Or.inl ⟨by omega, lower stop (List.mem_of_getElem? here)⟩
    · rw [List.getElem?_append_right (by omega)] at here
      exact Or.inr ⟨after, upper stop (List.mem_of_getElem? here)⟩
  refine ⟨by simp, by simp, lower left (by simp), upper right (by simp), ?_, ?_⟩
  · intro i stop here low
    obtain ⟨before, -⟩ | ⟨-, high⟩ := side i stop here
    · exact before
    · exact absurd low (not_le_of_below high)
  · intro i stop here high
    obtain ⟨-, low⟩ | ⟨after, -⟩ := side i stop here
    · exact absurd low (not_le_of_below high)
    · exact after

/-- A number inside sorted stops has two stops around it, where the search for it ends. -/
theorem InOrder.exists_surrounds {stops : List RampStop} (inOrder : InOrder stops) {place : Float}
    (number : place.isNaN = false) {first last : RampStop} (head : stops.head? = some first)
    (tail : stops.getLast? = some last) (above : ¬ place ≤ first.position)
    (below : ¬ last.position ≤ place) :
    ∃ count left right, ColorRamp.countUpTo place stops = count + 1 ∧
      Surrounds stops place count left right := by
  obtain ⟨lows, highs, rfl, lower, upper, counted⟩ := inOrder.exists_split number
  cases lows using List.reverseRecOn with
  | nil =>
    -- The first stop would be above the place.
    have high := upper first (by simpa using List.mem_of_head? head)
    exact absurd (le_of_below high) above
  | append_singleton lows left =>
    cases highs with
    | nil =>
      -- The last stop would be at or below the place.
      exact absurd (lower last (by simpa using List.mem_of_getLast? tail)) below
    | cons right highs =>
      refine ⟨lows.length, left, right, ?_, surrounds_append lower upper⟩
      rw [counted, List.length_append, List.length_singleton]

end RampStop

namespace ColorRamp

open RampStop

/-- The color at a number inside the stops is blended of the two stops around it. -/
theorem colorAt_of_surrounds {stops : List RampStop} {shape : Float → Float} {factor : Float}
    {first last left right : RampStop} {below : Nat} (head : stops.head? = some first)
    (tail : stops.getLast? = some last) (after : ¬ factor ≤ first.position)
    (before : ¬ last.position ≤ factor) (counted : countUpTo factor stops = below + 1)
    (surrounds : Surrounds stops factor below left right) :
    colorAt shape factor stops = .ok (blend shape factor left right) := by
  unfold colorAt
  rw [head, tail]
  simp only [if_neg after, if_neg before, counted, surrounds.left_here, surrounds.right_next]

/-- Stops in order have a color at every number: that of the first one if it is at or above the
number, otherwise that of the last one if it is at or below the number, and otherwise the blend of
the two stops around the number. -/
theorem colorAt_samples {stops : List RampStop} (inOrder : InOrder stops) (filled : stops ≠ [])
    (shape : Float → Float) {factor : Float} (number : factor.isNaN = false) :
    ∃ first last, stops.head? = some first ∧ stops.getLast? = some last ∧
      (factor ≤ first.position → colorAt shape factor stops = .ok first.color) ∧
      (¬ factor ≤ first.position → last.position ≤ factor →
        colorAt shape factor stops = .ok last.color) ∧
      (¬ factor ≤ first.position → ¬ last.position ≤ factor →
        ∃ below left right, Surrounds stops factor below left right ∧
          colorAt shape factor stops = .ok (blend shape factor left right)) := by
  have head := List.head?_eq_some_head filled
  have tail := List.getLast?_eq_some_getLast filled
  refine ⟨_, _, head, tail, fun low => ?_, fun above high => ?_, fun above below => ?_⟩
  · simp only [colorAt, head, tail, if_pos low]
  · simp only [colorAt, head, tail, if_neg above, if_pos high]
  · obtain ⟨count, left, right, counted, surrounds⟩ :=
      inOrder.exists_surrounds number head tail above below
    exact ⟨count, left, right, surrounds,
      colorAt_of_surrounds head tail above below counted surrounds⟩

/-- A ramp in red, green and blue has the color of its stops. -/
theorem eval_of_rgb {ramp : ColorRamp} (rgb : ramp.colorMode = .rgb) {shape : Float → Float}
    (shaped : shape? ramp.interpolation = some shape) (factor : Float) :
    ramp.eval factor = colorAt shape factor ramp.stops := by
  unfold eval
  rw [rgb, shaped]

/-- A ramp in red, green and blue that is interpolated linearly, eased or constant, with stops in
order, has the color of an end at a number that is not inside its stops, and inside them the blend
of the two neighbors around the number. -/
theorem eval_samples {ramp : ColorRamp} (rgb : ramp.colorMode = .rgb)
    (computed : ramp.interpolation = .linear ∨ ramp.interpolation = .ease ∨
      ramp.interpolation = .constant)
    (inOrder : InOrder ramp.stops) (filled : ramp.stops ≠ []) {factor : Float}
    (number : factor.isNaN = false) :
    ∃ shape first last, shape? ramp.interpolation = some shape ∧
      ramp.stops.head? = some first ∧ ramp.stops.getLast? = some last ∧
      (factor ≤ first.position → ramp.eval factor = .ok first.color) ∧
      (¬ factor ≤ first.position → last.position ≤ factor → ramp.eval factor = .ok last.color) ∧
      (¬ factor ≤ first.position → ¬ last.position ≤ factor →
        ∃ below left right, Surrounds ramp.stops factor below left right ∧
          ramp.eval factor = .ok (blend shape factor left right)) := by
  obtain ⟨shape, shaped⟩ : ∃ shape, shape? ramp.interpolation = some shape := by
    rcases computed with same | same | same <;> exact ⟨_, by rw [same]; rfl⟩
  obtain ⟨first, last, samples⟩ := colorAt_samples inOrder filled shape number
  rw [← eval_of_rgb rgb shaped] at samples
  exact ⟨shape, first, last, shaped, samples⟩

/-- Of three stops at one half the last one is blended with the stop behind it, at one half itself
and above it. -/
theorem eval_samples_ties :
    let stops : List RampStop :=
      [⟨0.0, .zero⟩, ⟨0.5, .splat 0.25⟩, ⟨0.5, .splat 0.5⟩, ⟨0.5, .splat 0.75⟩, ⟨1.0, .splat 1.0⟩]
    let ramp : ColorRamp := ⟨.constant, .rgb, .near, stops⟩
    InOrder stops ∧ stops ≠ [] ∧ Float.isNaN 0.5 = false ∧ ramp.eval 0.5 = .ok (.splat 0.75) ∧
      ∃ left right, Surrounds stops 0.5 3 left right := by
  intro stops ramp
  have inOrder : InOrder stops := ⟨by decide +kernel, by decide +kernel⟩
  have filled : stops ≠ [] := nofun
  have number : Float.isNaN 0.5 = false := by decide +kernel
  obtain ⟨shape, first, last, -, head, tail, -, -, inside⟩ :=
    eval_samples (show ramp.colorMode = .rgb from rfl) (.inr (.inr rfl)) inOrder filled number
  cases head
  cases tail
  obtain ⟨below, left, right, surrounds, -⟩ := inside (by decide +kernel) (by decide +kernel)
  -- The third of the ties is the last stop at or below one half.
  have low := surrounds.last 3 _ rfl (by decide +kernel)
  have high := surrounds.first 4 _ rfl (by decide +kernel)
  obtain rfl : below = 3 := by omega
  exact ⟨inOrder, filled, number, by decide +kernel, left, right, surrounds⟩

/-- The search for what is no number ends before all stops. -/
theorem countUpTo_of_isNaN {place : Float} (isNaN : place.isNaN = true) (stops : List RampStop) :
    countUpTo place stops = 0 :=
  Bisect.countPassing_append _ [] stops nofun fun _ _ =>
    decide_eq_false (not_le_of_isNaN (.inr isNaN))

/-- Stops have no color at what is no number, which is beyond no end and has no stop below it. -/
theorem colorAt_of_isNaN {stops : List RampStop} (filled : stops ≠ []) (shape : Float → Float)
    {factor : Float} (isNaN : factor.isNaN = true) :
    colorAt shape factor stops = .error .unbracketed := by
  simp only [colorAt, List.head?_eq_some_head filled, List.getLast?_eq_some_getLast filled,
    if_neg (not_le_of_isNaN (.inl isNaN)), if_neg (not_le_of_isNaN (.inr isNaN)),
    countUpTo_of_isNaN isNaN]

/-- Stops in order have no color only where the factor is no number. -/
theorem colorAt_eq_error_iff {stops : List RampStop} (inOrder : InOrder stops)
    {shape : Float → Float} {factor : Float} :
    colorAt shape factor stops = .error .unbracketed ↔ stops ≠ [] ∧ factor.isNaN = true := by
  refine ⟨fun refused => ?_, fun ⟨filled, isNaN⟩ => colorAt_of_isNaN filled shape isNaN⟩
  have filled : stops ≠ [] := by
    rintro rfl
    cases refused
  refine ⟨filled, ?_⟩
  rw [← Bool.not_eq_false]
  intro number
  obtain ⟨first, last, -, -, low, high, inside⟩ := colorAt_samples inOrder filled shape number
  by_cases here : factor ≤ first.position
  · cases refused.symm.trans (low here)
  by_cases there : last.position ≤ factor
  · cases refused.symm.trans (high here there)
  · obtain ⟨below, left, right, -, done⟩ := inside here there
    cases refused.symm.trans done

/-- Whether the color of a ramp is computed from stops that it has. -/
structure IsSampled (ramp : ColorRamp) : Prop where
  rgb : ramp.colorMode = .rgb
  shaped : (shape? ramp.interpolation).isSome = true
  filled : ramp.stops ≠ []

/-- A ramp that is sampled at what is no number finds no stops around it. -/
theorem IsSampled.eval_of_isNaN {ramp : ColorRamp} (sampled : ramp.IsSampled) {factor : Float}
    (isNaN : factor.isNaN = true) : ramp.eval factor = .error .unbracketed := by
  obtain ⟨shape, shaped⟩ := Option.isSome_iff_exists.1 sampled.shaped
  rw [eval_of_rgb sampled.rgb shaped, colorAt_of_isNaN sampled.filled shape isNaN]

/-- A ramp with stops in order finds none around a factor exactly if it is sampled and the factor is
no number. -/
theorem eval_eq_unbracketed_iff {ramp : ColorRamp} (inOrder : InOrder ramp.stops)
    {factor : Float} :
    ramp.eval factor = .error .unbracketed ↔ ramp.IsSampled ∧ factor.isNaN = true := by
  refine ⟨fun refused => ?_, fun ⟨sampled, isNaN⟩ => sampled.eval_of_isNaN isNaN⟩
  have computed := refused
  unfold eval at computed
  split at computed
  · rename_i shape rgb shaped
    obtain ⟨filled, isNaN⟩ := (colorAt_eq_error_iff inOrder).1 computed
    exact ⟨⟨rgb, by rw [shaped]; rfl, filled⟩, isNaN⟩
  · cases computed

end ColorRamp

end Shadeloom
