import Mathlib
import Shadeloom.Proofs.Build.Interleaving
import Shadeloom.Proofs.Node.Stops
/-!
# Settings of color ramps

The values among the settings of a ramp are positions and colors in turn, and the stops of the ramp
are these pairs, stably sorted. Each of the three ways in which a ramp mixes is the one that the
last word for it names.
-/
namespace Shadeloom

open Shadeloom.Expr

namespace Expr

/-- Whether a setting is a literal that stands for a number. -/
inductive IsNumber : Expr → Float → Prop
  | literal {literal : Literal} {a : Float} (read : literal.number? = some a) :
    IsNumber (.value literal) a

/-- Whether a component of a color stands for a number; one that is missing stands for zero. -/
inductive IsComponent : Option Expr → Float → Prop
  | given {e : Expr} {a : Float} (number : e.IsNumber a) : IsComponent (some e) a
  | missing : IsComponent none 0.0

/-- Whether a setting stands for a color: a grey is one number for all three components. -/
inductive IsColor : Expr → Vec3 → Prop
  | grey {e : Expr} {a : Float} (number : e.IsNumber a) : IsColor e ⟨a, a, a⟩
  | combined {x : Expr} {y z : Option Expr} {a b c : Float} (first : x.IsNumber a)
    (second : IsComponent y b) (third : IsComponent z c) : IsColor (.combine x y z) ⟨a, b, c⟩

/-- Whether values are the positions and the colors of stops in turn, each position between 0 and
1. -/
inductive ListsStops : List Expr → List RampStop → Prop
  | nil : ListsStops [] []
  | cons {e e' : Expr} {values : List Expr} {place : Float} {color : Vec3} {stops : List RampStop}
    (number : e.IsNumber place) (low : 0.0 ≤ place) (high : place ≤ 1.0) (colored : e'.IsColor color)
    (rest : ListsStops values stops) :
    ListsStops (e :: e' :: values) (⟨place, color⟩ :: stops)

/-- Values that are positions and colors in turn are twice as many as the stops. -/
theorem ListsStops.length_eq {values : List Expr} {stops : List RampStop}
    (lists : ListsStops values stops) : values.length = 2 * stops.length := by
  induction lists with
  | nil => rfl
  | cons _ _ _ _ _ ih => simp only [List.length_cons, ih]; omega

/-- The positions of listed stops are numbers. -/
theorem ListsStops.numbers {values : List Expr} {stops : List RampStop}
    (lists : ListsStops values stops) : ∀ stop ∈ stops, stop.position.isNaN = false := by
  induction lists with
  | nil => exact nofun
  | cons _ low _ _ _ ih => exact List.forall_mem_cons.2 ⟨(le_iff_level.1 low).2.1, ih⟩

/-- A setting is read as the number that it stands for. -/
theorem settingNumber_eq_ok_iff {e : Expr} {a : Float} :
    e.settingNumber = .ok a ↔ e.IsNumber a := by
  constructor
  · intro read
    unfold settingNumber at read
    split at read
    · rename_i literal
      split at read
      · rename_i number found
        cases read
        exact .literal found
      · cases read
    · cases read
  · rintro ⟨read⟩
    simp only [settingNumber, read]

/-- A component is read as the number that it stands for. -/
theorem settingComponent_eq_ok_iff {part : Option Expr} {a : Float} :
    (match part with | some part => part.settingNumber | none => .ok 0.0) = Except.ok a ↔
      IsComponent part a := by
  cases part with
  | none =>
    constructor
    · rintro ⟨⟩
      exact .missing
    · rintro ⟨⟩
      rfl
  | some part =>
    rw [settingNumber_eq_ok_iff]
    constructor
    · exact .given
    · rintro ⟨number⟩
      exact number

/-- A setting is read as the color that it stands for. -/
theorem settingColor_eq_ok_iff {e : Expr} {color : Vec3} :
    e.settingColor = .ok color ↔ e.IsColor color := by
  constructor
  · intro read
    unfold settingColor at read
    split at read
    · obtain ⟨a, first, read⟩ := bind_eq_ok_iff.1 read
      obtain ⟨b, second, read⟩ := bind_eq_ok_iff.1 read
      obtain ⟨c, third, read⟩ := bind_eq_ok_iff.1 read
      cases read
      exact .combined (settingNumber_eq_ok_iff.1 first) (settingComponent_eq_ok_iff.1 second)
        (settingComponent_eq_ok_iff.1 third)
    · obtain ⟨a, number, read⟩ := bind_eq_ok_iff.1 read
      cases read
      exact .grey (settingNumber_eq_ok_iff.1 number)
  · rintro (number | ⟨first, second, third⟩)
    · cases number with
      | literal read =>
        unfold settingColor
        rw [settingNumber_eq_ok_iff.2 (.literal read)]
        rfl
    · unfold settingColor
      exact bind_eq_ok_iff.2 ⟨_, settingNumber_eq_ok_iff.2 first,
        bind_eq_ok_iff.2 ⟨_, settingComponent_eq_ok_iff.2 second,
          bind_eq_ok_iff.2 ⟨_, settingComponent_eq_ok_iff.2 third, rfl⟩⟩⟩

end Expr

/-- The color mode that a word names. -/
def RampColorMode.ofWord? : String → Option RampColorMode
  | "RGB" => some .rgb
  | "HSV" => some .hsv
  | "HSL" => some .hsl
  | _ => none

/-- The way around the hues that a word names. -/
def HueInterpolation.ofWord? : String → Option HueInterpolation
  | "NEAR" => some .near
  | "FAR" => some .far
  | "CW" => some .cw
  | "CCW" => some .ccw
  | _ => none

/-- The interpolation that a word names. -/
def RampInterpolation.ofWord? : String → Option RampInterpolation
  | "EASE" => some .ease
  | "CARDINAL" => some .cardinal
  | "LINEAR" => some .linear
  | "B_SPLINE" => some .bSpline
  | "BSPLINE" => some .bSpline
  | "CONSTANT" => some .constant
  | _ => none

/-- The last choice among words, or the one given where no word makes one. -/
def lastChoice {α : Type} (choice? : String → Option α) (words : List String) (given : α) : α :=
  (words.filterMap choice?).getLast?.getD given

/-- A first word chooses what is given for the others. -/
theorem lastChoice_cons {α : Type} (choice? : String → Option α) (word : String)
    (words : List String) (given : α) :
    lastChoice choice? (word :: words) given =
      lastChoice choice? words ((choice? word).getD given) := by
  unfold lastChoice
  rw [List.filterMap_cons]
  cases choice? word with
  | none => rfl
  | some choice => simp [List.getLast?_cons]

namespace ColorRamp

/-- Whether a word names a way in which a ramp mixes. -/
def isOption (word : String) : Bool :=
  (RampColorMode.ofWord? word).isSome || (HueInterpolation.ofWord? word).isSome ||
    (RampInterpolation.ofWord? word).isSome

/-- The ramp in which words have set how it mixes. -/
def withWords (ramp : ColorRamp) (words : List String) : ColorRamp where
  interpolation := lastChoice RampInterpolation.ofWord? words ramp.interpolation
  colorMode := lastChoice RampColorMode.ofWord? words ramp.colorMode
  hueInterpolation := lastChoice HueInterpolation.ofWord? words ramp.hueInterpolation
  stops := ramp.stops

/-- Words are set one after the other. -/
theorem withWords_cons (ramp : ColorRamp) (word : String) (words : List String) :
    ramp.withWords (word :: words) = (ramp.withWords [word]).withWords words := by
  simp only [withWords, lastChoice_cons]
  rfl

/-- A ramp takes the words that name a way in which it mixes. -/
theorem isSome_setWord? (ramp : ColorRamp) {word : String} (option : isOption word = true) :
    (ramp.setWord? word).isSome := by
  unfold isOption at option
  rw [Bool.or_eq_true, Bool.or_eq_true] at option
  rcases option with (option | option) | option
  · unfold RampColorMode.ofWord? at option
    split at option <;> first | rfl | cases option
  · unfold HueInterpolation.ofWord? at option
    split at option <;> first | rfl | cases option
  · unfold RampInterpolation.ofWord? at option
    split at option <;> first | rfl | cases option

/-- A word is set when it names a way in which a ramp mixes. -/
theorem setWord?_eq_some_iff {ramp changed : ColorRamp} {word : String} :
    ramp.setWord? word = some changed ↔
      isOption word = true ∧ ramp.withWords [word] = changed := by
  have set : ∀ changed, ramp.setWord? word = some changed →
      isOption word = true ∧ ramp.withWords [word] = changed := by
    intro changed done
    unfold setWord? at done
    split at done <;> cases done <;> exact ⟨by decide, rfl⟩
  constructor
  · exact set changed
  · rintro ⟨option, rfl⟩
    obtain ⟨changed, done⟩ := Option.isSome_iff_exists.1 (isSome_setWord? ramp option)
    rw [done, (set changed done).2]

/-- A word is read when it names a way in which a ramp mixes. -/
theorem readArgument_word {argument : Expr} {word : String} (read : argument.word? = some word)
    {ramp : ColorRamp} {pending : Option Float} {state : ColorRamp × Option Float} :
    readArgument (ramp, pending) argument = .ok state ↔
      isOption word = true ∧ state = (ramp.withWords [word], pending) := by
  simp only [readArgument, read]
  constructor
  · intro done
    split at done
    · rename_i changed set
      cases done
      obtain ⟨option, rfl⟩ := setWord?_eq_some_iff.1 set
      exact ⟨option, rfl⟩
    · cases done
  · rintro ⟨option, rfl⟩
    rw [setWord?_eq_some_iff.2 ⟨option, rfl⟩]

/-- Words are read when each names a way in which a ramp mixes. -/
theorem foldlM_readArgument_words {arguments : List Expr}
    (named : ∀ argument ∈ arguments, argument.isWord = true) {ramp : ColorRamp}
    {pending : Option Float} {state : ColorRamp × Option Float} :
    arguments.foldlM readArgument (ramp, pending) = .ok state ↔
      (∀ word ∈ arguments.filterMap word?, isOption word = true) ∧
        state = (ramp.withWords (arguments.filterMap word?), pending) := by
  induction arguments generalizing ramp with
  | nil =>
    constructor
    · rintro ⟨⟩
      exact ⟨nofun, rfl⟩
    · rintro ⟨-, rfl⟩
      rfl
  | cons argument rest ih =>
    rw [List.forall_mem_cons] at named
    obtain ⟨word, read⟩ := exists_word named.1
    rw [List.foldlM_cons, bind_eq_ok_iff, List.filterMap_cons_some read, List.forall_mem_cons,
      withWords_cons]
    constructor
    · rintro ⟨next, first, later⟩
      obtain ⟨option, rfl⟩ := (readArgument_word read).1 first
      obtain ⟨options, rfl⟩ := (ih named.2).1 later
      exact ⟨⟨option, options⟩, rfl⟩
    · rintro ⟨⟨option, options⟩, rfl⟩
      exact ⟨_, (readArgument_word read).2 ⟨option, rfl⟩, (ih named.2).2 ⟨options, rfl⟩⟩

/-- Positions are the numbers between 0 and 1. -/
theorem position_eq_ok_iff {e : Expr} {place : Float} :
    position e = .ok place ↔ e.IsNumber place ∧ 0.0 ≤ place ∧ place ≤ 1.0 := by
  unfold position
  constructor
  · intro done
    split at done
    · cases done
    · obtain ⟨read, number, done⟩ := bind_eq_ok_iff.1 done
      split at done
      · rename_i inside
        cases done
        rw [Bool.and_eq_true, decide_eq_true_eq, decide_eq_true_eq] at inside
        exact ⟨settingNumber_eq_ok_iff.1 number, inside⟩
      · cases done
  · rintro ⟨⟨read⟩, low, high⟩
    rw [if_neg (by simp [isCombine])]
    refine bind_eq_ok_iff.2 ⟨place, settingNumber_eq_ok_iff.2 (.literal read), ?_⟩
    rw [if_pos (by simp [low, high])]

/-- A value is read as a position when it is a number between 0 and 1. -/
theorem readArgument_position {argument : Expr} (plain : argument.isWord = false)
    {ramp : ColorRamp} {state : ColorRamp × Option Float} :
    readArgument (ramp, none) argument = .ok state ↔
      ∃ place, argument.IsNumber place ∧ 0.0 ≤ place ∧ place ≤ 1.0 ∧ state = (ramp, some place) := by
  simp only [readArgument, word?_of_value plain]
  constructor
  · intro done
    obtain ⟨place, read, done⟩ := bind_eq_ok_iff.1 done
    cases done
    obtain ⟨number, low, high⟩ := position_eq_ok_iff.1 read
    exact ⟨place, number, low, high, rfl⟩
  · rintro ⟨place, number, low, high, rfl⟩
    exact bind_eq_ok_iff.2 ⟨place, position_eq_ok_iff.2 ⟨number, low, high⟩, rfl⟩

/-- A value that comes after a position is read as its color. -/
theorem readArgument_color {argument : Expr} (plain : argument.isWord = false)
    {ramp : ColorRamp} {place : Float} {state : ColorRamp × Option Float} :
    readArgument (ramp, some place) argument = .ok state ↔
      ∃ color, argument.IsColor color ∧ state = (ramp.insertStop ⟨place, color⟩, none) := by
  simp only [readArgument, word?_of_value plain]
  constructor
  · intro done
    obtain ⟨color, read, done⟩ := bind_eq_ok_iff.1 done
    cases done
    exact ⟨color, settingColor_eq_ok_iff.1 read, rfl⟩
  · rintro ⟨color, colored, rfl⟩
    exact bind_eq_ok_iff.2 ⟨color, settingColor_eq_ok_iff.2 colored, rfl⟩

/-- Values are read when they are positions and colors in turn, as the stops that are inserted. -/
theorem readArgument_values {ramp result : ColorRamp} : ∀ {values : List Expr},
    (∀ value ∈ values, value.isWord = false) →
    (values.foldlM readArgument (ramp, none) >>= finish = .ok result ↔
      ∃ stops, ListsStops values stops ∧ result = stops.foldl insertStop ramp)
  | [], _ => by
    constructor
    · rintro ⟨⟩
      exact ⟨[], .nil, rfl⟩
    · rintro ⟨_, ⟨⟩, rfl⟩
      rfl
  | [e], plain => by
    constructor
    · intro done
      obtain ⟨state, read, finished⟩ := bind_eq_ok_iff.1 done
      rw [List.foldlM_cons] at read
      obtain ⟨next, first, ⟨⟩⟩ := bind_eq_ok_iff.1 read
      obtain ⟨place, -, -, -, rfl⟩ := (readArgument_position (plain e (by simp))).1 first
      cases finished
    · rintro ⟨_, ⟨⟩, -⟩
  | e :: e' :: values, plain => by
    rw [List.forall_mem_cons, List.forall_mem_cons] at plain
    rw [List.foldlM_cons, bind_assoc, bind_eq_ok_iff]
    constructor
    · rintro ⟨state, first, done⟩
      obtain ⟨place, number, low, high, rfl⟩ := (readArgument_position plain.1).1 first
      rw [List.foldlM_cons, bind_assoc, bind_eq_ok_iff] at done
      obtain ⟨state, second, done⟩ := done
      obtain ⟨color, colored, rfl⟩ := (readArgument_color plain.2.1).1 second
      obtain ⟨stops, lists, rfl⟩ := (readArgument_values plain.2.2).1 done
      exact ⟨⟨place, color⟩ :: stops, .cons number low high colored lists, rfl⟩
    · rintro ⟨stops, lists, rfl⟩
      cases lists with
      | cons number low high colored rest =>
        refine ⟨_, (readArgument_position plain.1).2 ⟨_, number, low, high, rfl⟩, ?_⟩
        rw [List.foldlM_cons, bind_assoc]
        exact bind_eq_ok_iff.2 ⟨_, (readArgument_color plain.2.1).2 ⟨_, colored, rfl⟩,
          (readArgument_values plain.2.2).2 ⟨_, rest, rfl⟩⟩

/-- Stops that are inserted leave alone how a ramp mixes. -/
theorem foldl_insertStop_eq (ramp : ColorRamp) (stops : List RampStop) :
    stops.foldl insertStop ramp = { ramp with stops := (stops.foldl insertStop ramp).stops } := by
  induction stops generalizing ramp with
  | nil => rfl
  | cons stop stops ih =>
    rw [List.foldl_cons, ih]
    rfl

open RampStop

/-- Arguments are read into a ramp without stops when their words name ways in which a ramp mixes
and their values are positions and colors in turn. -/
theorem readArguments_eq_ok_iff {ramp result : ColorRamp} (bare : ramp.stops = [])
    {arguments : List Expr} :
    ramp.readArguments none arguments = .ok result ↔
      (∀ word ∈ arguments.filterMap word?, isOption word = true) ∧
      ∃ stops, ListsStops (arguments.filter fun e => !e.isWord) stops ∧
        result = { ramp.withWords (arguments.filterMap word?) with stops := sort stops } := by
  have named : ∀ argument ∈ arguments.filter isWord, argument.isWord = true :=
    fun argument mem => (List.mem_filter.1 mem).2
  have plain : ∀ argument ∈ arguments.filter (fun e => !e.isWord), argument.isWord = false :=
    fun argument mem => by simpa using (List.mem_filter.1 mem).2
  have sorted {values : List Expr} {stops : List RampStop} (lists : ListsStops values stops)
      (words : List String) : stops.foldl insertStop (ramp.withWords words) =
        { ramp.withWords words with stops := sort stops } := by
    have empty : (ramp.withWords words).stops = [] := bare
    have inOrder : InOrder (ramp.withWords words).stops := by
      rw [empty]
      exact ⟨nofun, .nil⟩
    rw [foldl_insertStop_eq, stops_foldl_insertStop inOrder lists.numbers, empty, List.nil_append]
  rw [← toOption_eq_some_iff, readArguments_words_first, toOption_eq_some_iff, bind_eq_ok_iff]
  constructor
  · rintro ⟨state, read, done⟩
    obtain ⟨options, rfl⟩ := (foldlM_readArgument_words named).1 read
    obtain ⟨stops, lists, rfl⟩ := (readArgument_values plain).1 done
    rw [words_filter] at options ⊢
    exact ⟨options, stops, lists, sorted lists _⟩
  · rintro ⟨options, stops, lists, rfl⟩
    rw [← words_filter] at options ⊢
    exact ⟨_, (foldlM_readArgument_words named).2 ⟨options, rfl⟩,
      (readArgument_values plain).2 ⟨stops, lists, (sorted lists _).symm⟩⟩

/-- The stops of the ramp from black to white are in order. -/
theorem inOrder_blackToWhite : InOrder blackToWhite.stops :=
  ⟨by decide +kernel, by decide +kernel⟩

/-- The stops of a ramp that settings describe are in order. -/
theorem inOrder_ofArguments {arguments : List Expr} {ramp : ColorRamp}
    (read : ofArguments arguments = .ok ramp) : InOrder ramp.stops := by
  unfold ofArguments at read
  obtain ⟨listed, done, same⟩ := bind_eq_ok_iff.1 read
  obtain ⟨-, stops, lists, rfl⟩ := (readArguments_eq_ok_iff rfl).1 done
  cases same
  split
  · exact inOrder_blackToWhite
  · exact inOrder_sort lists.numbers

/-- The stops of a ramp are the positions and colors that its settings list in turn, stably sorted,
or black and white where they list none, and how it mixes is what the last word for it says.
Whatever the stops are, inserting stops one by one into stops in order sorts all of them stably. -/
theorem ofArguments_sorts :
    (∀ {arguments : List Expr} {ramp : ColorRamp}, ofArguments arguments = .ok ramp ↔
      (∀ word ∈ arguments.filterMap word?, isOption word = true) ∧
      ∃ stops, ListsStops (arguments.filter fun e => !e.isWord) stops ∧
        (arguments.filter fun e => !e.isWord).length = 2 * stops.length ∧
        ramp.stops = (if stops.isEmpty then blackToWhite.stops else sort stops) ∧
        StablySorts stops (sort stops) ∧
        ramp.interpolation =
          lastChoice RampInterpolation.ofWord? (arguments.filterMap word?) .linear ∧
        ramp.colorMode = lastChoice RampColorMode.ofWord? (arguments.filterMap word?) .rgb ∧
        ramp.hueInterpolation =
          lastChoice HueInterpolation.ofWord? (arguments.filterMap word?) .near) ∧
    ∀ {ramp : ColorRamp} {stops : List RampStop}, InOrder ramp.stops →
      (∀ stop ∈ stops, stop.position.isNaN = false) →
      (stops.foldl insertStop ramp).stops = sort (ramp.stops ++ stops) ∧
      StablySorts (ramp.stops ++ stops) (sort (ramp.stops ++ stops)) := by
  constructor
  · intro arguments ramp
    unfold ofArguments
    rw [bind_eq_ok_iff]
    constructor
    · rintro ⟨read, done, ⟨⟩⟩
      obtain ⟨options, stops, lists, rfl⟩ := (readArguments_eq_ok_iff rfl).1 done
      refine ⟨options, stops, lists, lists.length_eq, ?_, stablySorts_sort lists.numbers, ?_⟩
      · simp only [isEmpty_sort]
        split <;> rfl
      · split <;> exact ⟨rfl, rfl, rfl⟩
    · rintro ⟨options, stops, lists, -, stopped, -, interpolated, colored, hued⟩
      refine ⟨_, (readArguments_eq_ok_iff rfl).2 ⟨options, stops, lists, rfl⟩, ?_⟩
      obtain ⟨interpolation, mode, hue, found⟩ := ramp
      simp only at stopped interpolated colored hued
      subst stopped interpolated colored hued
      simp only [isEmpty_sort]
      split <;> rfl
  · intro ramp stops inOrder numbers
    exact ⟨stops_foldl_insertStop inOrder numbers,
      stablySorts_sort (List.forall_mem_append.2 ⟨inOrder.numbers, numbers⟩)⟩

/-- Two stops at one half stay in the order of the settings, with a word between them, and stops that
are inserted at positions that are taken come behind those that are there. -/
theorem ofArguments_sorts_ties :
    let half : Expr := .value ⟨"0.5"⟩
    let quarter : Expr := .value ⟨"0.25"⟩
    let arguments := [half, quarter, .var ⟨"constant", none, none⟩, half, .combine half none none,
      quarter, half]
    let stops : List RampStop := [⟨0.25, .splat 0.5⟩, ⟨0.5, .splat 0.25⟩, ⟨0.5, ⟨0.5, 0.0, 0.0⟩⟩]
    let late : List RampStop := [⟨0.5, .splat 1.0⟩, ⟨0.25, .splat 1.0⟩]
    (ofArguments arguments = .ok ⟨.constant, .rgb, .near, stops⟩ ∧
      ∃ listed, ListsStops (arguments.filter fun e => !e.isWord) listed ∧
        stops = (if listed.isEmpty then blackToWhite.stops else sort listed)) ∧
    InOrder stops ∧ (∀ stop ∈ late, stop.position.isNaN = false) ∧
      (late.foldl insertStop ⟨.constant, .rgb, .near, stops⟩).stops = sort (stops ++ late) ∧
      (late.foldl insertStop ⟨.constant, .rgb, .near, stops⟩).stops =
        [⟨0.25, .splat 0.5⟩, ⟨0.25, .splat 1.0⟩, ⟨0.5, .splat 0.25⟩, ⟨0.5, ⟨0.5, 0.0, 0.0⟩⟩,
          ⟨0.5, .splat 1.0⟩] := by
  intro half quarter arguments stops late
  have read : ofArguments arguments = .ok ⟨.constant, .rgb, .near, stops⟩ := by decide +kernel
  obtain ⟨-, listed, lists, -, sorted, -⟩ := ofArguments_sorts.1.1 read
  have inOrder : InOrder stops := ⟨by decide +kernel, by decide +kernel⟩
  have numbers : ∀ stop ∈ late, stop.position.isNaN = false := by decide +kernel
  have inserted := (ofArguments_sorts.2
    (show InOrder (ColorRamp.mk .constant .rgb .near stops).stops from inOrder) numbers).1
  exact ⟨⟨read, listed, lists, sorted⟩, inOrder, numbers, inserted, by decide +kernel⟩

end ColorRamp

end Shadeloom
