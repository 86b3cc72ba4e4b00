import Mathlib
import Shadeloom.Build.Cleanup
import Shadeloom.Proofs.Results
/-!
# Steps of a cleanup

How steps that edit a site are put together: what a sequence of steps and a step for every item of
a list come to, from what each of them does.
-/
namespace Shadeloom

namespace Cleanup

variable {α β : Type}

/-- A step after another one is carried out when both are. -/
theorem bind_eq_ok_iff {first : Cleanup α} {next : α → Cleanup β} {site after : Site} {result : β} :
    (first >>= next) site = .ok result after ↔
      ∃ a between, first site = .ok a between ∧ next a between = .ok result after := by
  show EStateM.bind first next site = _ ↔ _
  unfold EStateM.bind
  cases first site with
  | ok a between => simp
  | error error between => simp

/-- A step that is refused is not followed by another one. -/
theorem bind_of_error {first : Cleanup α} {site after : Site} {error : BuildError}
    (refused : first site = .error error after) (next : α → Cleanup β) :
    (first >>= next) site = .error error after := by
  show EStateM.bind first next site = _
  unfold EStateM.bind
  rw [refused]

/-- A step that is carried out is followed by the next one. -/
theorem bind_of_ok {first : Cleanup α} {site between : Site} {result : α}
    (done : first site = .ok result between) (next : α → Cleanup β) :
    (first >>= next) site = next result between := by
  show EStateM.bind first next site = _
  unfold EStateM.bind
  rw [done]

/-- Reading the graph refuses and changes nothing. -/
theorem graph_bind (next : Graph → Cleanup α) (site : Site) :
    (graph >>= next) site = next site.graph site :=
  rfl

/-- Reading the site refuses and changes nothing. -/
theorem get_bind (next : Site → Cleanup α) (site : Site) : (get >>= next) site = next site site :=
  rfl

/-- An edit of the graph is carried out when the graph allows it. -/
theorem edit_eq_ok_iff {change : Graph → Except GraphError Graph} {site after : Site} {done : Unit} :
    edit change site = .ok done after ↔
      ∃ changed, change site.graph = .ok changed ∧ after = { site with graph := changed } := by
  rw [edit, graph_bind]
  cases change site.graph with
  | ok changed =>
    show EStateM.Result.ok () { site with graph := changed } = _ ↔ _
    simp [eq_comm]
  | error error =>
    show EStateM.Result.error (BuildError.graph error) site = _ ↔ _
    simp

/-- An edit of a definition is carried out when the definition allows it. -/
theorem editDefinition_of_get? {group : String} {change : Graph → Except GraphError Graph}
    {definition : Graph} {site after : Site} {done : Unit}
    (found : site.library.get? group = some definition)
    (edited : editDefinition group change site = .ok done after) :
    ∃ changed, change definition = .ok changed ∧
      after = { site with library := site.library.insert group changed } := by
  rw [editDefinition, get_bind, found] at edited
  dsimp only at edited
  cases made : change definition with
  | error error => rw [made] at edited; cases edited
  | ok changed => rw [made] at edited; cases edited; exact ⟨changed, rfl, rfl⟩

/-- An edit of a definition is carried out when there is none or it allows the edit. -/
theorem editDefinition_eq_ok {group : String} {change : Graph → Except GraphError Graph}
    {site after : Site} {done : Unit} (edited : editDefinition group change site = .ok done after) :
    after = site ∨ ∃ definition changed, site.library.get? group = some definition ∧
      change definition = .ok changed ∧
        after = { site with library := site.library.insert group changed } := by
  cases found : site.library.get? group with
  | some definition =>
    obtain ⟨changed, made, same⟩ := editDefinition_of_get? found edited
    exact .inr ⟨definition, changed, rfl, made, same⟩
  | none =>
    rw [editDefinition, get_bind, found] at edited
    cases edited
    exact .inl rfl

/-- What holds before a list of steps, and of the rest after each of them, holds in the end. -/
theorem forM_ok (step : α → Cleanup Unit) (holds : List α → Site → Prop)
    (carried : ∀ item rest site, holds (item :: rest) site →
      ∃ after, step item site = .ok () after ∧ holds rest after)
    (items : List α) (site : Site) (start : holds items site) :
    ∃ after, items.forM step site = .ok () after ∧ holds [] after := by
  induction items generalizing site with
  | nil => exact ⟨site, rfl, start⟩
  | cons item rest ih =>
    obtain ⟨between, done, later⟩ := carried item rest site start
    obtain ⟨after, all, final⟩ := ih between later
    exact ⟨after, bind_eq_ok_iff.2 ⟨(), between, done, all⟩, final⟩

/-- What every step of a list keeps is kept by all of them. -/
theorem forM_keeps (step : α → Cleanup Unit) (holds : Site → Prop) {items : List α}
    (keeps : ∀ item ∈ items, ∀ site after, holds site → step item site = .ok () after → holds after)
    {site after : Site} (done : items.forM step site = .ok () after) (start : holds site) :
    holds after := by
  induction items generalizing site with
  | nil => cases done; exact start
  | cons item rest ih =>
    obtain ⟨_, between, first, later⟩ := bind_eq_ok_iff.1 done
    exact ih (fun other mem => keeps other (by simp [mem])) later
      (keeps item (by simp) site between start first)

/-- What holds before a list of steps that are carried out, and of the rest after each of them,
holds in the end. -/
theorem forM_carries (step : α → Cleanup Unit) (holds : List α → Site → Prop)
    (carried : ∀ item rest site after, holds (item :: rest) site →
      step item site = .ok () after → holds rest after)
    {items : List α} {site after : Site} (done : items.forM step site = .ok () after)
    (start : holds items site) : holds [] after := by
  induction items generalizing site with
  | nil => cases done; exact start
  | cons item rest ih =>
    obtain ⟨_, between, first, later⟩ := bind_eq_ok_iff.1 done
    exact ih later (carried item rest site between start first)

/-- Steps that change nothing change nothing together. -/
theorem forM_idle {step : α → Cleanup Unit} {items : List α} {site : Site}
    (idle : ∀ item ∈ items, step item site = .ok () site) : items.forM step site = .ok () site := by
  induction items with
  | nil => rfl
  | cons item rest ih =>
    exact bind_eq_ok_iff.2 ⟨(), site, idle item (by simp),
      ih fun other mem => idle other (by simp [mem])⟩

/-- What holds before a list of counted steps, and of the count and the rest after each of them,
holds in the end. -/
theorem count_counts (step : α → Cleanup Bool) (holds : Nat → List α → Site → Prop)
    (carried : ∀ sum item rest site, holds sum (item :: rest) site →
      ∃ changed after, step item site = .ok changed after ∧
        holds (if changed then sum + 1 else sum) rest after)
    (items : List α) (site : Site) (start : holds 0 items site) :
    ∃ total after, count items step site = .ok total after ∧ holds total [] after := by
  unfold count
  generalize 0 = sum at start
  induction items generalizing site sum with
  | nil => exact ⟨sum, site, rfl, start⟩
  | cons item rest ih =>
    obtain ⟨changed, between, done, later⟩ := carried sum item rest site start
    obtain ⟨total, after, all, final⟩ := ih between (if changed then sum + 1 else sum) later
    refine ⟨total, after, ?_, final⟩
    rw [List.foldlM_cons]
    exact bind_eq_ok_iff.2 ⟨_, between, bind_eq_ok_iff.2 ⟨changed, between, done, rfl⟩, all⟩

/-- What holds before a list of counted steps, and of the rest after each of them, holds in the
end. -/
theorem count_ok (step : α → Cleanup Bool) (holds : List α → Site → Prop)
    (carried : ∀ item rest site, holds (item :: rest) site →
      ∃ changed after, step item site = .ok changed after ∧ holds rest after)
    (items : List α) (site : Site) (start : holds items site) :
    ∃ total after, count items step site = .ok total after ∧ holds [] after :=
  count_counts step (fun _ => holds) (fun _ => carried) items site start

/-- What holds before a list of steps that say how much they have changed, and of the sum and the
rest after each of them, holds in the end. -/
theorem sum_sums (step : α → Cleanup Nat) (holds : Nat → List α → Site → Prop)
    (carried : ∀ sum item rest site, holds sum (item :: rest) site →
      ∃ changed after, step item site = .ok changed after ∧ holds (sum + changed) rest after)
    (items : List α) (site : Site) (start : Nat) (first : holds start items site) :
    ∃ total after, (items.foldlM (fun total item => do return total + (← step item)) start :
      Cleanup Nat) site = .ok total after ∧ holds total [] after := by
  induction items generalizing site start with
  | nil => exact ⟨start, site, rfl, first⟩
  | cons item rest ih =>
    obtain ⟨changed, between, done, later⟩ := carried start item rest site first
    obtain ⟨total, after, all, final⟩ := ih between (start + changed) later
    refine ⟨total, after, ?_, final⟩
    rw [List.foldlM_cons]
    exact bind_eq_ok_iff.2 ⟨_, between, bind_eq_ok_iff.2 ⟨changed, between, done, rfl⟩, all⟩

/-- What holds before a list of counted steps that are carried out, and of the rest after each of
them, holds in the end. -/
theorem count_carries (step : α → Cleanup Bool) (holds : List α → Site → Prop)
    (carried : ∀ item rest site changed after, holds (item :: rest) site →
      step item site = .ok changed after → holds rest after)
    {items : List α} {site after : Site} {total : Nat}
    (done : count items step site = .ok total after) (start : holds items site) :
    holds [] after := by
  unfold count at done
  generalize 0 = sum at done
  induction items generalizing site sum with
  | nil => cases done; exact start
  | cons item rest ih =>
    rw [List.foldlM_cons] at done
    obtain ⟨_, between, first, later⟩ := bind_eq_ok_iff.1 done
    obtain ⟨changed, middle, stepped, same⟩ := bind_eq_ok_iff.1 first
    cases same
    exact ih (carried item rest site changed between start stepped) _ later

/-- Counted steps that change nothing change nothing together. -/
theorem count_idle {step : α → Cleanup Bool} {items : List α} {site : Site}
    (idle : ∀ item ∈ items, step item site = .ok false site) :
    count items step site = .ok 0 site := by
  unfold count
  induction items with
  | nil => rfl
  | cons item rest ih =>
    rw [List.foldlM_cons]
    exact bind_eq_ok_iff.2 ⟨0, site, bind_eq_ok_iff.2 ⟨false, site, idle item (by simp), rfl⟩,
      ih fun other mem => idle other (by simp [mem])⟩

/-- What every counted step of a list keeps is kept by all of them. -/
theorem count_keeps (step : α → Cleanup Bool) (holds : Site → Prop) {items : List α}
    (keeps : ∀ item ∈ items, ∀ site changed after, holds site →
      step item site = .ok changed after → holds after)
    {site after : Site} {total : Nat} (done : count items step site = .ok total after)
    (start : holds site) : holds after := by
  refine (count_carries step (fun rest now => (∀ item ∈ rest, item ∈ items) ∧ holds now)
    (fun item rest now changed later ⟨sub, start⟩ stepped => ?_) done ⟨fun _ mem => mem, start⟩).2
  exact ⟨fun other mem => sub other (by simp [mem]),
    keeps item (sub item (by simp)) now changed later start stepped⟩

/-- What holds before a list of steps that are carried out and say how much they have changed, and of
the rest after each of them, holds in the end. -/
theorem sum_carries (step : α → Cleanup Nat) (holds : List α → Site → Prop)
    (carried : ∀ item rest site changed after, holds (item :: rest) site →
      step item site = .ok changed after → holds rest after)
    {items : List α} {site after : Site} {total start : Nat}
    (done : (items.foldlM (fun total item => do return total + (← step item)) start : Cleanup Nat)
      site = .ok total after) (first : holds items site) : holds [] after := by
  induction items generalizing site start with
  | nil => cases done; exact first
  | cons item rest ih =>
    rw [List.foldlM_cons] at done
    obtain ⟨_, between, counted, later⟩ := bind_eq_ok_iff.1 done
    obtain ⟨changed, _, stepped, same⟩ := bind_eq_ok_iff.1 counted
    cases same
    exact ih later (carried item rest site changed between first stepped)

/-- What every counted step keeps, unless it is refused for one of some reasons, is kept by all of
them, unless one is refused for such a reason. -/
theorem count_outcome (step : α → Cleanup Bool) (holds : Site → Prop) (reason : BuildError → Prop)
    (carried : ∀ item site, holds site →
      (∃ changed after, step item site = .ok changed after ∧ holds after) ∨
        ∃ error after, step item site = .error error after ∧ reason error)
    (items : List α) (site : Site) (start : holds site) :
    (∃ total after, count items step site = .ok total after ∧ holds after) ∨
      ∃ error after, count items step site = .error error after ∧ reason error := by
  unfold count
  generalize 0 = sum
  induction items generalizing site sum with
  | nil => exact .inl ⟨sum, site, rfl, start⟩
  | cons item rest ih =>
    rw [List.foldlM_cons]
    rcases carried item site start with ⟨changed, between, done, later⟩ | ⟨error, after, refused, why⟩
    · have first : (do return if ← step item then sum + 1 else sum : Cleanup Nat) site =
          .ok (if changed then sum + 1 else sum) between :=
        bind_eq_ok_iff.2 ⟨changed, between, done, rfl⟩
      rcases ih between later (if changed then sum + 1 else sum) with
        ⟨total, after, all, final⟩ | ⟨error, after, refused, why⟩
      · exact .inl ⟨total, after, bind_eq_ok_iff.2 ⟨_, between, first, all⟩, final⟩
      · exact .inr ⟨error, after, (bind_of_ok first _).trans refused, why⟩
    · exact .inr ⟨error, after, bind_of_error (bind_of_error refused _) _, why⟩

/-- What holds of the first items is asked of steps in turn until one answers yes. -/
theorem anyM_ok {step : α → Cleanup Bool} {answer : α → Prop} (items : List α) {site : Site}
    (asked : ∀ item ∈ items, ∃ result, step item site = .ok result site ∧
      (result = true ↔ answer item)) :
    ∃ result, items.anyM step site = .ok result site ∧
      (result = true ↔ ∃ item ∈ items, answer item) := by
  induction items with
  | nil => exact ⟨false, rfl, by simp⟩
  | cons item rest ih =>
    obtain ⟨result, done, agrees⟩ := asked item (by simp)
    obtain ⟨later, all, agree⟩ := ih fun other mem => asked other (by simp [mem])
    cases result with
    | true =>
      refine ⟨true, ?_, by simp [agrees.1 rfl]⟩
      exact bind_eq_ok_iff.2 ⟨true, site, done, rfl⟩
    | false =>
      have no : ¬ answer item := fun yes => Bool.false_ne_true (agrees.2 yes)
      refine ⟨later, ?_, by simp [agree, no]⟩
      exact bind_eq_ok_iff.2 ⟨false, site, done, all⟩

/-- A step that is taken only if it is chosen. -/
def ifChosen (chosen : Bool) (step : Cleanup Nat) : Cleanup Nat :=
  if chosen then step else pure 0

/-- A step that may be left out is carried out, or nothing is changed. -/
theorem ifChosen_eq_ok {chosen : Bool} {step : Cleanup Nat} {site after : Site} {total : Nat}
    (done : ifChosen chosen step site = .ok total after) :
    step site = .ok total after ∨ after = site := by
  unfold ifChosen at done
  split at done
  · exact .inl done
  · cases done
    exact .inr rfl

/-- Puts the inputs in order if that is chosen. -/
def orderInputs (chosen : Bool) : Cleanup Unit := do
  if chosen then setGraph ((← graph).sortInputs shortNamesFirst)

/-- Inputs are put in order if that is chosen. -/
theorem orderInputs_eq (chosen : Bool) (site : Site) :
    orderInputs chosen site = .ok () { site with
      graph := if chosen then site.graph.sortInputs shortNamesFirst else site.graph } := by
  cases chosen <;> rfl

/-- A cleanup takes its steps one after the other. -/
theorem all_eq (declarations : Declarations) (options : BuildOptions) :
    all declarations options = do
      let relinkedOutputs ← relinkOutputs
      let removedInputs ← ifChosen options.pruneUnused removeUnusedInputs
      let removedOutputs ← ifChosen options.pruneUnused removeUnusedOutputs
      let hiddenPorts ← hidePorts declarations
      let mergedInputs ← mergeDuplicateInputs
      let foldedConstants ← ifChosen options.foldConstants foldConstants
      applyDefaults declarations.defaults
      orderInputs options.resequenceInputs
      return ⟨relinkedOutputs, removedInputs, removedOutputs, hiddenPorts, mergedInputs,
        foldedConstants⟩ := by
  obtain ⟨optimize, isolate, prune, fold, resequence, validate⟩ := options
  cases prune <;> cases fold <;> cases resequence <;> rfl

end Cleanup

end Shadeloom
