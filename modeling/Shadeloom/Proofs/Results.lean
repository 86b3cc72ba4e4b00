import Mathlib
import Shadeloom.Build.Error
/-!
# Steps that may be refused

When a sequence of steps is carried out, each of which may be refused.
-/
namespace Shadeloom

variable {ε α β : Type}

/-- A step that is carried out is followed by the next one. -/
theorem ok_bind (result : α) (next : α → Except ε β) :
    ((.ok result : Except ε α) >>= next) = next result :=
  rfl

/-- A step after another one is carried out when both are. -/
theorem bind_eq_ok_iff {first : Except ε α} {next : α → Except ε β} {result : β} :
    (first >>= next) = .ok result ↔ ∃ a, first = .ok a ∧ next a = .ok result := by
  cases first with
  | error error => simp [bind, Except.bind]
  | ok a => simp [bind, Except.bind]

/-- A step after another one is refused when either is. -/
theorem bind_eq_error_iff {first : Except ε α} {next : α → Except ε β} {error : ε} :
    (first >>= next) = .error error ↔
      first = .error error ∨ ∃ a, first = .ok a ∧ next a = .error error := by
  cases first with
  | error error => simp [bind, Except.bind]
  | ok a => simp [bind, Except.bind]

/-- A step whose result is changed is carried out when it is. -/
theorem map_eq_ok_iff {first : Except ε α} {change : α → β} {result : β} :
    first.map change = .ok result ↔ ∃ a, first = .ok a ∧ change a = result := by
  cases first with
  | error error => simp [Except.map]
  | ok a => simp [Except.map]

/-- A step whose result is changed is refused when it is. -/
theorem map_eq_error_iff {first : Except ε α} {change : α → β} {error : ε} :
    first.map change = .error error ↔ first = .error error := by
  cases first with
  | error error => simp [Except.map]
  | ok a => simp [Except.map]

/-- What is carried out has a result. -/
theorem exists_ok_of_isOk {first : Except ε α} (ok : first.isOk = true) :
    ∃ result, first = .ok result := by
  cases first with
  | error error => cases ok
  | ok result => exact ⟨result, rfl⟩

/-- A step goes on from a changed result as it does from the result that is changed first. -/
theorem map_bind_eq {γ : Type} (first : Except ε α) (change : α → β) (next : β → Except ε γ) :
    (first.map change >>= next) = first >>= fun a => next (change a) := by
  cases first <;> rfl

/-- A result of two steps is changed when that of the second one is. -/
theorem bind_map_eq {γ : Type} (first : Except ε α) (next : α → Except ε β) (change : β → γ) :
    (first >>= next).map change = first >>= fun a => (next a).map change := by
  cases first <;> rfl

/-- A result that is changed twice is changed by both changes. -/
theorem map_map_eq {γ : Type} (first : Except ε α) (change : α → β) (next : β → γ) :
    (first.map change).map next = first.map fun a => next (change a) := by
  cases first <;> rfl

/-- An edit is carried out as a step of a build when it is. -/
theorem lift_eq_ok_iff {edit : Except GraphError α} {result : α} :
    GraphError.lift edit = .ok result ↔ edit = .ok result := by
  cases edit with
  | error error => simp [GraphError.lift, Except.mapError]
  | ok a => simp [GraphError.lift, Except.mapError]

/-- An edit is refused as a step of a build for a graph error when it is refused for that. -/
theorem lift_eq_error_iff {edit : Except GraphError α} {fault : GraphError} :
    GraphError.lift edit = .error (.graph fault) ↔ edit = .error fault := by
  cases edit with
  | error error => simp [GraphError.lift, Except.mapError]
  | ok a => simp [GraphError.lift, Except.mapError]

/-- Something is done for every element of a list when it is done for each of them. -/
theorem forM_eq_ok_iff {α ε : Type} {f : α → Except ε Unit} {list : List α} :
    list.forM f = .ok () ↔ ∀ a ∈ list, f a = .ok () := by
  induction list with
  | nil => exact iff_of_true rfl nofun
  | cons first rest ih =>
    rw [List.forall_mem_cons, ← ih]
    constructor
    · intro done
      obtain ⟨⟨⟩, head, tail⟩ := bind_eq_ok_iff.1 done
      exact ⟨head, tail⟩
    · rintro ⟨head, tail⟩
      exact bind_eq_ok_iff.2 ⟨(), head, tail⟩

/-- What every step along a list keeps is kept by all of them. -/
theorem foldlM_keeps (holds : β → Prop) {step : β → α → Except ε β}
    (keeps : ∀ before item after, holds before → step before item = .ok after → holds after)
    {items : List α} {start result : β} (done : items.foldlM step start = .ok result)
    (first : holds start) : holds result := by
  induction items generalizing start with
  | nil => cases done; exact first
  | cons item rest ih =>
    rw [List.foldlM_cons] at done
    obtain ⟨next, stepped, later⟩ := bind_eq_ok_iff.1 done
    exact ih later (keeps start item next first stepped)

/-- Steps along a list are refused at an element when those before it are carried out and its own is
refused. -/
theorem foldlM_eq_error_iff {step : β → α → Except ε β} {items : List α} {start : β} {error : ε} :
    items.foldlM step start = .error error ↔ ∃ done item rest result,
      items = done ++ item :: rest ∧ done.foldlM step start = .ok result ∧
        step result item = .error error := by
  constructor
  · intro refused
    induction items generalizing start with
    | nil => cases refused
    | cons first rest ih =>
      rw [List.foldlM_cons] at refused
      rcases bind_eq_error_iff.1 refused with here | ⟨next, stepped, later⟩
      · exact ⟨[], first, rest, start, rfl, rfl, here⟩
      · obtain ⟨done, item, left, result, rfl, carried, there⟩ := ih later
        refine ⟨first :: done, item, left, result, rfl, ?_, there⟩
        rw [List.foldlM_cons]
        exact bind_eq_ok_iff.2 ⟨next, stepped, carried⟩
  · rintro ⟨done, item, rest, result, rfl, carried, there⟩
    rw [List.foldlM_append, carried, ok_bind, List.foldlM_cons, there]
    rfl

/-- Steps along a list that are refused are refused at one of its elements. -/
theorem exists_of_foldlM_error {step : β → α → Except ε β} {items : List α} {start : β} {error : ε}
    (refused : items.foldlM step start = .error error) :
    ∃ result, ∃ item ∈ items, step result item = .error error := by
  obtain ⟨done, item, rest, result, rfl, -, there⟩ := foldlM_eq_error_iff.1 refused
  exact ⟨result, item, by simp, there⟩

/-- Whether two results are both refused, or both there and related. -/
inductive Concur {ε ε' α α' : Type} (related : α → α' → Prop) :
    Except ε α → Except ε' α' → Prop
  | refused (error : ε) (error' : ε') : Concur related (.error error) (.error error')
  | done {result : α} {result' : α'} (same : related result result') :
    Concur related (.ok result) (.ok result')

/-- Results concur if each is there when the other one is, and they are related then. -/
theorem Concur.of_forth_back {ε ε' α α' : Type} {related : α → α' → Prop} {first : Except ε α}
    {second : Except ε' α'}
    (forth : ∀ result, first = .ok result → ∃ result', second = .ok result' ∧ related result result')
    (back : ∀ result', second = .ok result' → ∃ result, first = .ok result) :
    Concur related first second := by
  cases first with
  | ok result =>
    obtain ⟨result', rfl, same⟩ := forth result rfl
    exact .done same
  | error error =>
    cases second with
    | ok result' =>
      obtain ⟨result, impossible⟩ := back result' rfl
      cases impossible
    | error error' => exact .refused error error'

/-- What concurs with a result that is there is there and related to it. -/
theorem Concur.exists_of_ok {ε ε' α α' : Type} {related : α → α' → Prop} {result : α}
    {second : Except ε' α'} (concur : Concur related (.ok result : Except ε α) second) :
    ∃ result', second = .ok result' ∧ related result result' := by
  cases concur with
  | done same => exact ⟨_, rfl, same⟩

/-- What concurs concurs the other way around. -/
theorem Concur.symm {ε ε' α α' : Type} {related : α → α' → Prop} {first : Except ε α}
    {second : Except ε' α'} (concur : Concur related first second) :
    Concur (fun a b => related b a) second first := by
  cases concur with
  | refused error error' => exact .refused error' error
  | done same => exact .done same

/-- What concurs with a result that concurs with a third one concurs with that. -/
theorem Concur.trans {ε ε' ε'' α α' α'' : Type} {related : α → α' → Prop}
    {related' : α' → α'' → Prop} {joined : α → α'' → Prop} {first : Except ε α}
    {second : Except ε' α'} {third : Except ε'' α''} (early : Concur related first second)
    (late : Concur related' second third) (join : ∀ a b c, related a b → related' b c → joined a c) :
    Concur joined first third := by
  cases early with
  | refused error error' =>
    cases late with
    | refused _ error'' => exact .refused error error''
  | done same =>
    cases late with
    | done same' => exact .done (join _ _ _ same same')

/-- What concurs does so whatever is said where it is refused. -/
theorem Concur.mapError {ε ε' α α' : Type} {related : α → α' → Prop} {first : Except ε α}
    {second : Except ε' α'} (concur : Concur related first second) {δ δ' : Type} (say : ε → δ)
    (say' : ε' → δ') : Concur related (first.mapError say) (second.mapError say') := by
  cases concur with
  | refused error error' => exact .refused _ _
  | done same => exact .done same

/-- What holds of the second of results that concur may be said of it as well. -/
theorem Concur.and {ε ε' α α' : Type} {related : α → α' → Prop} {holds : α' → Prop}
    {first : Except ε α} {second : Except ε' α'} (concur : Concur related first second)
    (also : ∀ result', second = .ok result' → holds result') :
    Concur (fun a b => related a b ∧ holds b) first second := by
  cases concur with
  | refused error error' => exact .refused error error'
  | done same => exact .done ⟨same, also _ rfl⟩

/-- What concurs under a relation concurs under a weaker one. -/
theorem Concur.mono {ε ε' α α' : Type} {related weaker : α → α' → Prop} {first : Except ε α}
    {second : Except ε' α'} (concur : Concur related first second)
    (weaken : ∀ a b, related a b → weaker a b) : Concur weaker first second := by
  cases concur with
  | refused error error' => exact .refused error error'
  | done same => exact .done (weaken _ _ same)

/-- Steps after steps that concur concur if they do so for related results. -/
theorem Concur.bind {ε ε' α α' β β' : Type} {related : α → α' → Prop} {related' : β → β' → Prop}
    {first : Except ε α} {second : Except ε' α'} {next : α → Except ε β} {next' : α' → Except ε' β'}
    (early : Concur related first second)
    (late : ∀ a b, related a b → Concur related' (next a) (next' b)) :
    Concur related' (first >>= next) (second >>= next') := by
  cases early with
  | refused error error' => exact .refused error error'
  | done same => exact late _ _ same

/-- Results that concur do so when they are changed. -/
theorem Concur.map {ε ε' α α' β β' : Type} {related : α → α' → Prop} {related' : β → β' → Prop}
    {first : Except ε α} {second : Except ε' α'} (concur : Concur related first second)
    {change : α → β} {change' : α' → β'} (keep : ∀ a b, related a b → related' (change a) (change' b)) :
    Concur related' (first.map change) (second.map change') := by
  cases concur with
  | refused error error' => exact .refused error error'
  | done same => exact .done (keep _ _ same)

/-- Results that are the same after a change concur. -/
theorem Concur.of_map_eq {ε α β : Type} {change : α → β} {first second : Except ε α}
    (same : first.map change = second.map change) :
    Concur (fun a b => change a = change b) first second := by
  cases first <;> cases second <;> simp [Except.map] at same
  · exact .refused _ _
  · exact .done same

/-- Steps along lists that concur one by one concur. -/
theorem Concur.foldlM {ε ε' α α' β β' : Type} {items : β → β' → Prop} {related : α → α' → Prop}
    {step : α → β → Except ε α} {step' : α' → β' → Except ε' α'}
    (each : ∀ a a' b b', related a a' → items b b' → Concur related (step a b) (step' a' b'))
    {list : List β} {list' : List β'} (alike : List.Forall₂ items list list') {start : α} {start' : α'}
    (same : related start start') :
    Concur related (list.foldlM step start) (list'.foldlM step' start') := by
  induction alike generalizing start start' with
  | nil => exact .done same
  | cons head tail ih => exact (each _ _ _ _ same head).bind fun _ _ next => ih next

end Shadeloom
