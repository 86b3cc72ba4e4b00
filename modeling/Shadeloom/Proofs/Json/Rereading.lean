import Shadeloom.Proofs.Json.Lexing
/-!
# Reading a written value

The reader builds a value from the tokens that the value is written with, where it awaits a value
and where few enough containers are open. So the compact text of a value is read as this value.
-/
namespace Shadeloom.Json

namespace Reader

/-- Whether the next token begins a value, with the keys that there are then. -/
def Awaits (reader : Reader) (keys : List (Option String)) : Prop :=
  ∀ token, token ≠ .closeArray → reader.step token = reader.beginValue keys token

/-- Whether a value is built from its tokens by every reader that awaits one inside of so many
containers. -/
def Takes (count : Nat) (value : Json) : Prop :=
  ∀ (reader next : Reader) (keys : List (Option String)) (rest : List Token),
    reader.Awaits keys → reader.containers.length = count →
      complete value reader.containers keys = some next →
        reader.run (value.tokensOf ++ rest) = next.run rest

/-- A token that is a step is one of a run. -/
theorem run_step {reader next : Reader} {token : Token} (step : reader.step token = some next)
    (rest : List Token) : reader.run (token :: rest) = next.run rest := by
  rw [run, step]

/-- A value is awaited after a comma between items. -/
theorem awaits_value (containers : List Container) (keys : List (Option String)) :
    (Reader.mk .value containers keys).Awaits keys :=
  fun _ _ => rfl

/-- A value is awaited at the start of an array. -/
theorem awaits_valueOrClose (containers : List Container) (keys : List (Option String)) :
    (Reader.mk .valueOrClose containers keys).Awaits keys := by
  intro token open_
  cases token <;> first | rfl | exact absurd rfl open_

/-- A value is awaited after a key, which is a key then. -/
theorem awaits_memberValue (key : Option String) (containers : List Container)
    (keys : List (Option String)) :
    (Reader.mk (.memberValue key) containers keys).Awaits (key :: keys) :=
  fun _ _ => rfl

/-- Items are added to their array one after the other. -/
theorem run_itemTokens {count : Nat} {items : List Json} (takes : ∀ item ∈ items, Takes count item)
    (some : items ≠ []) {reader : Reader} {kept : List Json} {outer : List Container}
    (awaits : reader.Awaits reader.keys) (inside : reader.containers = .array kept :: outer)
    (deep : outer.length + 1 = count) (rest : List Token) :
    reader.run (itemTokens items ++ rest) =
      run ⟨.commaOrClose, .array (items.reverse ++ kept) :: outer, reader.keys⟩ rest := by
  induction items generalizing reader kept rest with
  | nil => exact absurd rfl some
  | cons item items ih =>
    rw [List.forall_mem_cons] at takes
    have taken := takes.1 reader ⟨.commaOrClose, .array (item :: kept) :: outer, reader.keys⟩
      reader.keys
    have first := fun rest => taken rest awaits (by rw [inside]; exact deep) (by rw [inside]; rfl)
    cases items with
    | nil => exact first rest
    | cons next items =>
      simp only [itemTokens, List.append_assoc, List.cons_append]
      have comma : step ⟨.commaOrClose, .array (item :: kept) :: outer, reader.keys⟩ .comma =
          .some ⟨.value, .array (item :: kept) :: outer, reader.keys⟩ := rfl
      rw [first, run_step comma, ih takes.2 (by simp) (awaits_value _ _) rfl]
      simp

/-- Members are added to their object one after the other. -/
theorem run_memberTokens {count : Nat} {members : List (String × Json)}
    (takes : ∀ member ∈ members, Takes count member.2) (some : members ≠ [])
    {kept : List (String × Json)} {outer : List Container} {keys : List (Option String)}
    (deep : outer.length + 1 = count) {expected : Expected}
    (key : ∀ key, step ⟨expected, .object kept true :: outer, keys⟩ (.text key) =
      .some ⟨.colon key, .object kept true :: outer, keys⟩) (rest : List Token) :
    run ⟨expected, .object kept true :: outer, keys⟩ (memberTokens members ++ rest) =
      run ⟨.commaOrClose, .object (members.reverse ++ kept) true :: outer, keys⟩ rest := by
  induction members generalizing expected kept rest with
  | nil => exact absurd rfl some
  | cons member members ih =>
    rw [List.forall_mem_cons] at takes
    obtain ⟨name, value⟩ := member
    have first (rest : List Token) :
        run ⟨expected, .object kept true :: outer, keys⟩
            (.text (.some name) :: .colon :: (value.tokensOf ++ rest)) =
          run ⟨.commaOrClose, .object ((name, value) :: kept) true :: outer, keys⟩ rest := by
      rw [run_step (key _), run_step rfl]
      exact takes.1 _ _ _ rest (awaits_memberValue _ _ _) deep rfl
    cases members with
    | nil => exact first rest
    | cons next members =>
      simp only [memberTokens, List.append_assoc, List.cons_append]
      have comma : step ⟨.commaOrClose, .object ((name, value) :: kept) true :: outer, keys⟩
          .comma = .some ⟨.key, .object ((name, value) :: kept) true :: outer, keys⟩ := rfl
      rw [first, run_step comma, ih takes.2 (by simp) fun _ => rfl]
      simp

/-- A container inside of few enough others has a use. -/
theorem usable_of_length {outer : List Container} (deep : outer.length < depthLimit)
    (value : Json) : usable outer value = value := by
  have none : outer.drop (depthLimit - 1) = [] := List.drop_eq_nil_of_le (by omega)
  simp [usable, none]

/-- A value is built from its tokens where few enough containers are open. -/
theorem takes_of_nests {depth : Nat} {value : Json} (nests : value.Nests depth) {count : Nat}
    (deep : count + depth ≤ depthLimit) : Takes count value := by
  induction nests generalizing count with
  | null | bool | int | float | str =>
    intro reader next keys rest awaits _ complete
    refine run_step ?_ rest
    rw [awaits _ (by simp)]
    exact complete
  | @arr depth items inside ih =>
    intro reader next keys rest awaits length complete
    have takes : ∀ item ∈ items, Takes (count + 1) item := fun item mem =>
      ih item mem (by omega)
    have step : reader.step .openArray =
        some ⟨.valueOrClose, .array [] :: reader.containers, keys⟩ := awaits _ (by simp)
    have close : usable reader.containers (.arr items) = .arr items :=
      usable_of_length (by omega) _
    simp only [tokensOf, List.cons_append, List.append_assoc, List.nil_append]
    rw [run_step step]
    cases items with
    | nil =>
      refine run_step ?_ rest
      rw [← complete, ← close]
      rfl
    | cons item items =>
      rw [run_itemTokens takes (by simp) (awaits_valueOrClose _ _) rfl (by rw [length])]
      refine run_step ?_ rest
      rw [← complete, ← close]
      simp [Reader.step, Reader.close, Container.toJson]
  | @obj depth members inside ih =>
    intro reader next keys rest awaits length complete
    have takes : ∀ member ∈ members, Takes (count + 1) member.2 := fun member mem =>
      ih member mem (by omega)
    have step : reader.step .openObject =
        some ⟨.keyOrClose, .object [] true :: reader.containers, keys⟩ := awaits _ (by simp)
    have close : usable reader.containers (.obj members) = .obj members :=
      usable_of_length (by omega) _
    simp only [tokensOf, List.cons_append, List.append_assoc, List.nil_append]
    rw [run_step step]
    cases members with
    | nil =>
      refine run_step ?_ rest
      rw [← complete, ← close]
      rfl
    | cons member members =>
      rw [run_memberTokens takes (by simp) (by rw [length]) fun _ => rfl]
      refine run_step ?_ rest
      rw [← complete, ← close]
      simp [Reader.step, Reader.close, Container.toJson]

end Reader

/-- The compact text of a value is read as this value, if its containers are not nested too deep
and the numbers inside it are read back as they are written. -/
theorem read_compact {value : Json} (nests : value.Nests Reader.depthLimit)
    (rereads : ∀ number ∈ value.numbers, number.Rereads) : read value.compact = value := by
  have deep : 0 + Reader.depthLimit ≤ Reader.depthLimit := Nat.le_of_eq (Nat.zero_add _)
  have built := Reader.takes_of_nests nests deep .start
    ⟨.nothing value, [], []⟩ [] [] (Reader.awaits_value _ _) rfl rfl
  rw [List.append_nil] at built
  simp only [read, tokens_compact nests rereads, built]
  rfl

end Shadeloom.Json
