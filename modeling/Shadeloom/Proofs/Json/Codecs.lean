import Shadeloom.Json.Codec
import Shadeloom.Proofs.Json.Lexing
import Shadeloom.Proofs.Tables
/-!
# What codecs keep

Not every value survives being stored: there is no number for NaN and the infinities, and what is
stored as a count has to fit its width. A codec keeps a kind of values if exactly these are read
back, each as itself, and nothing is read of what is stored for any other.
-/
namespace Shadeloom

namespace Json

@[simp] theorem nests_null (depth : Nat) : Nests depth .null := .null

@[simp] theorem nests_bool (depth : Nat) (value : Bool) : Nests depth (.bool value) := .bool value

@[simp] theorem nests_ofNat (depth n : Nat) : Nests depth (ofNat n) := .int n

@[simp] theorem nests_str (depth : Nat) (text : String) : Nests depth (.str text) := .str text

@[simp] theorem nests_arr {depth : Nat} {items : List Json} :
    Nests (depth + 1) (.arr items) ↔ ∀ item ∈ items, Nests depth item :=
  ⟨fun nests => by cases nests; assumption, .arr⟩

@[simp] theorem nests_obj {depth : Nat} {members : List (String × Json)} :
    Nests (depth + 1) (.obj members) ↔ ∀ member ∈ members, Nests depth member.2 :=
  ⟨fun nests => by cases nests; assumption, .obj⟩

@[simp] theorem nests_tagged {depth : Nat} {tag : String} {payload : Json} :
    Nests (depth + 1) (tagged tag payload) ↔ Nests depth payload := by
  simp [tagged]

/-- What is nested so deep is nested no deeper than more. -/
theorem Nests.mono {depth depth' : Nat} {value : Json} (nests : value.Nests depth)
    (le : depth ≤ depth') : value.Nests depth' := by
  induction nests generalizing depth' with
  | null => exact .null
  | bool value => exact .bool value
  | int value => exact .int value
  | float value => exact .float value
  | str text => exact .str text
  | arr inside ih =>
    obtain ⟨depth', rfl⟩ := Nat.exists_eq_add_of_lt le
    exact .arr fun item mem => ih item mem (by omega)
  | obj inside ih =>
    obtain ⟨depth', rfl⟩ := Nat.exists_eq_add_of_lt le
    exact .obj fun member mem => ih member mem (by omega)

/-- Members with distinct names are found under these. -/
theorem members?_obj {names : List String} {members : List (String × Json)}
    (named : members.map Prod.fst = names) (distinct : names.Nodup) :
    (Json.obj members).members? names = some (members.map fun member => some member.2) := by
  subst named
  have single : ((members.map Prod.fst).any fun name =>
      1 < (members.filter fun member => member.1 = name).length) = false := by
    rw [List.any_eq_false]
    intro name _
    have once := List.nodup_iff_count_le_one.1 distinct name
    rw [List.count, List.countP_map, List.countP_eq_length_filter] at once
    exact fun more => Nat.not_lt.2 once (of_decide_eq_true more)
  unfold members?
  dsimp only
  rw [single, if_neg Bool.false_ne_true, List.map_map, Option.some.injEq]
  refine List.map_congr_left fun member mem => ?_
  have found : (Table.mk members distinct).get? member.1 = some member.2 :=
    Table.get?_eq_some_iff.2 mem
  exact found

end Json

/-- A codec keeps values of a kind, in values that are nested so deep: what is stored for one of
them is read as it, and what is stored for any other value is refused. -/
structure Codec.Keeps {α : Type} (codec : Codec α) (Kept : α → Prop) (depth : Nat) : Prop where
  decode_iff : ∀ a b, codec.decode (codec.encode a) = some b ↔ Kept a ∧ a = b
  nests : ∀ a, (codec.encode a).Nests depth

namespace Codec

variable {α : Type}

/-- Texts are kept. -/
theorem text_keeps : text.Keeps (fun _ => True) 0 where
  decode_iff := by simp [text]
  nests := by simp [text]

/-- Truth values are kept. -/
theorem bool_keeps : bool.Keeps (fun _ => True) 0 where
  decode_iff := by simp [bool]
  nests := by simp [bool]

/-- Numbers below the bound are kept. -/
theorem natBelow_keeps (bound : Nat) : (natBelow bound).Keeps (· < bound) 0 where
  decode_iff := by simp [natBelow, Json.ofNat]
  nests := by simp [natBelow]

/-- Finite doubles are kept. -/
theorem float_keeps : float.Keeps (fun x => x.isFinite = true) 0 where
  decode_iff a b := by
    by_cases finite : a.isFinite <;> simp [float, Json.ofFloat, finite]
  nests a := by
    by_cases finite : a.isFinite <;> simp [float, Json.ofFloat, finite, Json.Nests.float]

/-- A choice is found by its name if it is listed and the names are distinct. -/
theorem find?_choice {all : List α} {name : α → String} (distinct : (all.map name).Nodup) {a : α}
    (listed : a ∈ all) : (all.find? fun b => decide (name b = name a)) = some a := by
  have found : (all.find? fun b => decide (name b = name a)).isSome = true :=
    List.find?_isSome.2 ⟨a, listed, decide_eq_true rfl⟩
  obtain ⟨b, hit⟩ := Option.isSome_iff_exists.1 found
  have same := List.find?_some hit
  rw [decide_eq_true_eq] at same
  rw [hit, List.inj_on_of_nodup_map distinct (List.mem_of_find?_eq_some hit) listed same]

/-- Choices are kept if every value is listed and the names are distinct. -/
theorem choice_keeps {all : List α} {name : α → String} (complete : ∀ a, a ∈ all)
    (distinct : (all.map name).Nodup) : (choice all name).Keeps (fun _ => True) 0 where
  decode_iff a b := by
    simp only [choice, Json.tag?, find?_choice distinct (complete a), Option.some.injEq, true_and]
  nests a := by simp [choice]

/-- Items are all read as themselves if each of them is. -/
theorem mapM_map_eq_some_iff {β : Type} (write : α → β) (read : β → Option α) {Kept : α → Prop}
    (reads : ∀ a b, read (write a) = some b ↔ Kept a ∧ a = b) (items found : List α) :
    (items.map write).mapM read = some found ↔ (∀ a ∈ items, Kept a) ∧ items = found := by
  induction items generalizing found with
  | nil => simp [eq_comm]
  | cons a items ih =>
    simp only [List.map_cons, List.mapM_cons, Option.pure_def, Option.bind_eq_bind,
      Option.bind_eq_some_iff, reads, ih, Option.some.injEq, List.forall_mem_cons]
    constructor
    · rintro ⟨b, ⟨here, rfl⟩, rest, ⟨kept, rfl⟩, rfl⟩
      exact ⟨⟨here, kept⟩, rfl⟩
    · rintro ⟨⟨here, kept⟩, rfl⟩
      exact ⟨a, ⟨here, rfl⟩, items, ⟨kept, rfl⟩, rfl⟩

/-- Lists of values that are kept are kept. -/
theorem Keeps.list {codec : Codec α} {Kept : α → Prop} {depth : Nat}
    (keeps : codec.Keeps Kept depth) :
    codec.list.Keeps (fun items => ∀ a ∈ items, Kept a) (depth + 1) where
  decode_iff items read := mapM_map_eq_some_iff _ _ keeps.decode_iff items read
  nests items := by
    simpa [Codec.list] using fun a _ => keeps.nests a

/-- What a value that is kept becomes is read from what is stored for the value. -/
theorem Keeps.map_decode_iff {codec : Codec α} {Kept : α → Prop} {depth : Nat}
    (keeps : codec.Keeps Kept depth) {β : Type} (become : α → β) (a : α) (read : β) :
    (codec.decode (codec.encode a)).map become = some read ↔ Kept a ∧ become a = read := by
  simp only [Option.map_eq_some_iff, keeps.decode_iff]
  constructor
  · rintro ⟨b, ⟨kept, rfl⟩, rfl⟩
    exact ⟨kept, rfl⟩
  · rintro ⟨kept, rfl⟩
    exact ⟨a, ⟨kept, rfl⟩, rfl⟩

/-- Optional values that are kept are kept, unless one of them is stored like a missing one. -/
theorem Keeps.option {codec : Codec α} {Kept : α → Prop} {depth : Nat}
    (keeps : codec.Keeps Kept depth) (apart : ∀ a, codec.encode a ≠ .null) :
    codec.option.Keeps (fun optional => ∀ a ∈ optional, Kept a) depth where
  decode_iff optional read := by
    cases optional with
    | none => simp [Codec.option, Json.ofOption, eq_comm]
    | some a =>
      have present : codec.option.decode (codec.encode a) =
          (codec.decode (codec.encode a)).map some := by
        unfold Codec.option
        dsimp only
        split
        · rename_i null
          exact absurd null (apart a)
        · rfl
      show codec.option.decode (codec.encode a) = some read ↔ _
      rw [present, keeps.map_decode_iff]
      simp only [Option.mem_some_iff, forall_eq']
  nests optional := by
    cases optional with
    | none => exact .null
    | some a => exact keeps.nests a

/-- Optional values are kept if all values are. -/
theorem Keeps.optional {codec : Codec α} {depth : Nat} (keeps : codec.Keeps (fun _ => True) depth)
    (apart : ∀ a, codec.encode a ≠ .null) : codec.option.Keeps (fun _ => True) depth where
  decode_iff optional read := by
    rw [(keeps.option apart).decode_iff]
    simp
  nests := (keeps.option apart).nests

/-- What is kept is nested no deeper than more. -/
theorem Keeps.nests_of_le {codec : Codec α} {Kept : α → Prop} {depth depth' : Nat}
    (keeps : codec.Keeps Kept depth) (le : depth ≤ depth') (a : α) :
    (codec.encode a).Nests depth' :=
  (keeps.nests a).mono le

/-- The name of a choice that is kept is read as the choice. -/
theorem Keeps.decode_name_iff {all : List α} {name : α → String}
    (keeps : (choice all name).Keeps (fun _ => True) 0) (a b : α) :
    (choice all name).decode (.str (name a)) = some b ↔ a = b :=
  (keeps.decode_iff a b).trans (iff_of_eq (true_and _))

end Codec

end Shadeloom
