import OpenApi.Decode.Basic
import OpenApi.Proofs.Json.Same

set_option autoImplicit false

namespace OpenApi

theorem ok_of_bind {ε α β : Type} (x : Except ε α) (f : α → Except ε β) (b : β)
    (found : x >>= f = .ok b) : ∃ a, x = .ok a ∧ f a = .ok b := by
  cases x with
  | error e => cases found
  | ok a => exact ⟨a, rfl, found⟩

namespace Decode

variable {α : Type}

theorem optional_read (read : Value → Result α) (v : Value) (keyword : Option α)
    (made : optional read v = .ok keyword) : ∀ a ∈ keyword, read v = .ok a := by
  intro a present
  obtain rfl := Option.mem_def.mp present
  cases v with
  | null => cases made
  | bool | num | str | arr | obj =>
      rw [optional] at made
      · cases found : read _ with
        | error fault =>
            rw [found] at made
            cases made
        | ok a' =>
            rw [found] at made
            obtain rfl := Option.some.inj (Except.ok.inj made)
            rfl
      · nofun

theorem list_value (v : Value) (values : List Value) (made : list value v = .ok values) :
    v = .arr values := by
  cases v with
  | arr items =>
      have same : items.mapM value = .ok (items.map id) := List.mapM_pure
      rw [list, same, List.map_id] at made
      rw [Except.ok.inj made]
  | null | bool | num | str | obj => cases made

theorem entries_keys (read : Value → Result α) (fields : List (String × Value))
    (entries : List (String × α)) (made : Decode.entries read fields = .ok entries) :
    Assoc.keys entries = Assoc.keys fields
      ∧ ∀ entry ∈ entries, ∃ field ∈ fields, read field.2 = .ok entry.2 := by
  induction fields generalizing entries with
  | nil =>
      obtain rfl := Except.ok.inj made
      exact ⟨rfl, fun _ absent => by cases absent⟩
  | cons field rest ih =>
      rcases field with ⟨name, v⟩
      obtain ⟨item, itemRead, made⟩ := ok_of_bind _ _ _ made
      obtain ⟨others, othersMade, made⟩ := ok_of_bind _ _ _ made
      obtain rfl := Except.ok.inj made
      obtain ⟨sameKeys, origin⟩ := ih others othersMade
      refine ⟨congrArg (name :: ·) sameKeys, List.forall_mem_cons.mpr ⟨?_, fun entry later => ?_⟩⟩
      · exact ⟨(name, v), List.mem_cons_self, itemRead⟩
      · obtain ⟨field, inRest, fieldRead⟩ := origin entry later
        exact ⟨field, List.mem_cons_of_mem _ inRest, fieldRead⟩

theorem put_keep {β : Type} (P : α → Prop) (read : Result β) (put : β → α) (a : α)
    (made : (do .ok (put (← read))) = (.ok a : Result α)) (each : ∀ b, read = .ok b → P (put b)) :
    P a := by
  obtain ⟨b, found, made⟩ := ok_of_bind _ _ _ made
  obtain rfl := Except.ok.inj made
  exact each b found

theorem fields_keep (P : α → Prop) (put : α → String → Value → Result α) (start a : α)
    (present : List (String × Value)) (holds : P start)
    (keeps : ∀ a name v a', P a → (name, v) ∈ present → put a name v = .ok a' → P a')
    (made : fields put start present = .ok a) : P a := by
  induction present generalizing start with
  | nil =>
      obtain rfl := Except.ok.inj made
      exact holds
  | cons field rest ih =>
      rcases field with ⟨name, v⟩
      obtain ⟨next, put, made⟩ := ok_of_bind _ _ _ made
      have nextHolds := keeps start name v next holds List.mem_cons_self put
      exact ih next nextHolds (fun a name v a' before member =>
        keeps a name v a' before (List.mem_cons_of_mem _ member)) made

section Read

variable (shape : Shape) (P : α → Prop) (put : α → String → Value → Result α) (start a : α)
  (v : Value) (holds : P start)
  (keeps : ∀ a name child a', P a → child ∈ v.children → put a name child = .ok a' → P a')

include holds keeps

theorem read_object_keep (made : shape.readObject put start v = .ok a) : P a := by
  cases v with
  | obj present =>
      obtain ⟨record, taken, made⟩ := ok_of_bind _ _ _ made
      obtain ⟨_, _, made⟩ := ok_of_bind _ _ _ made
      obtain rfl := Except.ok.inj made
      exact fields_keep P put start record present holds (fun a name child a' before member =>
        keeps a name child a' before (List.mem_map_of_mem member)) taken
  | null | bool | num | str | arr => cases made

theorem read_keep (made : shape.read put start v = .ok a) : P a := by
  cases v with
  | obj present => exact read_object_keep shape P put start a (.obj present) holds keeps made
  | arr items =>
      obtain ⟨record, taken, made⟩ := ok_of_bind _ _ _ made
      have kept := fields_keep P put start record _ holds (fun a name child a' before member =>
        keeps a name child a' before (List.of_mem_zip member).2) taken
      split at made
      · cases made
      · split at made
        · cases made
        · obtain rfl := Except.ok.inj made
          exact kept
  | null | bool | num | str => cases made

end Read

end Decode

end OpenApi
