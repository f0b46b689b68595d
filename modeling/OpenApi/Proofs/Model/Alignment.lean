import OpenApi.Proofs.Model.Enumeration
import OpenApi.Proofs.Naming.Fresh

set_option autoImplicit false

namespace OpenApi

open Naming (FirstFree candidate)

namespace EnumModel

def literals (values : List Value) : List Value := values.filter fun value => !value.isNull

def literalsBefore (values : List Value) (i : Nat) : Nat := (literals (values.take i)).length

-- The entry of the first present extension that belongs to the literal at a place. A list that has
-- neither length belongs to no literal.
def entryAt (s : Schema) (keys : List String) (i : Nat) : Option String := do
  let values := s.enumValues.getD []
  let entries ← (keys.findSome? s.extension?).bind Value.asArray?
  let entry ←
    if entries.length = values.length then entries[i]?
    else if entries.length = (literals values).length then entries[literalsBefore values i]?
    else none
  entry.asString?

section Places

variable (v : Value) (rest : List Value) (i : Nat)

theorem literals_before_null (isNull : v.isNull = true) :
    literalsBefore (v :: rest) (i + 1) = literalsBefore rest i := by
  simp [literalsBefore, literals, isNull]

theorem literals_before_literal (present : v.isNull = false) :
    literalsBefore (v :: rest) (i + 1) = literalsBefore rest i + 1 := by
  simp [literalsBefore, literals, present]

end Places

theorem spread_length (values : List Value) (entries : List (Option String)) :
    (spread values entries).length = values.length := by
  induction values generalizing entries with
  | nil => rfl
  | cons value rest ih =>
      rw [spread]
      split
      · exact congrArg (· + 1) (ih entries)
      · exact congrArg (· + 1) (ih entries.tail)

theorem aligned_length (s : Schema) (keys : List String) (values : List Value) :
    (aligned s keys values).length = values.length := by
  unfold aligned
  dsimp only
  split
  · exact List.length_map _
  · split
    · assumption
    · split
      · exact spread_length values _
      · exact List.length_map _

theorem spread_at (values : List Value) (entries : List (Option String)) (i : Nat) (v : Value)
    (place : values[i]? = some v) (present : v.isNull = false) :
    (spread values entries)[i]? = some entries[literalsBefore values i]?.join := by
  induction values generalizing entries i with
  | nil => cases place
  | cons first rest ih =>
      rw [spread]
      cases i with
      | zero =>
          obtain rfl : first = v := Option.some.inj place
          rw [present, if_neg Bool.false_ne_true, List.head?_eq_getElem?]
          rfl
      | succ i =>
          cases isNull : first.isNull with
          | true =>
              rw [if_pos rfl, literals_before_null first rest i isNull]
              exact ih entries i place
          | false =>
              have later := ih entries.tail i place
              rw [List.getElem?_tail] at later
              rwa [if_neg Bool.false_ne_true, literals_before_literal first rest i isNull]

theorem aligned_at (s : Schema) (keys : List String) (i : Nat) (v : Value)
    (place : (s.enumValues.getD [])[i]? = some v) (present : v.isNull = false) :
    (aligned s keys (s.enumValues.getD []))[i]? = some (entryAt s keys i) := by
  have inside : i < (s.enumValues.getD []).length := (List.getElem?_eq_some_iff.mp place).1
  have absent : ((s.enumValues.getD []).map fun _ => (none : Option String))[i]? = some none := by
    rw [List.getElem?_map, place]
    rfl
  have text (entries : List Value) (j : Nat) :
      (entries.map Value.asString?)[j]?.join = entries[j]?.bind Value.asString? := by
    rw [List.getElem?_map, ← Option.bind_id_eq_join, Option.bind_map, Function.id_comp]
  rw [aligned, entryAt]
  cases (keys.findSome? s.extension?).bind Value.asArray? with
  | none => exact absent
  | some entries =>
      dsimp only
      rw [List.length_map, Option.bind_eq_bind, Option.bind_some]
      by_cases all : entries.length = (s.enumValues.getD []).length
      · rw [if_pos all, if_pos all]
        rw [← all] at inside
        rw [List.getElem?_map, List.getElem?_eq_getElem inside]
        rfl
      · rw [if_neg all, if_neg all, literals]
        split
        · rw [spread_at _ _ i v place present, text]
          rfl
        · exact absent

section Members

variable (taken : List String) (items : List Item)

theorem members_values :
    (membersAfter taken items).map (·.value) = literals (items.map (·.1)) := by
  induction items generalizing taken with
  | nil => rfl
  | cons item rest ih =>
      rcases item with ⟨value, entry, description⟩
      rw [membersAfter, List.map_cons, literals, List.filter_cons]
      cases isNull : value.isNull with
      | true => exact ih taken
      | false => exact congrArg (value :: ·) (ih _)

theorem members_distinct (distinct : taken.Nodup) :
    (taken ++ (membersAfter taken items).map (·.name)).Nodup := by
  induction items generalizing taken with
  | nil => simpa [membersAfter] using distinct
  | cons item rest ih =>
      rcases item with ⟨value, entry, description⟩
      rw [membersAfter]
      cases isNull : value.isNull with
      | true => exact ih taken distinct
      | false =>
          dsimp only
          have fresh := Naming.unique_free ((explicitName entry).getD (memberName value)) taken
          have next := ih _ (distinct.concat fresh)
          rwa [List.concat_eq_append, List.append_assoc] at next

theorem member_at (i : Nat) (v : Value) (entry description : Option String)
    (place : items[i]? = some (v, entry, description)) (present : v.isNull = false) :
    let members := membersAfter taken items
    let before := literalsBefore (items.map (·.1)) i
    members[before]? = some {
      name := Naming.unique ((explicitName entry).getD (memberName v))
        (taken ++ (members.take before).map (·.name))
      value := v
      description } := by
  induction items generalizing taken i with
  | nil => cases place
  | cons item rest ih =>
      rcases item with ⟨value, entry', description'⟩
      dsimp only
      rw [membersAfter, List.map_cons]
      cases i with
      | zero =>
          cases place
          rw [present, if_neg Bool.false_ne_true]
          simp [literalsBefore, literals]
      | succ i =>
          cases isNull : value.isNull with
          | true =>
              rw [if_pos rfl, literals_before_null value _ i isNull]
              exact ih taken i place
          | false =>
              have later := ih (taken ++ [Naming.unique ((explicitName entry').getD
                (memberName value)) taken]) i place
              dsimp only at later
              rw [List.append_assoc] at later
              rwa [if_neg Bool.false_ne_true, literals_before_literal value _ i isNull]

end Members

structure StandsFor (s : Schema) (i : Nat) (v : Value) (before : List String) (m : EnumMember) :
    Prop where
  value : m.value = v
  described : m.description = entryAt s descriptionExtensions i
  named : ∃ k,
    let base := (explicitName (entryAt s nameExtensions i)).getD (memberName v)
    FirstFree base before k ∧ m.name = candidate base k

theorem items_values (s : Schema) : (items s).map (·.1) = s.enumValues.getD [] := by
  rw [items, List.map_fst_zip]
  rw [List.length_zip, aligned_length, aligned_length, Nat.min_self]

theorem item_at (s : Schema) (i : Nat) (v : Value) (place : (s.enumValues.getD [])[i]? = some v)
    (present : v.isNull = false) : (items s)[i]?
      = some (v, entryAt s nameExtensions i, entryAt s descriptionExtensions i) := by
  have name := aligned_at s nameExtensions i v place present
  have description := aligned_at s descriptionExtensions i v place present
  exact List.getElem?_zip_eq_some.mpr ⟨place, List.getElem?_zip_eq_some.mpr ⟨name, description⟩⟩

/-- An enumeration has one member for each literal other than null, in their order, and no two members
have the same name. The name is the explicit one, or else one made of the literal, with the first
number that keeps it apart from those before it. -/
theorem members_aligned (name : String) (s : Schema) :
    let values := s.enumValues.getD []
    let members := (ofSchema name s).members
    members.map (·.value) = literals values
      ∧ (members.map (·.name)).Nodup
      ∧ ∀ i v, values[i]? = some v → v.isNull = false →
        ∃ m, members[literalsBefore values i]? = some m
          ∧ StandsFor s i v ((members.take (literalsBefore values i)).map (·.name)) m := by
  intro values members
  have sameValues : (items s).map (·.1) = values := items_values s
  refine ⟨?_, members_distinct [] (items s) List.nodup_nil, fun i v place present => ?_⟩
  · rw [← sameValues]
    exact members_values [] (items s)
  · have found := member_at [] (items s) i v _ _ (item_at s i v place present) present
    dsimp only at found
    rw [sameValues, List.nil_append] at found
    obtain ⟨k, first⟩ := Naming.first_free_exists
      ((explicitName (entryAt s nameExtensions i)).getD (memberName v))
      ((members.take (literalsBefore values i)).map (·.name))
    exact ⟨_, found, rfl, rfl, k, first, Naming.unique_eq_candidate _ _ k first⟩

-- The names leave null out, the descriptions do not; the last name folds to the first one.
def nullableColors : Schema where
  enumValues := some [.str "red", .null, .str "green", .str "blue"]
  extra := [
    ("x-enum-descriptions", .arr [.str "warm", .str "none", .num (.int 7), .str "cold"]),
    ("x-enumNames", .arr [.str "crimson", .str "--", .str "Crimson"])]

theorem nullable_colors_aligned :
    let members := (ofSchema "Color" nullableColors).members
    members.map (·.value) = [.str "red", .str "green", .str "blue"]
      ∧ (members.map (·.name)).Nodup
      ∧ (∃ m, members[1]? = some m ∧ m.name = "Green" ∧ m.description = none)
      ∧ ∃ m, members[2]? = some m ∧ m.name = "Crimson2" ∧ m.description = some "cold" := by
  intro members
  obtain ⟨values, distinct, stands⟩ := members_aligned "Color" nullableColors
  refine ⟨values, distinct, ?_, ?_⟩
  · obtain ⟨m, found, standsFor⟩ := stands 2 (.str "green") rfl rfl
    exact ⟨m, found, by cases found; rfl, standsFor.described⟩
  · obtain ⟨m, found, standsFor⟩ := stands 3 (.str "blue") rfl rfl
    exact ⟨m, found, by cases found; rfl, standsFor.described⟩

end EnumModel

end OpenApi
