import OpenApi.Proofs.Decimal.Text
import OpenApi.Proofs.Document.Names

set_option autoImplicit false

namespace OpenApi

open Naming Text

namespace EnumModel

theorem underscored_ascii (text : String) (ascii : Ascii text.toList) :
    Ascii (underscored text).toList := by
  rw [underscored, String.toList_ofList]
  refine List.forall_mem_map.mpr fun c member => ?_
  split
  · decide
  · exact ascii c member

theorem member_name_identifier (v : Value) (ascii : ∀ text, v = .str text → Ascii text.toList) :
    IsIdentifier (memberName v) := by
  cases v with
  | num n =>
      cases n with
      | int n =>
          rw [memberName]
          split
          · exact append_identifier _ _ (by decide) (nat_text_plain _)
          · exact append_identifier _ _ (by decide) (nat_text_plain _)
      | float x =>
          rw [memberName]
          have ascii := underscored_ascii x.text x.text_ascii
          exact append_identifier _ _ (by decide) (type_name_plain _ ascii)
  | str text =>
      have ascii := ascii text rfl
      rw [memberName]
      split
      · decide
      · dsimp only
        split
        · decide
        · rename_i some
          refine guarded_identifier "Value" _ (by decide) ⟨?_, type_name_plain text ascii⟩
          simpa [String.isEmpty_iff] using some
  | bool b => cases b <;> decide
  | null => decide
  | arr items | obj fields =>
      rw [memberName]
      · decide
      all_goals simp

theorem explicit_name_word (entry : Option String) (ascii : ∀ text ∈ entry, Ascii text.toList)
    (name : String) (explicit : explicitName entry = some name) : IsWord name := by
  obtain ⟨present, some⟩ := Option.filter_eq_some_iff.mp explicit
  obtain ⟨text, given, rfl⟩ := Option.map_eq_some_iff.mp present
  exact ⟨by simpa [String.isEmpty_iff] using some, type_name_plain text (ascii text given)⟩

section Members

abbrev Item := Value × Option String × Option String

def givenNames (items : List Item) : List String :=
  items.flatMap fun item => if item.1.isNull then [] else (explicitName item.2.1).toList

structure AsciiItem (item : Item) : Prop where
  literal : ∀ text, item.1 = .str text → Ascii text.toList
  explicit : ∀ text ∈ item.2.1, Ascii text.toList

theorem base_name_cases (item : Item) (ascii : AsciiItem item) :
    let base := (explicitName item.2.1).getD (memberName item.1)
    IsName base ∧ (startsWithDigit base = false ↔
      ∀ name ∈ explicitName item.2.1, startsWithDigit name = false) := by
  cases isExplicit : explicitName item.2.1 with
  | none =>
      have identifier := member_name_identifier item.1 ascii.literal
      exact ⟨identifier.1, fun _ name absent => (by cases absent), fun _ => identifier.2⟩
  | some name =>
      have word := explicit_name_word item.2.1 ascii.explicit name isExplicit
      exact ⟨name_of_word name word, by simp⟩

-- A member has the first character of the name that it is made from, whatever number follows.
theorem members_valid (taken : List String) (items : List Item)
    (ascii : ∀ item ∈ items, AsciiItem item) :
    (∀ m ∈ membersAfter taken items, IsName m.name)
      ∧ ((∀ m ∈ membersAfter taken items, IsIdentifier m.name)
        ↔ ∀ name ∈ givenNames items, startsWithDigit name = false) := by
  induction items generalizing taken with
  | nil => simp [membersAfter, givenNames]
  | cons item rest ih =>
      rcases item with ⟨value, entry, description⟩
      obtain ⟨asciiFirst, asciiRest⟩ := List.forall_mem_cons.mp ascii
      rw [membersAfter]
      by_cases isNull : value.isNull = true
      · rw [if_pos isNull, givenNames, List.flatMap_cons, if_pos isNull]
        exact ih taken asciiRest
      · rw [if_neg isNull, givenNames, List.flatMap_cons, if_neg isNull]
        obtain ⟨isName, letter⟩ := base_name_cases (value, entry, description) asciiFirst
        obtain ⟨names, identifiers⟩ := ih _ asciiRest
        refine ⟨List.forall_mem_cons.mpr ⟨Naming.unique_name _ taken isName, names⟩, ?_⟩
        rw [List.forall_mem_cons, List.forall_mem_append, unique_identifier_iff _ taken isName, letter,
          identifiers]
        simp only [Option.mem_toList]
        rfl

end Members

section Schema

theorem spread_mem (values : List Value) (entries : List (Option String)) (text : String)
    (member : some text ∈ spread values entries) : some text ∈ entries := by
  induction values generalizing entries with
  | nil => cases member
  | cons value rest ih =>
      rw [spread] at member
      split at member
      · exact ih entries (List.mem_of_ne_of_mem (by simp) member)
      · rcases List.mem_cons.mp member with isFirst | later
        · exact List.mem_of_head? (Option.join_eq_some_iff.mp isFirst.symm)
        · exact List.mem_of_mem_tail (ih entries.tail later)

theorem aligned_mem (s : Schema) (keys : List String) (values : List Value) (text : String)
    (member : some text ∈ aligned s keys values) : ∃ key ∈ keys,
      text ∈ (((s.extension? key).bind Value.asArray?).getD []).filterMap Value.asString? := by
  have absent : some text ∉ values.map fun _ => (none : Option String) := by simp
  unfold aligned at member
  dsimp only at member
  split at member
  · exact absurd member absent
  · rename_i entries given
    obtain ⟨value, found, isArray⟩ := Option.bind_eq_some_iff.mp given
    obtain ⟨key, isKey, isValue⟩ := List.exists_of_findSome?_eq_some found
    have inEntries : some text ∈ entries.map Value.asString? := by
      split at member
      · exact member
      · split at member
        · exact spread_mem values _ text member
        · exact absurd member absent
    refine ⟨key, isKey, ?_⟩
    rw [isValue, Option.bind_some, isArray, Option.getD_some]
    exact List.mem_filterMap.mpr (List.mem_map.mp inEntries)

variable (s : Schema)

def items : List Item :=
  let values := s.enumValues.getD []
  values.zip ((aligned s nameExtensions values).zip (aligned s descriptionExtensions values))

def explicitNames : List String := givenNames (items s)

theorem items_ascii (ascii : s.AsciiNames) : ∀ item ∈ items s, AsciiItem item := by
  rintro ⟨value, entry, description⟩ member
  obtain ⟨isValue, inEntries⟩ := List.of_mem_zip member
  have isEntry := (List.of_mem_zip inEntries).1
  constructor
  · rintro text rfl
    refine s.ascii_own ascii text (List.mem_append_left _ (List.mem_append_right _ ?_))
    exact List.mem_filterMap.mpr ⟨.str text, isValue, rfl⟩
  · rintro text rfl
    refine s.ascii_own ascii text (List.mem_append_right _ ?_)
    exact List.mem_flatMap.mpr (aligned_mem s nameExtensions _ text isEntry)

theorem schema_members_valid (name : String) (ascii : s.AsciiNames) :
    (∀ m ∈ (ofSchema name s).members, IsName m.name)
      ∧ ((∀ m ∈ (ofSchema name s).members, IsIdentifier m.name)
        ↔ ∀ given ∈ explicitNames s, startsWithDigit given = false) :=
  members_valid [] (items s) (items_ascii s ascii)

end Schema

end EnumModel

end OpenApi
