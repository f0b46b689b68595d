import OpenApi.Proofs.Schema.Taken

set_option autoImplicit false

namespace OpenApi

def Discriminator.Distinct (d : Discriminator) : Prop := (Assoc.keys d.mapping).Nodup

namespace Schema

open Decode

-- What is known of a schema while its keywords are taken up. Uninterpreted keywords are kept in
-- order, which keeps them apart.
structure KeyedParts (s : Schema) : Prop where
  default : ∀ v ∈ s.default, v.isKeyed = true
  enumValues : ∀ values ∈ s.enumValues, (Value.arr values).isKeyed = true
  constValue : ∀ v ∈ s.constValue, v.isKeyed = true
  extraOrder : Assoc.Ascending s.extra
  extra : ∀ field ∈ s.extra, field.2.isKeyed = true
  mapping : ∀ d ∈ s.discriminator, d.Distinct
  names : (Assoc.keys s.properties).Nodup
  children : ∀ child ∈ s.children, child.isKeyed = true

theorem parts_empty : KeyedParts {} := by
  constructor <;> simp [Assoc.Ascending, Assoc.keys, OrBool.schemas, children]

theorem keyed_of_parts (s : Schema) (parts : KeyedParts s) : s.isKeyed = true := by
  rw [keyed_iff]
  refine ⟨?_, parts.names, parts.children⟩
  simp only [valuesKeyed, Bool.and_eq_true, Option.all_eq_true, List.all_eq_true,
    decide_eq_true_iff, Value.keyed_obj_iff]
  refine ⟨⟨⟨⟨parts.default, ?_⟩, parts.constValue⟩, ?_⟩, parts.mapping⟩
  · cases present : s.enumValues with
    | none => exact List.forall_mem_nil _
    | some values => exact (Value.keyed_arr_iff values).mp (parts.enumValues values present)
  · exact ⟨Assoc.ascending_distinct s.extra parts.extraOrder, parts.extra⟩

def DecodesKeyed (v : Value) : Prop :=
  ∀ s, decode v = .ok s → v.isKeyed = true → s.isKeyed = true

theorem decode_entries_keys (fields : List (String × Value)) (entries : List (String × Schema))
    (made : decodeEntries fields = .ok entries) : Assoc.keys entries = Assoc.keys fields := by
  induction fields generalizing entries with
  | nil =>
      obtain rfl := Except.ok.inj made
      rfl
  | cons field rest ih =>
      rcases field with ⟨name, v⟩
      rw [decodeEntries] at made
      obtain ⟨s, decoded, made⟩ := ok_of_bind _ _ _ made
      obtain ⟨others, othersMade, made⟩ := ok_of_bind _ _ _ made
      obtain rfl := Except.ok.inj made
      exact congrArg (name :: ·) (ih others othersMade)

section Keywords

variable (v : Value) (keyed : v.isKeyed = true)

include keyed

theorem decode_properties_distinct (properties : List (String × Schema))
    (made : decodeProperties v = .ok properties) : (Assoc.keys properties).Nodup := by
  cases v with
  | obj fields =>
      rw [decode_entries_keys fields properties made]
      exact ((Value.keyed_obj_iff fields).mp keyed).1
  | null | bool | num | str | arr => cases made

theorem discriminator_keyed (d : Discriminator) (made : discriminatorOf v = .ok d) :
    d.Distinct := by
  refine read_keep discriminatorShape Discriminator.Distinct putDiscriminator
    { propertyName := "" } d v List.nodup_nil (fun d name child d' before member put => ?_) made
  unfold putDiscriminator at put
  split at put
  · exact put_keep Discriminator.Distinct _ _ d' put fun _ _ => before
  · refine put_keep Discriminator.Distinct _ _ d' put fun mapping mapped => ?_
    have childKeyed := v.keyed_child child keyed member
    cases child with
    | obj fields =>
        have sameKeys := (entries_keys string fields mapping mapped).1
        rw [Discriminator.Distinct, sameKeys]
        exact ((Value.keyed_obj_iff fields).mp childKeyed).1
    | null | bool | num | str | arr => cases mapped
  · obtain rfl := Except.ok.inj put
    exact before

end Keywords

theorem taken_keyed (s next : Schema) (name : String) (v : Value) (keyed : v.isKeyed = true)
    (decodes : DecodesKeyed v) (below : ∀ child ∈ v.children, DecodesKeyed child)
    (taken : Taken s name v next) (parts : KeyedParts s) : KeyedParts next where
  default w present := by
    rcases taken.default with same | read
    · exact parts.default w (same ▸ present)
    · obtain rfl := Except.ok.inj (optional_read value v _ read w present)
      exact keyed
  enumValues values present := by
    rcases taken.enumValues with same | read
    · exact parts.enumValues values (same ▸ present)
    · rwa [← list_value v values (optional_read (list value) v _ read values present)]
  constValue w present := by
    rcases taken.constValue with same | read
    · exact parts.constValue w (same ▸ present)
    · obtain rfl := Except.ok.inj (optional_read value v _ read w present)
      exact keyed
  extraOrder := by
    rcases taken.extra with same | ⟨_, put⟩
    · exact same ▸ parts.extraOrder
    · exact put ▸ Assoc.put_sorted_ascending s.extra name v parts.extraOrder
  extra field member := by
    rcases taken.extra with same | ⟨_, put⟩
    · exact parts.extra field (same ▸ member)
    · rcases Assoc.put_sorted_mem s.extra name v field (put ▸ member) with rfl | old
      · exact keyed
      · exact parts.extra field old
  mapping d present := by
    rcases taken.discriminator with same | read
    · exact parts.mapping d (same ▸ present)
    · exact discriminator_keyed v keyed d (optional_read discriminatorOf v _ read d present)
  names := by
    rcases taken.properties with same | read
    · exact same ▸ parts.names
    · exact decode_properties_distinct v keyed _ read
  children child member := by
    rcases taken.children child member with old | read | ⟨w, inside, read⟩
    · exact parts.children child old
    · exact decodes child read keyed
    · exact below w inside child read (v.keyed_child w keyed inside)

-- A keyword may look at the values in its value, so the induction carries them as well.
theorem decodes_keyed_below (v : Value) :
    DecodesKeyed v ∧ ∀ child ∈ v.children, DecodesKeyed child := by
  induction v using Value.child_induction with
  | step v ih =>
      refine ⟨fun s made keyed => ?_, fun child member => (ih child member).1⟩
      cases v with
      | obj fields =>
          refine keyed_of_parts s (fields_keep KeyedParts fields {} s parts_empty ?_ made)
          intro s next field member
          have isChild : field.2 ∈ (Value.obj fields).children := List.mem_map_of_mem member
          have below := ih field.2 isChild
          exact taken_keyed s next field.1 field.2 (Value.keyed_child _ field.2 keyed isChild)
            below.1 below.2
      | null | bool | num | str | arr => cases made

theorem decode_keyed (v : Value) (s : Schema) (keyed : v.isKeyed = true)
    (made : decode v = .ok s) : s.isKeyed = true :=
  (decodes_keyed_below v).1 s made keyed

end Schema

end OpenApi
