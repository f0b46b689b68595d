import OpenApi.Proofs.Schema.Canonical
import OpenApi.Schema.Encode

set_option autoImplicit false

namespace OpenApi

def Keyword.all : List Keyword := [
  .reference, .type, .format, .contentEncoding, .contentMediaType, .nullable, .title, .description,
  .deprecated, .readOnly, .writeOnly, .default, .enumValues, .constValue, .properties, .required,
  .additionalProperties, .minProperties, .maxProperties, .items, .prefixItems, .minItems,
  .maxItems, .uniqueItems, .minLength, .maxLength, .pattern, .minimum, .maximum, .exclusiveMinimum,
  .exclusiveMaximum, .multipleOf, .allOf, .oneOf, .anyOf, .not, .discriminator]

namespace Schema

open Decode Encode

def written (s : Schema) (k : Keyword) : Fields :=
  match k with
  | .reference => present k.name .str s.reference
  | .type => present k.name typeSetValue s.type
  | .format => present k.name .str s.format
  | .contentEncoding => present k.name .str s.contentEncoding
  | .contentMediaType => present k.name .str s.contentMediaType
  | .nullable => present k.name .bool s.nullable
  | .title => present k.name .str s.title
  | .description => present k.name .str s.description
  | .deprecated => present k.name .bool s.deprecated
  | .readOnly => present k.name .bool s.readOnly
  | .writeOnly => present k.name .bool s.writeOnly
  | .default => present k.name id s.default
  | .enumValues => present k.name .arr s.enumValues
  | .constValue => present k.name id s.constValue
  | .properties => encodeProperties s.properties
  | .required => nonempty k.name strings s.required
  | .additionalProperties => encodeOrBool k s.additionalProperties
  | .minProperties => present k.name natural s.minProperties
  | .maxProperties => present k.name natural s.maxProperties
  | .items => encodeOrBool k s.items
  | .prefixItems => encodeList k s.prefixItems
  | .minItems => present k.name natural s.minItems
  | .maxItems => present k.name natural s.maxItems
  | .uniqueItems => present k.name .bool s.uniqueItems
  | .minLength => present k.name natural s.minLength
  | .maxLength => present k.name natural s.maxLength
  | .pattern => present k.name .str s.pattern
  | .minimum => present k.name .num s.minimum
  | .maximum => present k.name .num s.maximum
  | .exclusiveMinimum => present k.name exclusiveValue s.exclusiveMinimum
  | .exclusiveMaximum => present k.name exclusiveValue s.exclusiveMaximum
  | .multipleOf => present k.name .num s.multipleOf
  | .allOf => encodeList k s.allOf
  | .oneOf => encodeList k s.oneOf
  | .anyOf => encodeList k s.anyOf
  | .not => encodeNegated s.not
  | .discriminator => present k.name discriminatorValue s.discriminator

theorem encode_eq (s : Schema) : encode s = .obj (Keyword.all.flatMap s.written ++ s.extra) := by
  cases s
  rw [encode]
  simp only [Keyword.all, List.flatMap_cons, List.flatMap_nil, List.append_nil, List.append_assoc,
    written]

def blend (chosen : Keyword → Bool) (s acc : Schema) : Schema where
  reference := if chosen .reference then s.reference else acc.reference
  type := if chosen .type then s.type else acc.type
  format := if chosen .format then s.format else acc.format
  contentEncoding := if chosen .contentEncoding then s.contentEncoding else acc.contentEncoding
  contentMediaType := if chosen .contentMediaType then s.contentMediaType else acc.contentMediaType
  nullable := if chosen .nullable then s.nullable else acc.nullable
  title := if chosen .title then s.title else acc.title
  description := if chosen .description then s.description else acc.description
  deprecated := if chosen .deprecated then s.deprecated else acc.deprecated
  readOnly := if chosen .readOnly then s.readOnly else acc.readOnly
  writeOnly := if chosen .writeOnly then s.writeOnly else acc.writeOnly
  default := if chosen .default then s.default else acc.default
  enumValues := if chosen .enumValues then s.enumValues else acc.enumValues
  constValue := if chosen .constValue then s.constValue else acc.constValue
  properties := if chosen .properties then s.properties else acc.properties
  required := if chosen .required then s.required else acc.required
  additionalProperties :=
    if chosen .additionalProperties then s.additionalProperties else acc.additionalProperties
  minProperties := if chosen .minProperties then s.minProperties else acc.minProperties
  maxProperties := if chosen .maxProperties then s.maxProperties else acc.maxProperties
  items := if chosen .items then s.items else acc.items
  prefixItems := if chosen .prefixItems then s.prefixItems else acc.prefixItems
  minItems := if chosen .minItems then s.minItems else acc.minItems
  maxItems := if chosen .maxItems then s.maxItems else acc.maxItems
  uniqueItems := if chosen .uniqueItems then s.uniqueItems else acc.uniqueItems
  minLength := if chosen .minLength then s.minLength else acc.minLength
  maxLength := if chosen .maxLength then s.maxLength else acc.maxLength
  pattern := if chosen .pattern then s.pattern else acc.pattern
  minimum := if chosen .minimum then s.minimum else acc.minimum
  maximum := if chosen .maximum then s.maximum else acc.maximum
  exclusiveMinimum := if chosen .exclusiveMinimum then s.exclusiveMinimum else acc.exclusiveMinimum
  exclusiveMaximum := if chosen .exclusiveMaximum then s.exclusiveMaximum else acc.exclusiveMaximum
  multipleOf := if chosen .multipleOf then s.multipleOf else acc.multipleOf
  allOf := if chosen .allOf then s.allOf else acc.allOf
  oneOf := if chosen .oneOf then s.oneOf else acc.oneOf
  anyOf := if chosen .anyOf then s.anyOf else acc.anyOf
  not := if chosen .not then s.not else acc.not
  discriminator := if chosen .discriminator then s.discriminator else acc.discriminator
  extra := acc.extra

theorem blend_slot (k : Keyword) (s acc : Schema) :
    blend (· == k) s acc = (slot k).put acc ((slot k).get s) := by
  cases k <;> rfl

theorem blend_blend (chosen : Keyword → Bool) (k : Keyword) (s : Schema) :
    blend (· == k) s (blend chosen s {}) = blend (fun k' => k' == k || chosen k') s {} := by
  have merge {α : Type} (k' : Keyword) (a b : α) :
      (if (k' == k) = true then a else if chosen k' = true then a else b)
        = if (k' == k || chosen k') = true then a else b := by
    by_cases here : (k' == k) = true
    · simp [here]
    · simp [here]
  simp only [blend, merge]

theorem blend_untouched (chosen : Keyword → Bool) (k : Keyword) (s : Schema)
    (unseen : chosen k = false) : blend (· == k) {} (blend chosen s {}) = blend chosen s {} := by
  have skip {α : Type} (k' : Keyword) (a b : α) :
      (if (k' == k) = true then b else if chosen k' = true then a else b)
        = if chosen k' = true then a else b := by
    by_cases here : k' = k
    · simp [here, unseen]
    · simp [here]
  simp only [blend, skip]

-- The slot of the keyword is empty and nothing is written, or its content is written as a value that
-- is read as the same content.
def WrittenAs (s : Schema) (k : Keyword) : Prop :=
  (s.written k = [] ∧ (slot k).get s = (slot k).get {})
    ∨ ∃ v, s.written k = [(k.name, v)] ∧ (slot k).read v = .ok ((slot k).get s)

theorem keyword_back (s acc : Schema) (k : Keyword) (rest : Fields) (isWritten : s.WrittenAs k)
    (untouched : blend (· == k) {} acc = acc) :
    decodeFields acc (s.written k ++ rest) = decodeFields (blend (· == k) s acc) rest := by
  rcases isWritten with ⟨nothing, isEmpty⟩ | ⟨v, isWritten, isRead⟩
  · rw [nothing, List.nil_append, blend_slot, isEmpty, ← blend_slot, untouched]
  · rw [isWritten, List.singleton_append, decode_keyword_eq acc k _ v rest k.parse?_name, isRead,
      blend_slot]
    rfl

theorem keywords_back (s : Schema) (each : ∀ k, s.WrittenAs k) (keywords : List Keyword)
    (chosen : Keyword → Bool) (distinct : keywords.Nodup) (fresh : ∀ k ∈ keywords, chosen k = false)
    (rest : Fields) : decodeFields (blend chosen s {}) (keywords.flatMap s.written ++ rest)
      = decodeFields (blend (fun k => keywords.contains k || chosen k) s {}) rest := by
  induction keywords generalizing chosen with
  | nil => rfl
  | cons k keywords ih =>
      obtain ⟨absent, restDistinct⟩ := List.nodup_cons.mp distinct
      rw [List.forall_mem_cons] at fresh
      have untouched := blend_untouched chosen k s fresh.1
      rw [List.flatMap_cons, List.append_assoc, keyword_back s _ k _ (each k) untouched, blend_blend,
        ih _ restDistinct]
      · congr 2
        funext k'
        rw [List.contains_cons]
        cases keywords.contains k' <;> cases k' == k <;> rfl
      · intro k' later
        have different : k' ≠ k := fun same => absent (same ▸ later)
        rw [beq_eq_false_iff_ne.mpr different, fresh.2 k' later]
        rfl

theorem put_sorted_last {α : Type} (entries : List (String × α)) (name : String) (a : α)
    (below : ∀ entry ∈ entries, entry.1 < name) :
    Assoc.putSorted entries name a = entries ++ [(name, a)] := by
  induction entries with
  | nil => rfl
  | cons first rest ih =>
      rw [List.forall_mem_cons] at below
      have different : name ≠ first.1 := (ne_of_lt below.1).symm
      rw [Assoc.putSorted, beq_eq_false_iff_ne.mpr different, if_neg (by simp),
        if_neg (lt_asymm below.1), ih below.2]
      rfl

theorem extra_back (s : Schema) (before rest : Fields) (order : Assoc.Ascending (before ++ rest))
    (names : ∀ field ∈ rest, Keyword.parse? field.1 = none) :
    decodeFields { s with extra := before } rest = .ok { s with extra := before ++ rest } := by
  induction rest generalizing before with
  | nil => rw [decodeFields, List.append_nil]
  | cons field rest ih =>
      rcases field with ⟨name, v⟩
      rw [List.forall_mem_cons] at names
      have below : ∀ entry ∈ before, entry.1 < name := by
        rw [Assoc.Ascending, Assoc.keys, List.map_append, List.pairwise_append] at order
        intro entry member
        exact order.2.2 entry.1 (List.mem_map_of_mem member) name List.mem_cons_self
      rw [decodeFields, names.1]
      change decodeFields { s with extra := Assoc.putSorted before name v } rest = _
      rw [put_sorted_last before name v below, ih _ (by simpa using order) names.2]
      simp

section Values

theorem natural_back (n : Nat) : optional Decode.natural (Encode.natural n) = .ok (some n) := by
  change (Decode.natural (Encode.natural n)).map some = _
  rw [Encode.natural, Decode.natural, if_pos (Int.natCast_nonneg n), Int.toNat_natCast]
  rfl

theorem strings_back (texts : List String) : list string (strings texts) = .ok texts := by
  rw [strings, Decode.list]
  induction texts with
  | nil => rfl
  | cons text rest ih =>
      rw [List.map_cons, List.mapM_cons, ih]
      rfl

theorem type_set_back (t : TypeSet) : optional typeSet (typeSetValue t) = .ok (some t) := by
  cases t with
  | single name => rfl
  | multiple names =>
      have read : (names.map Value.str).mapM string = .ok names := strings_back names
      change (typeSet (.arr (names.map .str))).map some = _
      rw [typeSet, read]
      rfl

theorem bound_back (b : ExclusiveBound) :
    optional exclusiveBound (exclusiveValue b) = .ok (some b) := by
  cases b <;> rfl

theorem values_back (values : List Value) :
    optional (list value) (.arr values) = .ok (some values) := by
  have read : values.mapM value = .ok (values.map id) := List.mapM_pure
  change (values.mapM value).map some = _
  rw [read, List.map_id]
  rfl

theorem mapping_back (mapping : List (String × String)) :
    Decode.map string (Encode.map .str mapping) = .ok mapping := by
  rw [Encode.map, Decode.map]
  induction mapping with
  | nil => rfl
  | cons entry rest ih =>
      rw [List.map_cons, entries, ih]
      rfl

theorem discriminator_back (d : Discriminator) :
    optional discriminatorOf (discriminatorValue d) = .ok (some d) := by
  have read : discriminatorOf (discriminatorValue d) = .ok d := by
    simp only [discriminatorOf, discriminatorValue, Shape.read, Shape.ofFields, fields,
      putDiscriminator, mapping_back]
    rfl
  change (discriminatorOf (discriminatorValue d)).map some = _
  rw [read]
  rfl

theorem kept_back (v : Value) (present : v ≠ .null) : optional value (id v) = .ok (some v) := by
  cases v with
  | null => exact absurd rfl present
  | bool | num | str | arr | obj => rfl

end Values

section Writing

theorem present_written {α : Type} (name : String) (read : Value → Result α) (write : α → Value)
    (field : Option α) (reads : ∀ a ∈ field, optional read (write a) = .ok (some a)) :
    (present name write field = [] ∧ field = none)
      ∨ ∃ v, present name write field = [(name, v)] ∧ optional read v = .ok field := by
  cases field with
  | none => exact .inl ⟨rfl, rfl⟩
  | some a => exact .inr ⟨write a, rfl, reads a rfl⟩

theorem texts_written (name : String) (texts : List String) :
    (nonempty name strings texts = [] ∧ texts = [])
      ∨ ∃ v, nonempty name strings texts = [(name, v)] ∧ list string v = .ok texts := by
  cases texts with
  | nil => exact .inl ⟨rfl, rfl⟩
  | cons text rest => exact .inr ⟨_, rfl, strings_back (text :: rest)⟩

theorem entries_back (properties : List (String × Schema))
    (each : ∀ s ∈ properties.map (·.2), decode (encode s) = .ok s) :
    decodeEntries (encodeEntries properties) = .ok properties := by
  induction properties with
  | nil => rfl
  | cons property rest ih =>
      rw [List.map_cons, List.forall_mem_cons] at each
      rw [encodeEntries, decodeEntries, each.1, ih each.2]
      rfl

theorem properties_written (properties : List (String × Schema))
    (each : ∀ s ∈ properties.map (·.2), decode (encode s) = .ok s) :
    (encodeProperties properties = [] ∧ properties = [])
      ∨ ∃ v, encodeProperties properties = [(Keyword.properties.name, v)]
        ∧ decodeProperties v = .ok properties := by
  cases properties with
  | nil => exact .inl ⟨rfl, rfl⟩
  | cons property rest => exact .inr ⟨_, rfl, entries_back (property :: rest) each⟩

theorem items_back (schemas : List Schema) (each : ∀ s ∈ schemas, decode (encode s) = .ok s) :
    decodeItems (encodeItems schemas) = .ok schemas := by
  induction schemas with
  | nil => rfl
  | cons s rest ih =>
      rw [List.forall_mem_cons] at each
      rw [encodeItems, decodeItems, each.1, ih each.2]
      rfl

theorem list_written (k : Keyword) (schemas : List Schema)
    (each : ∀ s ∈ schemas, decode (encode s) = .ok s) :
    (encodeList k schemas = [] ∧ schemas = [])
      ∨ ∃ v, encodeList k schemas = [(k.name, v)] ∧ decodeList v = .ok schemas := by
  cases schemas with
  | nil => exact .inl ⟨rfl, rfl⟩
  | cons s rest => exact .inr ⟨_, rfl, items_back (s :: rest) each⟩

theorem or_bool_written (k : Keyword) (keyword : Option (OrBool Schema))
    (each : ∀ s ∈ OrBool.schemas keyword, decode (encode s) = .ok s) :
    (encodeOrBool k keyword = [] ∧ keyword = none)
      ∨ ∃ v, encodeOrBool k keyword = [(k.name, v)] ∧ decodeOrBool v = .ok keyword := by
  match keyword with
  | none => exact .inl ⟨rfl, rfl⟩
  | some (.bool b) => exact .inr ⟨_, rfl, rfl⟩
  | some (.schema s) =>
      have back := each s (List.mem_singleton_self s)
      refine .inr ⟨_, rfl, ?_⟩
      rw [encode_eq] at back ⊢
      rw [decode] at back
      rw [decodeOrBool, back]
      rfl

theorem negated_written (keyword : Option Schema)
    (each : ∀ s ∈ keyword.toList, decode (encode s) = .ok s) :
    (encodeNegated keyword = [] ∧ keyword = none)
      ∨ ∃ v, encodeNegated keyword = [(Keyword.not.name, v)] ∧ decodeNegated v = .ok keyword := by
  cases keyword with
  | none => exact .inl ⟨rfl, rfl⟩
  | some s =>
      have back := each s (List.mem_singleton_self s)
      refine .inr ⟨_, rfl, ?_⟩
      rw [encode_eq] at back ⊢
      rw [decode] at back
      rw [decodeNegated, back]
      rfl

theorem written_as (s : Schema) (k : Keyword) (tidy : s.Tidy)
    (each : ∀ child ∈ s.children, decode (encode child) = .ok child) : s.WrittenAs k := by
  have within : ∀ schemas ⊆ s.children, ∀ child ∈ schemas, decode (encode child) = .ok child :=
    fun schemas inside child member => each child (inside member)
  cases k
  case reference | format | contentEncoding | contentMediaType | title | description | pattern =>
    exact present_written _ string .str _ fun _ _ => rfl
  case nullable | deprecated | readOnly | writeOnly | uniqueItems =>
    exact present_written _ boolean .bool _ fun _ _ => rfl
  case minProperties | maxProperties | minItems | maxItems | minLength | maxLength =>
    exact present_written _ Decode.natural Encode.natural _ fun n _ => natural_back n
  case minimum | maximum | multipleOf =>
    exact present_written _ number .num _ fun _ _ => rfl
  case exclusiveMinimum | exclusiveMaximum =>
    exact present_written _ exclusiveBound exclusiveValue _ fun b _ => bound_back b
  case type => exact present_written _ typeSet typeSetValue _ fun t _ => type_set_back t
  case enumValues => exact present_written _ (list value) .arr _ fun values _ => values_back values
  case discriminator =>
    exact present_written _ discriminatorOf discriminatorValue _ fun d _ => discriminator_back d
  case default =>
    refine present_written _ value id _ fun v present => kept_back v ?_
    rintro rfl
    exact tidy.default present
  case constValue =>
    refine present_written _ value id _ fun v present => kept_back v ?_
    rintro rfl
    exact tidy.constValue present
  case required => exact texts_written _ s.required
  case properties =>
    exact properties_written s.properties (within _ (by simp [children]))
  case additionalProperties =>
    exact or_bool_written _ s.additionalProperties (within _ fun child => s.child_of_additional child)
  case items => exact or_bool_written _ s.items (within _ fun child => s.child_of_items child)
  case prefixItems => exact list_written _ s.prefixItems (within _ s.child_of_tuple)
  case allOf => exact list_written _ s.allOf (within _ s.child_of_all)
  case oneOf => exact list_written _ s.oneOf (within _ s.child_of_one)
  case anyOf => exact list_written _ s.anyOf (within _ s.child_of_any)
  case not => exact negated_written s.not (within _ fun child => s.child_of_not child)

end Writing

theorem canonical_back (s : Schema) (canonical : s.Canonical) : decode (encode s) = .ok s := by
  induction canonical with
  | of_tidy s tidy _ each =>
      have nothing : blend (fun _ => false) s {} = {} := rfl
      have everything : blend (fun k => Keyword.all.contains k || false) s {}
          = { s with extra := [] } := rfl
      rw [encode_eq, decode, ← nothing,
        keywords_back s (fun k => written_as s k tidy each) Keyword.all (fun _ => false) (by decide)
          (fun _ _ => rfl), everything]
      cases s
      exact extra_back _ [] _ tidy.extraOrder tidy.extraNames

/-- A schema that is read from a value is written as a value from which the same schema is read. -/
theorem schema_round_trip (v : Value) (s : Schema) (made : decode v = .ok s) :
    decode (encode s) = .ok s :=
  canonical_back s (decode_canonical v s made)

def manyForms : Value := .obj [
  ("x-note", .null),
  ("type", .arr [.str "object", .str "null"]),
  ("default", .null),
  ("exclusiveMinimum", .bool true),
  ("exclusiveMaximum", .num (.int (-3))),
  ("discriminator", .arr [.str "kind", .obj [("a", .str "A")]]),
  ("additionalProperties", .obj [("type", .str "string"), ("Unknown", .arr [.null])]),
  ("items", .bool false),
  ("properties", .obj [("tail", .obj [("items", .obj [("not", .obj [("x-b", .num (.int 1))])])])])]

theorem many_forms_back : ∃ s, decode manyForms = .ok s
    ∧ s.type = some (.multiple ["object", "null"])
    ∧ s.extra = [("x-note", .null)]
    ∧ s.exclusiveMinimum = some (.flag true)
    ∧ s.discriminator = some ⟨"kind", [("a", "A")]⟩
    ∧ decode (encode s) = .ok s :=
  ⟨_, rfl, rfl, rfl, rfl, rfl, schema_round_trip manyForms _ rfl⟩

end Schema

end OpenApi
