import OpenApi.Document.Parse
import OpenApi.Proofs.Schema.Decode
import OpenApi.Proofs.Schema.Keyed

set_option autoImplicit false

namespace OpenApi

namespace Yaml

-- A scalar is no object, whatever its tag makes of it.
theorem double_keyed (text : String) (v : Value) (read : double? text = some v) :
    v.isKeyed = true := by
  rw [double?] at read
  split at read
  · obtain rfl := Option.some.inj read
    rfl
  · obtain ⟨x, _, rfl⟩ := Option.map_eq_some_iff.mp read
    rfl

theorem integer_keyed (text : String) (v : Value) (read : integerValue? text = some (.value v)) :
    v.isKeyed = true := by
  rw [integerValue?] at read
  obtain ⟨n, _, read⟩ := Option.bind_eq_some_iff.mp read
  split at read
  · obtain rfl := Denoted.value.inj (Option.some.inj read)
    rfl
  · split at read
    · cases read
    · cases read

theorem plain_keyed (text : String) (v : Value) (read : plainValue text = .value v) :
    v.isKeyed = true := by
  rw [plainValue] at read
  split at read
  · obtain rfl := Denoted.value.inj read
    rfl
  · split at read
    · obtain rfl := Denoted.value.inj read
      rfl
    · split at read
      · rename_i d isInteger
        rw [read] at isInteger
        exact integer_keyed text v isInteger
      · split at read
        · obtain rfl := Denoted.value.inj read
          rfl
        · obtain rfl := Denoted.value.inj read
          cases isDouble : double? text with
          | none => rfl
          | some x => exact double_keyed text x isDouble

theorem tagged_keyed (tag text : String) (v : Value)
    (read : taggedValue? tag text = some (.value v)) : v.isKeyed = true := by
  unfold taggedValue? at read
  split at read
  · cases isFlag : boolWord? text with
    | none => simp [isFlag] at read
    | some b =>
        obtain rfl : Value.bool b = v := by simpa [isFlag] using read
        rfl
  · cases isInteger : integerValue? text with
    | none => simp [isInteger] at read
    | some d =>
        obtain rfl : d = .value v := by simpa [isInteger] using read
        exact integer_keyed text v isInteger
  · cases isDouble : double? text with
    | none => simp [isDouble] at read
    | some x =>
        obtain rfl : x = v := by simpa [isDouble] using read
        exact double_keyed text x isDouble
  · split at read
    · obtain rfl := Denoted.value.inj (Option.some.inj read)
      rfl
    · cases read
  · cases read

theorem scalar_keyed (s : Scalar) (v : Value) (read : s.denoted = .value v) : v.isKeyed = true := by
  rw [Scalar.denoted] at read
  split at read
  · split at read
    · exact plain_keyed s.text v read
    · obtain rfl := Denoted.value.inj read
      rfl
  · split at read
    · cases read
    · rename_i tag _ _
      cases tagged : taggedValue? tag s.text with
      | none =>
          rw [tagged] at read
          obtain rfl := Denoted.value.inj read
          rfl
      | some d =>
          rw [tagged] at read
          obtain rfl : d = .value v := read
          exact tagged_keyed tag s.text v tagged

namespace Graph

variable {α β : Type}

theorem read_items_origin (read : Nat → α → Option (β × Nat)) (items : List α) (jumps : Nat)
    (results : List β) (jumps' : Nat)
    (made : readItems read jumps items = some (results, jumps')) :
    ∀ b ∈ results, ∃ a ∈ items, ∃ before after, read before a = some (b, after) := by
  induction items generalizing jumps results jumps' with
  | nil =>
      obtain ⟨rfl, _⟩ := Prod.mk.inj (Option.some.inj made)
      exact List.forall_mem_nil _
  | cons a rest ih =>
      obtain ⟨⟨b, between⟩, first, made⟩ := Option.bind_eq_some_iff.mp made
      obtain ⟨⟨others, last⟩, restMade, made⟩ := Option.bind_eq_some_iff.mp made
      obtain ⟨rfl, _⟩ := Prod.mk.inj (Option.some.inj made)
      refine List.forall_mem_cons.mpr ⟨⟨a, List.mem_cons_self, jumps, between, first⟩, ?_⟩
      intro b' later
      obtain ⟨a', inRest, found⟩ := ih between others last restMade b' later
      exact ⟨a', List.mem_cons_of_mem a inRest, found⟩

theorem value_keyed_step (g : Graph) (depth : Nat)
    (below : ∀ d, depth = d + 1 → ∀ jumps n v jumps', g.valueOf? d jumps n = some (v, jumps') →
      v.isKeyed = true) (jumps : Nat) (n : Node) (v : Value) (jumps' : Nat)
    (made : g.valueOf? depth jumps n = some (v, jumps')) : v.isKeyed = true := by
  unfold valueOf? at made
  obtain ⟨⟨n', followed⟩, _, made⟩ := Option.bind_eq_some_iff.mp made
  split at made
  · rename_i s _ _
    split at made
    · rename_i w denoted
      obtain ⟨rfl, _⟩ := Prod.mk.inj (Option.some.inj made)
      exact scalar_keyed s w denoted
    · cases made
  · split at made
    · cases made
    · split at made
      · cases made
      · rename_i d _
        obtain ⟨⟨values, last⟩, read, made⟩ := Option.bind_eq_some_iff.mp made
        obtain ⟨rfl, _⟩ := Prod.mk.inj (Option.some.inj made)
        rw [Value.keyed_arr_iff]
        intro w member
        obtain ⟨item, _, before, after, found⟩ :=
          read_items_origin _ _ _ values last read w member
        exact below d rfl before item w after found
  · split at made
    · cases made
    · split at made
      · cases made
      · rename_i d _
        obtain ⟨⟨fields, last⟩, read, made⟩ := Option.bind_eq_some_iff.mp made
        obtain ⟨rfl, _⟩ := Prod.mk.inj (Option.some.inj made)
        rw [Value.keyed_obj_iff]
        refine ⟨Assoc.of_list_distinct fields, fun field member => ?_⟩
        obtain ⟨entry, _, before, after, found⟩ := read_items_origin _ _ _ fields last read field
          (Assoc.of_list_mem fields field member)
        obtain ⟨⟨name, between⟩, _, found⟩ := Option.bind_eq_some_iff.mp found
        obtain ⟨⟨w, last⟩, isValue, found⟩ := Option.bind_eq_some_iff.mp found
        obtain ⟨rfl, _⟩ := Prod.mk.inj (Option.some.inj found)
        exact below d rfl between entry.2 w last isValue
  · cases made

theorem value_keyed (g : Graph) (depth jumps : Nat) (n : Node) (v : Value) (jumps' : Nat)
    (made : g.valueOf? depth jumps n = some (v, jumps')) : v.isKeyed = true := by
  induction depth generalizing jumps n v jumps' with
  | zero =>
      exact value_keyed_step g 0 (fun d deeper => by cases deeper) jumps n v jumps' made
  | succ depth ih =>
      refine value_keyed_step g (depth + 1) (fun d deeper => ?_) jumps n v jumps' made
      obtain rfl := Nat.succ.inj deeper
      exact ih

end Graph

theorem text_keyed (text : String) (v : Value) (read : value? text = some v) :
    v.isKeyed = true := by
  obtain ⟨g, _, read⟩ := Option.bind_eq_some_iff.mp read
  obtain ⟨⟨w, jumps⟩, found, read⟩ := Option.bind_eq_some_iff.mp read
  obtain rfl := Option.some.inj read
  exact g.value_keyed maxDepth 0 g.root w jumps found

end Yaml

namespace Normalize

theorem flag_keyed (b : Bool) : (ofBool b).isKeyed = true := by cases b <;> rfl

theorem fields_keys (map : Bool) (members : List (String × Value)) :
    Assoc.keys (fields map members) = Assoc.keys members := by
  induction members with
  | nil => rfl
  | cons member rest ih =>
      rw [fields]
      exact congrArg (member.1 :: ·) ih

theorem fields_origin (map : Bool) (members : List (String × Value)) (field : String × Value)
    (member : field ∈ fields map members) :
    ∃ old ∈ members, ∃ position, field.2 = value position old.2 := by
  induction members with
  | nil => cases member
  | cons first rest ih =>
      rw [fields] at member
      rcases List.mem_cons.mp member with rfl | later
      · exact ⟨first, List.mem_cons_self, _, rfl⟩
      · obtain ⟨old, inRest, changed⟩ := ih later
        exact ⟨old, List.mem_cons_of_mem first inRest, changed⟩

theorem list_origin (position : Position) (items : List Value) (v : Value)
    (member : v ∈ list position items) : ∃ old ∈ items, v = value position old := by
  induction items with
  | nil => cases member
  | cons first rest ih =>
      rw [list] at member
      rcases List.mem_cons.mp member with rfl | later
      · exact ⟨first, List.mem_cons_self, rfl⟩
      · obtain ⟨old, inRest, changed⟩ := ih later
        exact ⟨old, List.mem_cons_of_mem first inRest, changed⟩

theorem value_keyed (v : Value) (keyed : v.isKeyed = true) (position : Position) :
    (value position v).isKeyed = true := by
  induction v using Value.child_induction generalizing position with
  | step v ih =>
      have child := fun child member => ih child member (v.keyed_child child keyed member)
      cases v with
      | bool b =>
          cases position with
          | schema => exact flag_keyed b
          | schemaList | schemaMap | other => rfl
      | arr items =>
          rw [value, Value.keyed_arr_iff]
          intro w member
          obtain ⟨old, inItems, rfl⟩ := list_origin _ items w member
          exact child old inItems _
      | obj members =>
          rw [value, Value.keyed_obj_iff, fields_keys]
          refine ⟨((Value.keyed_obj_iff members).mp keyed).1, fun field member => ?_⟩
          obtain ⟨old, inMembers, position, changed⟩ := fields_origin _ members field member
          rw [changed]
          exact child old.2 (List.mem_map_of_mem inMembers) position
      | null | num | str => exact keyed

theorem mapped_keyed (members : List (String × Value)) (change : String × Value → String × Value)
    (sameName : ∀ field, (change field).1 = field.1)
    (keeps : ∀ field, field.2.isKeyed = true → (change field).2.isKeyed = true)
    (keyed : (Value.obj members).isKeyed = true) :
    (Value.obj (members.map change)).isKeyed = true := by
  rw [Value.keyed_obj_iff] at keyed ⊢
  have sameNames : Assoc.keys (members.map change) = Assoc.keys members := by
    simp [Assoc.keys, sameName]
  refine ⟨sameNames ▸ keyed.1, fun field member => ?_⟩
  obtain ⟨old, inMembers, rfl⟩ := List.mem_map.mp member
  exact keeps old (keyed.2 old inMembers)

theorem on_field_keyed (name : String) (change : Value → Value)
    (keeps : ∀ v, v.isKeyed = true → (change v).isKeyed = true) (v : Value)
    (keyed : v.isKeyed = true) : (onField name change v).isKeyed = true := by
  cases v with
  | obj members =>
      apply mapped_keyed members _ _ _ keyed
      · intro field
        dsimp only
        split <;> rfl
      · intro field fieldKeyed
        dsimp only
        split
        · exact keeps field.2 fieldKeyed
        · exact fieldKeyed
  | null | bool | num | str | arr => exact keyed

theorem flag_fields_keyed (v : Value) (keyed : v.isKeyed = true) :
    (flagFields v).isKeyed = true := by
  cases v with
  | obj members =>
      apply mapped_keyed members _ _ _ keyed
      · intro field
        dsimp only
        split <;> rfl
      · intro field fieldKeyed
        dsimp only
        split
        · exact flag_keyed _
        · exact fieldKeyed
  | null | bool | num | str | arr => exact keyed

theorem document_keyed (v : Value) (keyed : v.isKeyed = true) : (document v).isKeyed = true := by
  rw [document]
  apply value_keyed
  apply on_field_keyed _ _ _ v keyed
  exact on_field_keyed _ _ flag_fields_keyed

end Normalize

-- Only the schemas among the parts of a document are looked at.
def Components.SchemasKeyed (c : Components) : Prop :=
  (Assoc.keys c.schemas).Nodup ∧ ∀ entry ∈ c.schemas, entry.2.isKeyed = true

open Decode

theorem map_schemas_keyed (v : Value) (keyed : v.isKeyed = true) (schemas : List (String × Schema))
    (made : map Schema.decode v = .ok schemas) :
    (Assoc.keys schemas).Nodup ∧ ∀ entry ∈ schemas, entry.2.isKeyed = true := by
  cases v with
  | obj fields =>
      obtain ⟨distinct, fieldsKeyed⟩ := (Value.keyed_obj_iff fields).mp keyed
      obtain ⟨sameKeys, origin⟩ := entries_keys Schema.decode fields schemas made
      refine ⟨sameKeys ▸ distinct, fun entry member => ?_⟩
      obtain ⟨field, inFields, decoded⟩ := origin entry member
      exact Schema.decode_keyed field.2 entry.2 (fieldsKeyed field inFields) decoded
  | null | bool | num | str | arr => cases made

theorem Components.decode_keyed (v : Value) (c : Components) (keyed : v.isKeyed = true)
    (made : Components.decode v = .ok c) : c.SchemasKeyed := by
  refine read_keep shape SchemasKeyed Components.take {} c v ⟨List.nodup_nil, List.forall_mem_nil _⟩
    (fun c name child c' before member taken => ?_) made
  unfold Components.take at taken
  split at taken
  · refine put_keep SchemasKeyed _ _ c' taken fun schemas decoded => ?_
    exact map_schemas_keyed child (v.keyed_child child keyed member) schemas decoded
  · exact put_keep SchemasKeyed _ _ c' taken fun _ _ => before
  · exact put_keep SchemasKeyed _ _ c' taken fun _ _ => before
  · exact put_keep SchemasKeyed _ _ c' taken fun _ _ => before
  · exact put_keep SchemasKeyed _ _ c' taken fun _ _ => before
  · exact put_keep SchemasKeyed _ _ c' taken fun _ _ => before
  · obtain rfl := Except.ok.inj taken
    exact before

def Contents.SchemasKeyed (c : Contents) : Prop := c.components.SchemasKeyed

theorem Contents.decode_keyed (v : Value) (c : Contents) (keyed : v.isKeyed = true)
    (made : Contents.decode v = .ok c) : c.SchemasKeyed := by
  refine read_object_keep shape SchemasKeyed Contents.take {} c v
    ⟨List.nodup_nil, List.forall_mem_nil _⟩ (fun c name child c' before member taken => ?_) made
  unfold Contents.take at taken
  split at taken
  · exact put_keep SchemasKeyed _ _ c' taken fun _ _ => before
  · exact put_keep SchemasKeyed _ _ c' taken fun _ _ => before
  · exact put_keep SchemasKeyed _ _ c' taken fun _ _ => before
  · exact put_keep SchemasKeyed _ _ c' taken fun _ _ => before
  · exact put_keep SchemasKeyed _ _ c' taken fun _ _ => before
  · refine put_keep SchemasKeyed _ _ c' taken fun components decoded => ?_
    exact Components.decode_keyed child components (v.keyed_child child keyed member) decoded
  · exact put_keep SchemasKeyed _ _ c' taken fun _ _ => before
  · obtain rfl := Except.ok.inj taken
    exact before

theorem Document.of_value_contents (v : Value) (d : Document) (read : Document.ofValue v = .ok d) :
    Contents.decode (Normalize.document v) = .ok d.contents := by
  rw [Document.ofValue] at read
  split at read
  · cases read
  · split at read
    · cases read
    · rename_i contents decoded
      cases read
      exact decoded

/-- Every document that is read is keyed. -/
theorem Document.parse_keyed (text : String) (d : Document) (read : Document.parse text = .ok d) :
    d.isKeyed = true := by
  rw [Document.parse] at read
  split at read
  · cases read
  · rename_i v isValue
    have normalized := Normalize.document_keyed v (Yaml.text_keyed text v isValue)
    have decoded := Document.of_value_contents v d read
    exact (Document.keyed_iff d).mpr (Contents.decode_keyed _ d.contents normalized decoded)

end OpenApi
