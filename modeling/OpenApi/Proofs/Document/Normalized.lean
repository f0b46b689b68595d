import OpenApi.Proofs.Document.Reading

set_option autoImplicit false

namespace OpenApi.Normalize

open Decode
open Value (Step)

section Again

theorem list_eq (position : Position) (items : List Value) :
    list position items = items.map (value position) := by
  induction items with
  | nil => rfl
  | cons v rest ih => rw [list, ih, List.map_cons]

def fieldPosition (map : Bool) (name : String) (v : Value) : Position :=
  if map && v.asBool?.isSome then .schema else .ofName name

theorem fields_eq (map : Bool) (members : List (String × Value)) : fields map members
    = members.map fun field => (field.1, value (fieldPosition map field.1 field.2) field.2) := by
  induction members with
  | nil => rfl
  | cons field rest ih =>
      rw [fields, ih, List.map_cons]
      rfl

theorem value_no_flag (p : Position) (v : Value) (noFlag : v.asBool? = none) :
    (value p v).asBool? = none := by
  cases v with
  | bool b => cases noFlag
  | null | num | str | arr | obj => rfl

theorem flag_no_flag (b : Bool) : (ofBool b).asBool? = none := by cases b <;> rfl

theorem field_again (map : Bool) (name : String) (v : Value)
    (again : ∀ p, value p (value p v) = value p v) :
    let w := value (fieldPosition map name v) v
    value (fieldPosition map name w) w = w := by
  intro w
  cases isFlag : v.asBool? with
  | none =>
      have noFlag : w.asBool? = none := value_no_flag (fieldPosition map name v) v isFlag
      have same : fieldPosition map name w = fieldPosition map name v := by
        rw [fieldPosition, fieldPosition, noFlag, isFlag]
      rw [same]
      exact again _
  | some b =>
      have flag : v = .bool b := by
        cases v <;> first | (cases isFlag; rfl) | cases isFlag
      subst flag
      by_cases replaced : fieldPosition map name (.bool b) = .schema
      · have isSchema : w = ofBool b := by rw [show w = _ from value_flag _ b, if_pos replaced]
        rw [isSchema, value_of_flag]
      · have kept : w = .bool b := by rw [show w = _ from value_flag _ b, if_neg replaced]
        rw [kept, value_flag, if_neg replaced]

theorem value_again (v : Value) : ∀ p, value p (value p v) = value p v := by
  induction v using Value.child_induction with
  | step v ih =>
      intro p
      cases v with
      | bool b =>
          rw [value_flag]
          split
          · exact value_of_flag p b
          · rename_i other
            rw [value_flag, if_neg other]
      | arr items =>
          simp only [value, list_eq, List.map_map]
          exact congrArg Value.arr (List.map_congr_left fun w member => ih w member _)
      | obj members =>
          simp only [value, fields_eq, List.map_map]
          refine congrArg Value.obj (List.map_congr_left fun field member => ?_)
          have again := ih field.2 (List.mem_map_of_mem member)
          exact congrArg (Prod.mk field.1) (field_again _ field.1 field.2 again)
      | null | num | str => rfl

def Settles (change : Value → Value) : Prop :=
  ∀ v, change (value .other (change v)) = value .other (change v)

theorem of_flag_no_flag (v : Value) : (ofFlag v).asBool? = none := by
  cases v with
  | bool b => exact flag_no_flag b
  | null | num | str | arr | obj => rfl

theorem flag_fields_eq (members : List (String × Value)) :
    flagFields (.obj members) = .obj (members.map fun field => (field.1, ofFlag field.2)) := by
  refine congrArg Value.obj (List.map_congr_left fun field _ => ?_)
  rcases field with ⟨name, v⟩
  cases v <;> rfl

theorem on_field_eq (name : String) (change : Value → Value) (members : List (String × Value)) :
    onField name change (.obj members) = .obj (members.map fun field =>
      (field.1, if field.1 = name then change field.2 else field.2)) := by
  refine congrArg Value.obj (List.map_congr_left fun field _ => ?_)
  dsimp only
  split <;> rfl

theorem flag_fields_settle : Settles flagFields := by
  intro v
  cases v with
  | obj members =>
      simp only [flag_fields_eq, value, fields_eq, List.map_map]
      refine congrArg Value.obj (List.map_congr_left fun field _ => ?_)
      exact congrArg (Prod.mk field.1)
        (of_flag_other _ (value_no_flag _ _ (of_flag_no_flag field.2)))
  | null | bool | num | str | arr => rfl

-- The fields of a document that lead to its schema components are in no position of their own.
theorem on_field_settle (name : String) (change : Value → Value)
    (other : Position.ofName name = .other) (settles : Settles change) :
    Settles (onField name change) := by
  intro v
  cases v with
  | obj members =>
      simp only [on_field_eq, value, fields_eq, List.map_map]
      refine congrArg Value.obj (List.map_congr_left fun field _ => congrArg (Prod.mk field.1) ?_)
      let w := if field.1 = name then change field.2 else field.2
      show (if field.1 = name then change (value (.ofName field.1) w)
        else value (.ofName field.1) w) = value (.ofName field.1) w
      by_cases here : field.1 = name
      · simp only [w, here, if_true, other]
        exact settles field.2
      · simp only [here, if_false]
  | null | bool | num | str | arr => rfl

theorem document_again (v : Value) : document (document v) = document v := by
  have settles := on_field_settle "components" _ (by decide)
    (on_field_settle "schemas" _ (by decide) flag_fields_settle)
  rw [document, document, settles v, value_again]

end Again

section Places

def flagNames : List String := ["items", "additionalProperties"]

-- A place at which a schema is read and no flag can stand: how to get to the record that holds it,
-- the step to the field of the record, and the way from there.
def IsStrict (path : List Step) (step : Step) (way : List Step) : Prop :=
  ∃ p name form, LeadsTo path p ∧ (name, form, Part.schema) ∈ p.fields
    ∧ p.shape.IsStep name step ∧ form.IsWay way ∧ name ∉ flagNames

def formPosition : Form → Position
  | .whole => .schema
  | .items => .schemaList
  | .entries => .schemaMap

-- Normalization knows every field that leads to schemas by its name, but for the components.
theorem field_known (p : Part) (name : String) (form : Form)
    (isField : (name, form, Part.schema) ∈ p.fields) (strict : name ∉ flagNames) :
    p = .components ∧ name = "schemas" ∧ form = .entries
      ∨ p ≠ .components ∧ Position.ofName name = formPosition form := by
  have each : ∀ field ∈ p.fields, field.2.2 = .schema → field.1 ∉ flagNames →
      p = .components ∧ field.1 = "schemas" ∧ field.2.1 = .entries
        ∨ p ≠ .components ∧ Position.ofName field.1 = formPosition field.2.1 := by
    cases p <;> decide
  exact each _ isField rfl strict

theorem leads_to_contents (path : List Step) (leads : LeadsTo path .contents) : path = [] := by
  cases leads with
  | contents => rfl
  | field path way p _ name form step _ isField =>
      have none : ∀ field ∈ p.fields, field.2.2 ≠ .contents := by cases p <;> decide
      exact absurd rfl (none _ isField)

theorem leads_to_components (path : List Step) (leads : LeadsTo path .components) :
    path = [.field "components"] := by
  cases leads with
  | field path way p _ name form step above isField isStep isWay =>
      have only : ∀ field ∈ p.fields, field.2.2 = .components →
          p = .contents ∧ field.1 = "components" ∧ field.2.1 = .whole := by
        cases p <;> decide
      obtain ⟨rfl, isName, isWhole⟩ := only _ isField rfl
      dsimp only at isName isWhole
      subst isName isWhole
      rw [leads_to_contents path above]
      cases isWay
      cases step with
      | field n =>
          cases isStep
          rfl
      | item n => cases isStep

theorem strict_known (path way : List Step) (key : String)
    (strict : IsStrict path (.field key) way) : IsSchemaPlace (path ++ .field key :: way) := by
  obtain ⟨p, name, form, leads, isField, isStep, isWay, notFlag⟩ := strict
  obtain rfl : key = name := isStep
  rcases field_known p key form isField notFlag with ⟨rfl, rfl, rfl⟩ | ⟨_, known⟩
  · obtain ⟨entry, rfl⟩ := isWay
    rw [leads_to_components path leads]
    exact .inr ⟨entry, rfl⟩
  · refine .inl ?_
    rw [List.reverse_append, List.reverse_cons]
    cases form with
    | whole =>
        cases isWay
        exact .schema key _ ((Position.of_name_schema key).mp known)
    | items =>
        obtain ⟨n, rfl⟩ := isWay
        exact .listed key n _ ((Position.of_name_list key).mp known)
    | entries =>
        obtain ⟨entry, rfl⟩ := isWay
        exact .mapped key entry _ ((Position.of_name_map key).mp known)

-- No flag is left at a place that normalization knows: it would be replaced once more.
theorem no_flag_left (v : Value) (path : List Step) (b : Bool) (place : IsSchemaPlace path) :
    (document v).at? path ≠ some (.bool b) := by
  intro left
  have replaced := (document_flag (document v) b path left).1 place
  rw [document_again, left] at replaced
  cases b <;> cases replaced

end Places

/-- Normalization applied again changes nothing. Wherever a schema is read in a normalized document,
other than under `items` and `additionalProperties`, a flag is left only if the record that holds it
is written as the list of its fields; and every schema of a document, at any depth, is read from the
normalized value at such a place or under one of these two keywords. -/
theorem normalization_complete (v : Value) :
    document (document v) = document v
      ∧ (∀ path step way b, IsStrict path step way →
          (document v).at? (path ++ step :: way) = some (.bool b) → ∃ n, step = .item n)
      ∧ (v.isKeyed = true → ∀ d, Document.ofValue v = .ok d → ∀ s, d.HasSchema s →
          ReadsSchema (document v) s) := by
  refine ⟨document_again v, fun path step way b strict left => ?_,
    fun keyed d read s has => d.schemas_read v keyed read s has⟩
  cases step with
  | field key => exact absurd left (no_flag_left v _ b (strict_known path way key strict))
  | item n => exact ⟨n, rfl⟩

def flagTree : Value :=
  documentOf [("Tree", .obj [("properties", .obj [("leaves", .obj [
    ("prefixItems", .arr [.bool true, .bool false]), ("items", .bool false)])])])]

theorem flag_tree_normalized :
    let leaves := schemaPath "Tree" ++ [.field "properties", .field "leaves"]
    flagTree.at? (leaves ++ [.field "prefixItems", .item 1]) = some (.bool false)
      ∧ IsStrict leaves (.field "prefixItems") [.item 1]
      ∧ (document flagTree).at? (leaves ++ [.field "prefixItems", .item 1]) ≠ some (.bool false)
      ∧ document (document flagTree) = document flagTree
      ∧ ∃ d, Document.ofValue flagTree = .ok d
        ∧ ReadsSchema (document flagTree) { not := some {} } := by
  intro leaves
  have components : LeadsTo [.field "components"] .components :=
    .field [] [] .contents _ "components" .whole _ .contents (by decide) rfl rfl
  have tree : LeadsTo (schemaPath "Tree") .schema :=
    .field [.field "components"] [.field "Tree"] .components _ "schemas" .entries _ components
      (by decide) rfl ⟨_, rfl⟩
  have isLeaves : LeadsTo leaves .schema :=
    .field (schemaPath "Tree") [.field "leaves"] .schema _ "properties" .entries _ tree (by decide)
      rfl ⟨_, rfl⟩
  have strict : IsStrict leaves (.field "prefixItems") [.item 1] :=
    ⟨.schema, "prefixItems", .items, isLeaves, by decide, rfl, ⟨1, rfl⟩, by decide⟩
  obtain ⟨again, complete, reads⟩ := normalization_complete flagTree
  refine ⟨rfl, strict, fun left => ?_, again, _, rfl, reads rfl _ rfl _ ?_⟩
  · obtain ⟨_, isItem⟩ := complete leaves _ [.item 1] false strict left
    cases isItem
  · refine .inside _ _ (.inside _ _ (.component "Tree" _ (.head _)) (.head _)) ?_
    exact .tail _ (.head _)

-- Components that are written as a list have no name by which their schemas are known.
theorem listed_flag_left :
    let v : Value := .obj [("openapi", .str "3.1.0"),
      ("info", .obj [("title", .str "T"), ("version", .str "1")]), ("paths", .obj []),
      ("components", .arr [.obj [("Pet", .bool true)]])]
    IsStrict [.field "components"] (.item 0) [.field "Pet"]
      ∧ (document v).at? [.field "components", .item 0, .field "Pet"] = some (.bool true)
      ∧ ∃ fault, Document.ofValue v = .error (.malformed fault) := by
  have components : LeadsTo [.field "components"] .components :=
    .field [] [] .contents _ "components" .whole _ .contents (by decide) rfl rfl
  exact ⟨⟨.components, "schemas", .entries, components, by decide, rfl, ⟨_, rfl⟩, by decide⟩, rfl,
    _, rfl⟩

end OpenApi.Normalize
