import OpenApi.Proofs.Document.Parse
import OpenApi.Proofs.Json.Path
import OpenApi.Proofs.Schema.Literal

set_option autoImplicit false

namespace OpenApi.Normalize

open Value (Step)

-- The place of a schema by its names, from the last step back.
inductive NamedPlace : List Step → Prop
  | schema (name : String) (before : List Step) (isName : name ∈ schemaNames) :
      NamedPlace (.field name :: before)
  | listed (name : String) (n : Nat) (before : List Step) (isName : name ∈ schemaListNames) :
      NamedPlace (.item n :: .field name :: before)
  | mapped (name key : String) (before : List Step) (isName : name ∈ schemaMapNames) :
      NamedPlace (.field key :: .field name :: before)

def IsSchemaPlace (path : List Step) : Prop :=
  NamedPlace path.reverse
    ∨ ∃ key, path = [.field "components", .field "schemas", .field key]

namespace Position

theorem of_name_schema (name : String) : ofName name = .schema ↔ name ∈ schemaNames := by
  rw [ofName]
  by_cases isSchema : name ∈ schemaNames
  · simp [isSchema]
  · by_cases isList : name ∈ schemaListNames
    · simp [isSchema, isList]
    · by_cases isMap : name ∈ schemaMapNames <;> simp [isSchema, isList, isMap]

theorem of_name_list (name : String) : ofName name = .schemaList ↔ name ∈ schemaListNames := by
  have apart : ∀ n ∈ schemaListNames, ofName n = .schemaList := by decide
  refine ⟨fun isList => ?_, apart name⟩
  rw [ofName] at isList
  by_cases isSchema : name ∈ schemaNames
  · simp [isSchema] at isList
  · by_cases member : name ∈ schemaListNames
    · exact member
    · by_cases isMap : name ∈ schemaMapNames <;> simp [isSchema, member, isMap] at isList

theorem of_name_map (name : String) : ofName name = .schemaMap ↔ name ∈ schemaMapNames := by
  have apart : ∀ n ∈ schemaMapNames, ofName n = .schemaMap := by decide
  refine ⟨fun isMap => ?_, apart name⟩
  rw [ofName] at isMap
  by_cases isSchema : name ∈ schemaNames
  · simp [isSchema] at isMap
  · by_cases isList : name ∈ schemaListNames
    · simp [isSchema, isList] at isMap
    · by_cases member : name ∈ schemaMapNames
      · exact member
      · simp [isSchema, isList, member] at isMap

def inside (p : Position) (flag : Bool) : Step → Position
  | .field name => if p = .schemaMap && flag then .schema else .ofName name
  | .item _ => if p = .schemaList then .schema else .other

-- The position at the end of a way, from the last step back. Only its last value can be a flag.
def along (flag : Bool) : List Step → Position
  | [] => .other
  | step :: before => (along false before).inside flag step

theorem along_list (trail : List Step) : along false trail = .schemaList ↔
    ∃ name before, trail = .field name :: before ∧ name ∈ schemaListNames := by
  cases trail with
  | nil => simp [along]
  | cons step before =>
      cases step with
      | field name => simp [along, inside, of_name_list]
      | item n =>
          by_cases isList : along false before = .schemaList <;> simp [along, inside, isList]

theorem along_map (trail : List Step) : along false trail = .schemaMap ↔
    ∃ name before, trail = .field name :: before ∧ name ∈ schemaMapNames := by
  cases trail with
  | nil => simp [along]
  | cons step before =>
      cases step with
      | field name => simp [along, inside, of_name_map]
      | item n =>
          by_cases isList : along false before = .schemaList <;> simp [along, inside, isList]

theorem along_schema (trail : List Step) : along true trail = .schema ↔ NamedPlace trail := by
  constructor
  · intro isSchema
    cases trail with
    | nil => cases isSchema
    | cons step before =>
        cases step with
        | field name =>
            by_cases inMap : along false before = .schemaMap
            · obtain ⟨parent, rest, rfl, isName⟩ := (along_map before).mp inMap
              exact .mapped parent name rest isName
            · simp [along, inside, inMap, of_name_schema] at isSchema
              exact .schema name before isSchema
        | item n =>
            by_cases inList : along false before = .schemaList
            · obtain ⟨parent, rest, rfl, isName⟩ := (along_list before).mp inList
              exact .listed parent n rest isName
            · simp [along, inside, inList] at isSchema
  · intro place
    cases place with
    | schema name before isName =>
        have isSchema := (of_name_schema name).mpr isName
        by_cases inMap : along false before = .schemaMap <;> simp [along, inside, inMap, isSchema]
    | listed name n before isName =>
        have inList := (of_name_list name).mpr isName
        simp [along, inside, inList]
    | mapped name key before isName =>
        have inMap := (of_name_map name).mpr isName
        simp [along, inside, inMap]

end Position

section Walk

theorem fields_lookup (map : Bool) (members : List (String × Value)) (name : String) :
    (fields map members).lookup name = (members.lookup name).map fun w =>
      value (if map && w.asBool?.isSome then .schema else .ofName name) w := by
  induction members with
  | nil => rfl
  | cons first rest ih =>
      rcases first with ⟨old, w⟩
      rw [fields, Assoc.lookup_first, Assoc.lookup_first, ih]
      by_cases here : name = old
      · subst here
        simp
      · simp [here]

theorem list_get (position : Position) (items : List Value) (n : Nat) :
    (list position items)[n]? = items[n]?.map (value position) := by
  induction items generalizing n with
  | nil => rfl
  | cons first rest ih =>
      cases n with
      | zero => rfl
      | succ n => simpa [list] using ih n

theorem value_step (p : Position) (v w : Value) (step : Step) (stands : v.step? step = some w) :
    (value p v).step? step = some (value (p.inside w.asBool?.isSome step) w) := by
  rcases v.step_cases w step stands with
    ⟨members, name, rfl, rfl, found⟩ | ⟨items, n, rfl, rfl, found⟩
  · have changed := fields_lookup (p = .schemaMap) members name
    rw [found] at changed
    exact changed
  · have changed := list_get (if p = .schemaList then .schema else .other) items n
    rw [found] at changed
    exact changed

-- The way is taken from its last step back, since the position depends on the two last names.
theorem value_at (v w : Value) (trail : List Step) (stands : v.at? trail.reverse = some w) :
    (value .other v).at? trail.reverse
      = some (value (Position.along w.asBool?.isSome trail) w) := by
  induction trail generalizing w with
  | nil =>
      cases stands
      rfl
  | cons step before ih =>
      rw [List.reverse_cons] at stands ⊢
      obtain ⟨u, above, last⟩ := v.at_last w before.reverse step stands
      have noFlag := u.step_no_flag w step last
      have reached := ih u above
      rw [noFlag] at reached
      rw [Value.at_within _ _ _ [step] reached, Value.at_single]
      exact value_step _ u w step last

theorem value_flag (p : Position) (b : Bool) :
    value p (.bool b) = if p = .schema then ofBool b else .bool b := by
  cases p <;> rfl

theorem value_of_flag (p : Position) (b : Bool) : value p (ofBool b) = ofBool b := by
  cases b <;> cases p <;> rfl

theorem value_outline (p : Position) (v : Value) (noFlag : v.asBool? = none) :
    (value p v).outline = v.outline := by
  cases v with
  | bool b => cases noFlag
  | arr items =>
      have lengths (position : Position) : (list position items).map (fun _ => Value.null)
          = items.map fun _ => Value.null := by
        induction items with
        | nil => rfl
        | cons first rest ih => simpa [list] using ih rfl
      simp only [value, Value.outline, lengths]
  | obj members =>
      have names (map : Bool) : (fields map members).map (fun field => (field.1, Value.null))
          = members.map fun field => (field.1, Value.null) := by
        induction members with
        | nil => rfl
        | cons first rest ih => simpa [fields] using ih rfl
      simp only [value, Value.outline, names]
  | null | num | str => rfl

end Walk

section Components

theorem mapped_lookup (change : String × Value → String × Value) (members : List (String × Value))
    (name : String) (sameName : ∀ field, (change field).1 = field.1) :
    (members.map change).lookup name = (members.lookup name).map fun w => (change (name, w)).2 := by
  induction members with
  | nil => rfl
  | cons first rest ih =>
      have split : change first = (first.1, (change first).2) := Prod.ext (sameName first) rfl
      rw [List.map_cons, split, Assoc.lookup_first, ih]
      rcases first with ⟨old, w⟩
      rw [Assoc.lookup_first]
      by_cases here : name = old
      · subst here
        simp
      · simp [here]

theorem on_field_step (name : String) (change : Value → Value) (v w : Value) (step : Step)
    (stands : v.step? step = some w) :
    (onField name change v).step? step = some (if step = .field name then change w else w) := by
  rcases v.step_cases w step stands with
    ⟨members, n, rfl, rfl, found⟩ | ⟨items, n, rfl, rfl, found⟩
  · refine (mapped_lookup _ members n fun field => ?_).trans ?_
    · dsimp only
      split <;> rfl
    · rw [found]
      by_cases here : n = name <;> simp [here]
  · exact stands

def ofFlag : Value → Value
  | .bool b => ofBool b
  | v => v

theorem flag_fields_step (v w : Value) (name : String) (stands : v.step? (.field name) = some w) :
    (flagFields v).step? (.field name) = some (ofFlag w) := by
  rcases v.step_cases w (.field name) stands with
    ⟨members, n, rfl, same, found⟩ | ⟨_, _, _, same, _⟩
  · cases same
    refine (mapped_lookup _ members name fun field => ?_).trans ?_
    · dsimp only
      split <;> rfl
    · rw [found]
      cases w <;> rfl
  · cases same

theorem mapped_outline (change : String × Value → String × Value) (members : List (String × Value))
    (sameName : ∀ field, (change field).1 = field.1) :
    (Value.obj (members.map change)).outline = (Value.obj members).outline := by
  simp [Value.outline, Function.comp_def, sameName]

theorem on_field_outline (name : String) (change : Value → Value) (v : Value) :
    (onField name change v).outline = v.outline := by
  cases v with
  | obj members => exact mapped_outline _ members fun field => by dsimp only; split <;> rfl
  | null | bool | num | str | arr => rfl

theorem flag_fields_outline (v : Value) : (flagFields v).outline = v.outline := by
  cases v with
  | obj members => exact mapped_outline _ members fun field => by dsimp only; split <;> rfl
  | null | bool | num | str | arr => rfl

def Marks (change : Value → Value) (place : List Step → Prop) : Prop :=
  ∀ v w path, v.at? path = some w → ∃ w', (change v).at? path = some w'
    ∧ (place path ∧ w' = ofFlag w ∨ ¬ place path ∧ w'.outline = w.outline)

theorem flag_fields_marks : Marks flagFields fun path => ∃ key, path = [.field key] := by
  intro v w path stands
  cases path with
  | nil =>
      cases stands
      exact ⟨_, rfl, .inr ⟨by simp, flag_fields_outline v⟩⟩
  | cons step rest =>
      obtain ⟨child, here, below⟩ := Option.bind_eq_some_iff.mp stands
      cases step with
      | field key =>
          have changed := flag_fields_step v child key here
          cases rest with
          | nil =>
              cases below
              rw [← Value.at_single] at changed
              exact ⟨_, changed, .inl ⟨⟨key, rfl⟩, rfl⟩⟩
          | cons next more =>
              obtain ⟨grandchild, under, _⟩ := Option.bind_eq_some_iff.mp below
              have noFlag : ofFlag child = child := by
                have isNone := child.step_no_flag grandchild next under
                cases child <;> first | rfl | cases isNone
              rw [noFlag] at changed
              exact ⟨w, by rw [Value.at?, changed]; exact below, .inr ⟨by simp, rfl⟩⟩
      | item n =>
          cases v with
          | arr items => exact ⟨w, stands, .inr ⟨by simp, rfl⟩⟩
          | null | bool | num | str | obj => cases here

theorem on_field_marks (name : String) (change : Value → Value) (place : List Step → Prop)
    (marks : Marks change place) :
    Marks (onField name change) fun path => ∃ rest, path = .field name :: rest ∧ place rest := by
  intro v w path stands
  cases path with
  | nil =>
      cases stands
      exact ⟨_, rfl, .inr ⟨by simp, on_field_outline name change v⟩⟩
  | cons step rest =>
      obtain ⟨child, here, below⟩ := Option.bind_eq_some_iff.mp stands
      have changed := on_field_step name change v child step here
      rw [Value.at?, changed, Option.bind_some]
      by_cases isName : step = .field name
      · subst isName
        simpa using marks child w rest below
      · have elsewhere : ¬ ∃ more, step :: rest = .field name :: more ∧ place more := by
          simp [isName]
        exact ⟨w, by rwa [if_neg isName], .inr ⟨elsewhere, rfl⟩⟩

end Components

theorem of_flag_other (w : Value) (noFlag : w.asBool? = none) : ofFlag w = w := by
  cases w with
  | bool b => cases noFlag
  | null | num | str | arr | obj => rfl

theorem outline_flag (u : Value) (b : Bool) (same : u.outline = (Value.bool b).outline) :
    u = .bool b := by
  cases u <;> first | exact same | cases same

theorem outline_no_flag (u w : Value) (noFlag : w.asBool? = none) (same : u.outline = w.outline) :
    u.asBool? = none := by
  cases u with
  | bool b =>
      have isFlag := outline_flag w b same.symm
      subst isFlag
      cases noFlag
  | null | num | str | arr | obj => rfl

theorem document_at (v w : Value) (path : List Step) (stands : v.at? path = some w) :
    ∃ u, (document v).at? path = some (value (Position.along u.asBool?.isSome path.reverse) u)
      ∧ ((∃ key, path = [.field "components", .field "schemas", .field key]) ∧ u = ofFlag w
        ∨ (¬ ∃ key, path = [.field "components", .field "schemas", .field key])
          ∧ u.outline = w.outline) := by
  have marks := on_field_marks "components" _ _ (on_field_marks "schemas" _ _ flag_fields_marks)
  obtain ⟨u, between, change⟩ := marks v w path stands
  have reached := value_at _ u path.reverse (by rwa [List.reverse_reverse])
  rw [List.reverse_reverse] at reached
  refine ⟨u, reached, change.imp ?_ ?_⟩
  · rintro ⟨⟨_, rfl, _, rfl, key, rfl⟩, same⟩
    exact ⟨⟨key, rfl⟩, same⟩
  · rintro ⟨elsewhere, same⟩
    refine ⟨?_, same⟩
    rintro ⟨key, rfl⟩
    exact elsewhere ⟨_, rfl, _, rfl, key, rfl⟩

theorem document_flag (v : Value) (b : Bool) (path : List Step)
    (stands : v.at? path = some (.bool b)) :
    (IsSchemaPlace path → (document v).at? path = some (ofBool b))
      ∧ (¬ IsSchemaPlace path → (document v).at? path = some (.bool b)) := by
  obtain ⟨u, reached, ⟨⟨key, rfl⟩, rfl⟩ | ⟨noComponent, same⟩⟩ := document_at v _ path stands
  · have replaced := reached.trans (congrArg some (value_of_flag _ b))
    exact ⟨fun _ => replaced, fun outside => absurd (.inr ⟨key, rfl⟩) outside⟩
  · have isFlag := outline_flag u b same
    subst isFlag
    have replaced : (document v).at? path
        = some (if Position.along true path.reverse = .schema then ofBool b else .bool b) :=
      reached.trans (congrArg some (value_flag _ b))
    have named := Position.along_schema path.reverse
    constructor
    · intro place
      rwa [if_pos (named.mpr (place.resolve_right noComponent))] at replaced
    · intro outside
      rwa [if_neg fun isSchema => outside (.inl (named.mp isSchema))] at replaced

theorem document_outline (v w : Value) (path : List Step) (stands : v.at? path = some w)
    (noPlace : ∀ b, w = .bool b → ¬ IsSchemaPlace path) :
    ∃ w', (document v).at? path = some w' ∧ w'.outline = w.outline := by
  cases isFlag : w.asBool? with
  | some b =>
      have flag : w = .bool b := by
        cases w <;> first | (cases isFlag; rfl) | cases isFlag
      subst flag
      exact ⟨_, (document_flag v b path stands).2 (noPlace b rfl), rfl⟩
  | none =>
      obtain ⟨u, reached, change⟩ := document_at v w path stands
      have same : u.outline = w.outline := by
        rcases change with ⟨_, rfl⟩ | ⟨_, same⟩
        · rw [of_flag_other w isFlag]
        · exact same
      have uNoFlag := outline_no_flag u w isFlag same
      exact ⟨_, reached, (value_outline _ u uNoFlag).trans same⟩

def FreeOfPlaces (path : List Step) (w : Value) : Prop :=
  ∀ more b, w.at? more = some (.bool b) → ¬ IsSchemaPlace (path ++ more)

theorem document_kept_iff (v w : Value) (path : List Step) (keyed : v.isKeyed = true)
    (stands : v.at? path = some w) :
    (document v).at? path = some w ↔ FreeOfPlaces path w := by
  constructor
  · intro kept more b flag place
    have below := v.at_within w path more stands
    have replaced := (document_flag v b (path ++ more) (below.trans flag)).1 place
    rw [(document v).at_within w path more kept, flag] at replaced
    cases b <;> cases replaced
  · intro free
    have noPlace : ∀ b, w = .bool b → ¬ IsSchemaPlace path := by
      rintro b rfl
      simpa using free [] b rfl
    obtain ⟨w', reached, _⟩ := document_outline v w path stands noPlace
    have covers : w.Covers w' := by
      intro more u below
      have inside := (v.at_within w path more stands).trans below
      have noPlace : ∀ b, u = .bool b → ¬ IsSchemaPlace (path ++ more) := by
        rintro b rfl
        exact free more b below
      have kept := document_outline v u (path ++ more) inside noPlace
      rwa [(document v).at_within w' path more reached] at kept
    rw [reached, w.eq_of_covers w' (v.at_keyed w path keyed stands) covers]

end OpenApi.Normalize

namespace OpenApi

open Decode
open Value (Step)

theorem Decode.entries_origin {α : Type} (read : Value → Result α) (fields : List (String × Value))
    (entries : List (String × α)) (made : Decode.entries read fields = .ok entries) :
    ∀ entry ∈ entries, ∃ v, (entry.1, v) ∈ fields ∧ read v = .ok entry.2 := by
  induction fields generalizing entries with
  | nil =>
      cases made
      exact List.forall_mem_nil _
  | cons field rest ih =>
      rcases field with ⟨name, v⟩
      obtain ⟨item, itemRead, made⟩ := ok_of_bind _ _ _ made
      obtain ⟨others, othersMade, made⟩ := ok_of_bind _ _ _ made
      cases made
      refine List.forall_mem_cons.mpr ⟨⟨v, List.mem_cons_self, itemRead⟩, fun entry later => ?_⟩
      obtain ⟨w, inRest, wRead⟩ := ih others othersMade entry later
      exact ⟨w, List.mem_cons_of_mem _ inRest, wRead⟩

theorem Decode.map_origin {α : Type} (read : Value → Result α) (v : Value)
    (entries : List (String × α)) (keyed : v.isKeyed = true) (made : map read v = .ok entries) :
    ∀ entry ∈ entries, ∃ w, v.step? (.field entry.1) = some w ∧ read w = .ok entry.2 := by
  intro entry member
  cases v with
  | obj fields =>
      obtain ⟨w, present, wRead⟩ := Decode.entries_origin read fields entries made entry member
      have distinct := ((Value.keyed_obj_iff fields).mp keyed).1
      exact ⟨w, Assoc.lookup_of_mem fields distinct _ present, wRead⟩
  | null | bool | num | str | arr => cases made

theorem Decode.read_present {α : Type} (shape : Shape) (put : α → String → Value → Result α)
    (start a : α) (v : Value) (made : shape.read put start v = .ok a) :
    ∃ present, fields put start present = .ok a
      ∧ (v = .obj present ∨ ∃ items, v = .arr items ∧ present = shape.fieldNames.zip items) := by
  cases v with
  | obj present =>
      obtain ⟨record, taken, made⟩ := ok_of_bind _ _ _ made
      obtain ⟨_, _, made⟩ := ok_of_bind _ _ _ made
      cases made
      exact ⟨present, taken, .inl rfl⟩
  | arr items =>
      obtain ⟨record, taken, made⟩ := ok_of_bind _ _ _ made
      split at made
      · cases made
      · split at made
        · cases made
        · cases made
          exact ⟨_, taken, .inr ⟨items, rfl, rfl⟩⟩
  | null | bool | num | str => cases made

namespace Components

def IsSchemasStep (step : Step) : Prop := step = .field "schemas" ∨ step = .item 0

theorem schemas_step (v schemas : Value) (present : List (String × Value))
    (keyed : v.isKeyed = true)
    (form : v = .obj present ∨ ∃ items, v = .arr items ∧ present = shape.fieldNames.zip items)
    (member : ("schemas", schemas) ∈ present) :
    ∃ step, IsSchemasStep step ∧ v.step? step = some schemas := by
  rcases form with rfl | ⟨items, rfl, rfl⟩
  · have distinct := ((Value.keyed_obj_iff present).mp keyed).1
    exact ⟨_, .inl rfl, Assoc.lookup_of_mem present distinct _ member⟩
  · cases items with
    | nil => cases member
    | cons first rest =>
        rcases List.mem_cons.mp member with same | later
        · cases same
          exact ⟨_, .inr rfl, rfl⟩
        · have name := (List.of_mem_zip later).1
          exact absurd name (by decide)

def SchemasIn (v : Value) (c : Components) : Prop :=
  ∀ entry ∈ c.schemas, ∃ step o, IsSchemasStep step ∧ v.at? [step, .field entry.1] = some o
    ∧ Schema.decode o = .ok entry.2

theorem decode_schemas_in (v : Value) (c : Components) (keyed : v.isKeyed = true)
    (made : Components.decode v = .ok c) : SchemasIn v c := by
  obtain ⟨present, taken, form⟩ := Decode.read_present shape take {} c v made
  refine fields_keep (SchemasIn v) take {} c present (List.forall_mem_nil _)
    (fun c name child c' before member taken => ?_) taken
  unfold Components.take at taken
  split at taken
  · refine put_keep (SchemasIn v) _ _ c' taken fun schemas decoded entry inSchemas => ?_
    obtain ⟨step, isStep, toSchemas⟩ := schemas_step v child present keyed form member
    have childKeyed := v.keyed_child child keyed (v.step_child child step toSchemas)
    obtain ⟨o, stands, read⟩ := map_origin _ child schemas childKeyed decoded entry inSchemas
    refine ⟨step, o, isStep, ?_, read⟩
    rw [Value.at?, toSchemas, Option.bind_some, Value.at_single, stands]
  · exact put_keep (SchemasIn v) _ _ c' taken fun _ _ => before
  · exact put_keep (SchemasIn v) _ _ c' taken fun _ _ => before
  · exact put_keep (SchemasIn v) _ _ c' taken fun _ _ => before
  · exact put_keep (SchemasIn v) _ _ c' taken fun _ _ => before
  · exact put_keep (SchemasIn v) _ _ c' taken fun _ _ => before
  · cases taken
    exact before

end Components

namespace Contents

def SchemasIn (v : Value) (c : Contents) : Prop :=
  ∀ entry ∈ c.components.schemas, ∃ step o, Components.IsSchemasStep step
    ∧ v.at? [.field "components", step, .field entry.1] = some o ∧ Schema.decode o = .ok entry.2

theorem decode_schemas_in (v : Value) (c : Contents) (keyed : v.isKeyed = true)
    (made : Contents.decode v = .ok c) : SchemasIn v c := by
  cases v with
  | obj present =>
      obtain ⟨record, taken, made⟩ := ok_of_bind _ _ _ made
      obtain ⟨_, _, made⟩ := ok_of_bind _ _ _ made
      cases made
      refine fields_keep (SchemasIn (.obj present)) take {} c present (List.forall_mem_nil _)
        (fun c name child c' before member taken => ?_) taken
      unfold Contents.take at taken
      split at taken
      · exact put_keep (SchemasIn (.obj present)) _ _ c' taken fun _ _ => before
      · exact put_keep (SchemasIn (.obj present)) _ _ c' taken fun _ _ => before
      · exact put_keep (SchemasIn (.obj present)) _ _ c' taken fun _ _ => before
      · exact put_keep (SchemasIn (.obj present)) _ _ c' taken fun _ _ => before
      · exact put_keep (SchemasIn (.obj present)) _ _ c' taken fun _ _ => before
      · refine put_keep (SchemasIn (.obj present)) _ _ c' taken fun components decoded => ?_
        intro entry inSchemas
        have distinct := ((Value.keyed_obj_iff present).mp keyed).1
        have here : (Value.obj present).step? (.field "components") = some child :=
          Assoc.lookup_of_mem present distinct _ member
        have childKeyed := Value.keyed_child _ child keyed (Value.step_child _ child _ here)
        obtain ⟨step, o, isStep, stands, read⟩ :=
          Components.decode_schemas_in child components childKeyed decoded entry inSchemas
        refine ⟨step, o, isStep, ?_, read⟩
        rw [Value.at?, here, Option.bind_some, stands]
      · exact put_keep (SchemasIn (.obj present)) _ _ c' taken fun _ _ => before
      · cases taken
        exact before
  | null | bool | num | str | arr => cases made

end Contents

theorem Document.of_value_schemas (v : Value) (d : Document) (keyed : v.isKeyed = true)
    (read : Document.ofValue v = .ok d) : Contents.SchemasIn (Normalize.document v) d.contents :=
  Contents.decode_schemas_in _ d.contents (Normalize.document_keyed v keyed)
    (Document.of_value_contents v d read)

namespace Normalize

theorem document_stands (v w : Value) (path : List Step) (stands : v.at? path = some w) :
    ∃ w', (document v).at? path = some w' ∧ w'.isNull = w.isNull := by
  by_cases replaced : ∃ b, w = .bool b ∧ IsSchemaPlace path
  · obtain ⟨b, rfl, place⟩ := replaced
    exact ⟨_, (document_flag v b path stands).1 place, by cases b <;> rfl⟩
  · have noPlace : ∀ b, w = .bool b → ¬ IsSchemaPlace path :=
      fun b flag place => replaced ⟨b, flag, place⟩
    obtain ⟨w', reached, same⟩ := document_outline v w path stands noPlace
    refine ⟨w', reached, ?_⟩
    cases w <;> cases w' <;> first | rfl | cases same

theorem kept_literal_injective (name : String) (w w' : Value) (alike : w'.isNull = w.isNull) :
    Schema.keptLiteral name w' = Schema.keptLiteral name w ↔ w' = w := by
  refine ⟨fun same => ?_, congrArg _⟩
  by_cases isNull : w.isNull = true
  · have bothNull (u : Value) (uNull : u.isNull = true) : u = .null := by
      cases u <;> first | rfl | cases uNull
    rw [bothNull w isNull, bothNull w' (alike.trans isNull)]
  · simpa [Schema.keptLiteral, alike, isNull] using same

theorem literal_kept_iff (v w o : Value) (s : Schema) (before : List Step) (name : String)
    (keyed : v.isKeyed = true) (stands : v.at? (before ++ [.field name]) = some w)
    (isLiteral : Schema.isLiteralName name = true) (reached : (document v).at? before = some o)
    (decoded : Schema.decode o = .ok s) :
    s.literal? name = Schema.keptLiteral name w ↔ FreeOfPlaces (before ++ [.field name]) w := by
  obtain ⟨w', stands', alike⟩ := document_stands v w _ stands
  have inObject : o.get? name = some w' := by
    rwa [(document v).at_within o before _ reached, Value.at_single] at stands'
  have oKeyed := (document v).at_keyed o before (document_keyed v keyed) reached
  have literal := Schema.decode_literal o w' s name oKeyed isLiteral decoded inObject
  rw [literal, kept_literal_injective name w w' alike]
  rw [← document_kept_iff v w _ keyed stands, stands']
  exact Option.some_inj.symm

theorem property_place_iff (before : List Step) (property keyword : String) :
    IsSchemaPlace (before ++ [.field "properties", .field property, .field keyword])
      ↔ keyword ∈ schemaNames ∨ property ∈ schemaMapNames := by
  have reversed : (before ++ [Step.field "properties", .field property, .field keyword]).reverse
      = .field keyword :: .field property :: .field "properties" :: before.reverse := by simp
  rw [IsSchemaPlace, reversed]
  constructor
  · rintro (place | ⟨key, same⟩)
    · cases place with
      | schema _ _ isName => exact .inl isName
      | mapped _ _ _ isName => exact .inr isName
    · cases before with
      | nil => simp at same
      | cons first rest =>
          have lengths := congrArg List.length same
          simp at lengths
  · rintro (isName | isName)
    · exact .inl (.schema _ _ isName)
    · exact .inl (.mapped _ _ _ isName)

/-- What is left of a document as it is written: whatever holds no flag at the place of a schema.
Such a place is known by the names of fields alone, so that flags are replaced in literals as well,
and in the schema of a property that is called like a map of schemas. -/
theorem flags_replaced_exactly (v : Value) (keyed : v.isKeyed = true) :
    (∀ path w, v.at? path = some w →
        ((document v).at? path = some w ↔ FreeOfPlaces path w))
      ∧ (∀ path b, v.at? path = some (.bool b) → IsSchemaPlace path →
          (document v).at? path = some (ofBool b))
      ∧ (∀ before name w o s, v.at? (before ++ [.field name]) = some w →
          Schema.isLiteralName name = true → (document v).at? before = some o →
          Schema.decode o = .ok s →
          (s.literal? name = Schema.keptLiteral name w ↔ FreeOfPlaces (before ++ [.field name]) w))
      ∧ (∀ before property keyword b,
          v.at? (before ++ [.field "properties", .field property, .field keyword])
            = some (.bool b) →
          keyword ∉ schemaNames →
          ((document v).at? (before ++ [.field "properties", .field property, .field keyword])
            = some (.bool b) ↔ property ∉ schemaMapNames))
      ∧ ∀ d, Document.ofValue v = .ok d → Contents.SchemasIn (document v) d.contents := by
  refine ⟨fun path w stands => document_kept_iff v w path keyed stands,
    fun path b stands => (document_flag v b path stands).1,
    fun before name w o s stands => literal_kept_iff v w o s before name keyed stands,
    fun before property keyword b stands noKeyword => ?_,
    fun d => Document.of_value_schemas v d keyed⟩
  have place := property_place_iff before property keyword
  obtain ⟨replaced, kept⟩ := document_flag v b _ stands
  constructor
  · intro same isName
    rw [replaced (place.mpr (.inr isName))] at same
    cases b <;> cases same
  · intro noName
    exact kept fun isPlace => (place.mp isPlace).elim noKeyword noName

def documentOf (schemas : List (String × Value)) : Value :=
  .obj [("openapi", .str "3.1.0"), ("info", .obj [("title", .str "T"), ("version", .str "1")]),
    ("paths", .obj []), ("components", .obj [("schemas", .obj schemas)])]

def schemaPath (key : String) : List Step := [.field "components", .field "schemas", .field key]

def flagDefault : Value :=
  documentOf [("Flags", .obj [("default", .obj [("if", .bool true)]),
    ("x-note", .obj [("when", .bool true)])])]

def nestedProperties : Value :=
  documentOf [("Node", .obj [("properties",
    .obj [("properties", .obj [("nullable", .bool true)])])])]

theorem flag_default_places :
    FreeOfPlaces (schemaPath "Flags" ++ [.field "x-note"]) (.obj [("when", .bool true)])
      ∧ ¬ FreeOfPlaces (schemaPath "Flags" ++ [.field "default"]) (.obj [("if", .bool true)])
      ∧ ∃ d, Document.ofValue flagDefault = .ok d
        ∧ Contents.SchemasIn (document flagDefault) d.contents := by
  obtain ⟨kept, _, literals, _, schemas⟩ := flags_replaced_exactly flagDefault rfl
  refine ⟨(kept _ _ rfl).mp rfl, fun free => ?_, _, rfl, schemas _ rfl⟩
  have same := (literals (schemaPath "Flags") "default" _ _ _ rfl rfl rfl rfl).mpr free
  cases same

-- A default with a flag under `if` is not what is written, and a property called `properties`
-- cannot be nullable.
theorem flag_default_rewritten :
    (flagDefault.at? (schemaPath "Flags" ++ [.field "default"]) = some (.obj [("if", .bool true)])
      ∧ ∃ d, Document.ofValue flagDefault = .ok d
        ∧ (d.schemas.lookup "Flags").bind (·.default) = some (.obj [("if", .obj [])]))
      ∧ nestedProperties.at? (schemaPath "Node"
          ++ [.field "properties", .field "properties", .field "nullable"]) = some (.bool true)
      ∧ ∃ fault, Document.ofValue nestedProperties = .error (.malformed fault) :=
  ⟨⟨rfl, _, rfl, rfl⟩, rfl, _, rfl⟩

end Normalize

end OpenApi
