import OpenApi.Proofs.Document.Normalize
import OpenApi.Proofs.Document.Positions
import OpenApi.Proofs.Schema.Keyed

set_option autoImplicit false

namespace OpenApi

open Decode
open Value (Step)

inductive Part where
  | contents
  | components
  | pathItem
  | operation
  | parameter
  | requestBody
  | response
  | header
  | mediaType
  | schema
deriving DecidableEq

inductive Form where
  | whole
  | items
  | entries
deriving DecidableEq

namespace Part

def shape : Part → Shape
  | .contents => Contents.shape
  | .components => Components.shape
  | .pathItem => PathItem.shape
  | .operation => Operation.shape
  | .parameter => Parameter.shape
  | .requestBody => RequestBody.shape
  | .response => Response.shape
  | .header => Header.shape
  | .mediaType => MediaType.shape
  | .schema => { name := "Schema", fieldNames := [] }

def fields : Part → List (String × Form × Part)
  | .contents => [("paths", .entries, .pathItem), ("components", .whole, .components)]
  | .components => [("schemas", .entries, .schema), ("parameters", .entries, .parameter),
    ("requestBodies", .entries, .requestBody), ("responses", .entries, .response),
    ("headers", .entries, .header)]
  | .pathItem => [("parameters", .items, .parameter), ("get", .whole, .operation),
    ("put", .whole, .operation), ("post", .whole, .operation), ("delete", .whole, .operation),
    ("options", .whole, .operation), ("head", .whole, .operation), ("patch", .whole, .operation),
    ("trace", .whole, .operation)]
  | .operation => [("parameters", .items, .parameter), ("requestBody", .whole, .requestBody),
    ("responses", .entries, .response)]
  | .parameter => [("schema", .whole, .schema), ("content", .entries, .mediaType)]
  | .requestBody => [("content", .entries, .mediaType)]
  | .response => [("headers", .entries, .header), ("content", .entries, .mediaType)]
  | .header => [("schema", .whole, .schema)]
  | .mediaType => [("schema", .whole, .schema)]
  | .schema => [("properties", .entries, .schema), ("additionalProperties", .whole, .schema),
    ("items", .whole, .schema), ("prefixItems", .items, .schema), ("allOf", .items, .schema),
    ("oneOf", .items, .schema), ("anyOf", .items, .schema), ("not", .whole, .schema)]

end Part

-- The step to a field: by its name in an object, by its number in the list of the fields.
def Decode.Shape.IsStep (shape : Shape) (name : String) : Step → Prop
  | .field n => n = name
  | .item n => shape.fieldNames[n]? = some name

def Form.IsWay : Form → List Step → Prop
  | .whole, way => way = []
  | .items, way => ∃ n, way = [.item n]
  | .entries, way => ∃ key, way = [.field key]

inductive LeadsTo : List Step → Part → Prop
  | contents : LeadsTo [] .contents
  | field (path way : List Step) (p q : Part) (name : String) (form : Form) (step : Step)
      (above : LeadsTo path p) (isField : (name, form, q) ∈ p.fields)
      (isStep : p.shape.IsStep name step) (isWay : form.IsWay way) :
      LeadsTo (path ++ step :: way) q

def Holds (document : Value) (p : Part) (v : Value) : Prop :=
  ∃ path, LeadsTo path p ∧ document.at? path = some v

def ReadsSchema (document : Value) (s : Schema) : Prop :=
  ∃ o, Holds document .schema o ∧ Schema.decode o = .ok s

def Decode.Shape.StandsIn (shape : Shape) (name : String) (v child : Value) : Prop :=
  ∃ step, shape.IsStep name step ∧ v.step? step = some child

namespace Decode

variable {α : Type}

theorem items_origin (read : Value → Result α) (items : List Value) (read? : List α)
    (made : items.mapM read = .ok read?) :
    ∀ a ∈ read?, ∃ (n : Nat) (v : Value), items[n]? = some v ∧ read v = .ok a := by
  induction items generalizing read? with
  | nil =>
      cases made
      exact List.forall_mem_nil _
  | cons first rest ih =>
      rw [List.mapM_cons] at made
      obtain ⟨a, firstRead, made⟩ := ok_of_bind _ _ _ made
      obtain ⟨others, othersMade, made⟩ := ok_of_bind _ _ _ made
      cases made
      refine List.forall_mem_cons.mpr ⟨⟨0, first, rfl, firstRead⟩, fun b later => ?_⟩
      obtain ⟨n, v, here, vRead⟩ := ih others othersMade b later
      exact ⟨n + 1, v, here, vRead⟩

theorem list_origin (read : Value → Result α) (v : Value) (read? : List α)
    (made : list read v = .ok read?) :
    ∀ a ∈ read?, ∃ n w, v.step? (.item n) = some w ∧ read w = .ok a := by
  cases v with
  | arr items => exact items_origin read items read? made
  | null | bool | num | str | obj => cases made

theorem named_origin (part : String) (read : Value → Result α) (fields : List (String × Value))
    (entries : List (String × α)) (made : decodeNamed part read fields = .ok entries) :
    ∀ entry ∈ entries, ∃ v, (entry.1, v) ∈ fields ∧ read v = .ok entry.2 := by
  induction fields generalizing entries with
  | nil =>
      cases made
      exact List.forall_mem_nil _
  | cons field rest ih =>
      rcases field with ⟨name, v⟩
      rw [decodeNamed] at made
      cases first : read v with
      | error fault =>
          rw [first] at made
          cases made
      | ok a =>
          rw [first] at made
          obtain ⟨others, othersMade, made⟩ := ok_of_bind _ _ _ made
          cases made
          refine List.forall_mem_cons.mpr ⟨⟨v, List.mem_cons_self, first⟩, fun entry later => ?_⟩
          obtain ⟨w, inRest, wRead⟩ := ih others othersMade entry later
          exact ⟨w, List.mem_cons_of_mem _ inRest, wRead⟩

section Read

variable (shape : Shape) (put : α → String → Value → Result α) (start a : α) (v : Value)

theorem object_stands (present : List (String × Value)) (name : String) (child : Value)
    (keyed : (Value.obj present).isKeyed = true) (member : (name, child) ∈ present) :
    shape.StandsIn name (.obj present) child := by
  have distinct := ((Value.keyed_obj_iff present).mp keyed).1
  exact ⟨.field name, rfl, Assoc.lookup_of_mem present distinct _ member⟩

theorem zip_stands (items : List Value) (name : String) (child : Value)
    (member : (name, child) ∈ shape.fieldNames.zip items) :
    shape.StandsIn name (.arr items) child := by
  obtain ⟨n, here⟩ := List.mem_iff_getElem?.mp member
  obtain ⟨isName, isItem⟩ := List.getElem?_zip_eq_some.mp here
  exact ⟨.item n, isName, isItem⟩

variable (P : α → Prop) (keyed : v.isKeyed = true) (holds : P start)
  (keeps : ∀ a name child a', P a → shape.StandsIn name v child → put a name child = .ok a' → P a')

include keyed holds keeps

theorem read_keep_fields (made : shape.read put start v = .ok a) : P a := by
  obtain ⟨present, taken, form⟩ := read_present shape put start a v made
  refine fields_keep P put start a present holds (fun a name child a' before member => ?_) taken
  rcases form with rfl | ⟨items, rfl, rfl⟩
  · exact keeps a name child a' before (object_stands shape present name child keyed member)
  · exact keeps a name child a' before (zip_stands shape items name child member)

theorem object_keep_fields (made : shape.readObject put start v = .ok a) : P a := by
  cases v with
  | obj present => exact read_keep_fields shape put start a _ P keyed holds keeps made
  | null | bool | num | str | arr => cases made

end Read

end Decode

namespace Schema

theorem child_of_obj (fields : List (String × Value)) (w : Value)
    (keyed : (Value.obj fields).isKeyed = true) (member : w ∈ (Value.obj fields).children) :
    ∃ key, (Value.obj fields).step? (.field key) = some w := by
  obtain ⟨field, inFields, rfl⟩ := List.mem_map.mp member
  have distinct := ((Value.keyed_obj_iff fields).mp keyed).1
  exact ⟨field.1, Assoc.lookup_of_mem fields distinct field inFields⟩

def IsReadUnder (name : String) (v : Value) (s : Schema) : Prop :=
  ∃ form way o, (name, form, Part.schema) ∈ Part.schema.fields ∧ form.IsWay way
    ∧ v.at? way = some o ∧ decode o = .ok s

section Keywords

variable (name : String) (v : Value)

theorem properties_read_under (isField : (name, .entries, .schema) ∈ Part.schema.fields)
    (keyed : v.isKeyed = true) (properties : List (String × Schema))
    (made : decodeProperties v = .ok properties) :
    ∀ s ∈ properties.map (·.2), IsReadUnder name v s := by
  intro s member
  obtain ⟨w, inside, decoded⟩ := decode_properties_origin v properties made s member
  cases v with
  | obj fields =>
      obtain ⟨key, here⟩ := child_of_obj fields w keyed inside
      exact ⟨.entries, [.field key], w, isField, ⟨key, rfl⟩, by rw [Value.at_single, here], decoded⟩
  | null | bool | num | str | arr => cases made

theorem list_read_under (isField : (name, .items, .schema) ∈ Part.schema.fields)
    (schemas : List Schema) (made : decodeList v = .ok schemas) :
    ∀ s ∈ schemas, IsReadUnder name v s := by
  intro s member
  obtain ⟨w, inside, decoded⟩ := decode_list_origin v schemas made s member
  cases v with
  | arr items =>
      obtain ⟨n, here⟩ := List.mem_iff_getElem?.mp inside
      have stands : (Value.arr items).step? (.item n) = some w := here
      exact ⟨.items, [.item n], w, isField, ⟨n, rfl⟩, by rw [Value.at_single, stands], decoded⟩
  | null | bool | num | str | obj => cases made

theorem whole_read_under (isField : (name, .whole, .schema) ∈ Part.schema.fields) (s : Schema)
    (decoded : decode v = .ok s) : IsReadUnder name v s :=
  ⟨.whole, [], v, isField, rfl, rfl, decoded⟩

theorem field_read_under (s s' : Schema) (rest : List (String × Value)) (keyed : v.isKeyed = true)
    (made : decodeFields s ((name, v) :: rest) = .ok s') :
    ∃ next, (∀ child ∈ next.children, child ∈ s.children ∨ IsReadUnder name v child)
      ∧ decodeFields next rest = .ok s' := by
  cases parsed : Keyword.parse? name with
  | none =>
      rw [decodeFields, parsed] at made
      let next : Schema := { s with extra := Assoc.putSorted s.extra name v }
      exact ⟨next, fun child member => .inl member, made⟩
  | some k =>
      rw [decode_keyword_eq s k name v rest parsed] at made
      obtain ⟨x, found, made⟩ := ok_of_bind _ _ _ made
      refine ⟨_, fun child member => ?_, made⟩
      have isName := Keyword.name_of_parse name k parsed
      cases k
      case properties =>
        have origin := properties_read_under name v (by simp [← isName, Keyword.name, Part.fields])
          keyed x found child
        simp only [slot, children, List.mem_append] at member ⊢
        grind
      case additionalProperties | items =>
        have origin := fun inside => whole_read_under name v
          (by simp [← isName, Keyword.name, Part.fields]) child
          (decode_or_bool_origin v x found child inside)
        simp only [slot, children, List.mem_append] at member ⊢
        grind
      case prefixItems | allOf | oneOf | anyOf =>
        have origin := list_read_under name v (by simp [← isName, Keyword.name, Part.fields]) x
          found child
        simp only [slot, children, List.mem_append] at member ⊢
        grind
      case not =>
        have origin := fun inside => whole_read_under name v
          (by simp [← isName, Keyword.name, Part.fields]) child
          (decode_negated_origin v x found child inside)
        simp only [slot, children, List.mem_append, Option.mem_toList] at member ⊢
        grind
      all_goals exact .inl member

end Keywords

theorem decode_read_under (v : Value) (s : Schema) (keyed : v.isKeyed = true)
    (decoded : decode v = .ok s) : ∀ child ∈ s.children, ∃ name u,
      Part.schema.shape.StandsIn name v u ∧ IsReadUnder name u child := by
  cases v with
  | obj fields =>
      have each (part : List (String × Value)) (start : Schema) (within : part ⊆ fields)
          (made : decodeFields start part = .ok s)
          (old : ∀ child ∈ start.children, ∃ name u,
            Part.schema.shape.StandsIn name (.obj fields) u ∧ IsReadUnder name u child) :
          ∀ child ∈ s.children, ∃ name u,
            Part.schema.shape.StandsIn name (.obj fields) u ∧ IsReadUnder name u child := by
        induction part generalizing start with
        | nil =>
            cases made
            exact old
        | cons field rest ih =>
            have member : field ∈ fields := within List.mem_cons_self
            have fieldKeyed := Value.keyed_child _ field.2 keyed (List.mem_map_of_mem member)
            obtain ⟨next, taken, made⟩ :=
              field_read_under field.1 field.2 start s rest fieldKeyed made
            refine ih next (fun f later => within (List.mem_cons_of_mem _ later)) made
              fun child isChild => ?_
            rcases taken child isChild with before | under
            · exact old child before
            · exact ⟨field.1, field.2, object_stands _ fields field.1 field.2 keyed member, under⟩
      exact each fields {} (List.Subset.refl _) decoded fun child none => by
        simp [children, OrBool.schemas] at none
  | null | bool | num | str | arr => cases decoded

end Schema

def ReadsAll (document : Value) (schemas : List Schema) : Prop :=
  ∀ s ∈ schemas, ReadsSchema document s

theorem reads_append (document : Value) (schemas more : List Schema) :
    ReadsAll document (schemas ++ more) ↔ ReadsAll document schemas ∧ ReadsAll document more :=
  List.forall_mem_append

theorem reads_flat {α : Type} (document : Value) (parts : List α) (schemas : α → List Schema) :
    ReadsAll document (parts.flatMap schemas) ↔ ∀ a ∈ parts, ReadsAll document (schemas a) := by
  simp only [ReadsAll, List.mem_flatMap]
  exact ⟨fun all a member s inside => all s ⟨a, member, inside⟩,
    fun all s ⟨a, member, inside⟩ => all a member s inside⟩

def Traces {α : Type} (document : Value) (p : Part) (read : Value → Result α)
    (schemas : α → List Schema) : Prop :=
  ∀ v a, Holds document p v → read v = .ok a → ReadsAll document (schemas a)

section Traces

variable (d : Value) (keyed : d.isKeyed = true)

theorem holds_below (p q : Part) (name : String) (form : Form) (v u o : Value) (way : List Step)
    (holds : Holds d p v) (isField : (name, form, q) ∈ p.fields)
    (stands : p.shape.StandsIn name v u) (isWay : form.IsWay way) (below : u.at? way = some o) :
    Holds d q o := by
  obtain ⟨path, leads, here⟩ := holds
  obtain ⟨step, isStep, toField⟩ := stands
  refine ⟨path ++ step :: way, .field path way p q name form step leads isField isStep isWay, ?_⟩
  rw [d.at_within v path _ here, Value.at?, toField, Option.bind_some, below]

theorem holds_keyed (p : Part) (v : Value) (keyed : d.isKeyed = true) (holds : Holds d p v) :
    v.isKeyed = true := by
  obtain ⟨path, _, here⟩ := holds
  exact d.at_keyed v path keyed here

theorem stands_keyed (shape : Shape) (name : String) (v u : Value) (keyed : v.isKeyed = true)
    (stands : shape.StandsIn name v u) : u.isKeyed = true := by
  obtain ⟨step, _, here⟩ := stands
  exact v.keyed_child u keyed (v.step_child u step here)

section Field

variable {α : Type} (p q : Part) (name : String) (read : Value → Result α)
  (schemas : α → List Schema) (traces : Traces d q read schemas) (v u : Value)
  (holds : Holds d p v) (stands : p.shape.StandsIn name v u)

include traces holds stands

theorem whole_traced (isField : (name, .whole, q) ∈ p.fields) (found : Option α)
    (made : optional read u = .ok found) : ∀ a ∈ found, ReadsAll d (schemas a) := by
  intro a present
  have below := holds_below d p q name .whole v u u [] holds isField stands rfl rfl
  exact traces u a below (optional_read read u found made a present)

theorem items_traced (isField : (name, .items, q) ∈ p.fields) (found : List α)
    (made : list read u = .ok found) : ∀ a ∈ found, ReadsAll d (schemas a) := by
  intro a member
  obtain ⟨n, o, here, oRead⟩ := list_origin read u found made a member
  rw [← Value.at_single] at here
  exact traces o a (holds_below d p q name .items v u o _ holds isField stands ⟨n, rfl⟩ here) oRead

theorem entry_traced (isField : (name, .entries, q) ∈ p.fields) (key : String) (o : Value) (a : α)
    (here : u.step? (.field key) = some o) (oRead : read o = .ok a) : ReadsAll d (schemas a) := by
  rw [← Value.at_single] at here
  exact traces o a (holds_below d p q name .entries v u o _ holds isField stands ⟨key, rfl⟩ here)
    oRead

include keyed

theorem entries_traced (isField : (name, .entries, q) ∈ p.fields) (found : List (String × α))
    (made : map read u = .ok found) : ∀ entry ∈ found, ReadsAll d (schemas entry.2) := by
  intro entry member
  have uKeyed := stands_keyed p.shape name v u (holds_keyed d p v keyed holds) stands
  obtain ⟨o, here, oRead⟩ := map_origin read u found uKeyed made entry member
  exact entry_traced d p q name read schemas traces v u holds stands isField entry.1 o entry.2 here
    oRead

theorem named_traced (isField : (name, .entries, q) ∈ p.fields) (part : String)
    (fields : List (String × Value)) (isMap : u = .obj fields) (keep : String × Value → Bool)
    (found : List (String × α)) (made : decodeNamed part read (fields.filter keep) = .ok found) :
    ∀ entry ∈ found, ReadsAll d (schemas entry.2) := by
  intro entry member
  subst isMap
  have uKeyed := stands_keyed p.shape name v _ (holds_keyed d p v keyed holds) stands
  obtain ⟨o, inFields, oRead⟩ := named_origin part read _ found made entry member
  have distinct := ((Value.keyed_obj_iff fields).mp uKeyed).1
  have here := Assoc.lookup_of_mem fields distinct _ (List.mem_of_mem_filter inFields)
  exact entry_traced d p q name read schemas traces v _ holds stands isField entry.1 o entry.2 here
    oRead

end Field

theorem ref_traced {α : Type} (p : Part) (read : Value → Result α) (schemas : α → List Schema)
    (traces : Traces d p read schemas) :
    Traces d p (RefOr.decode read) (fun item => item.here.flatMap schemas) := by
  intro v item holds made
  rw [RefOr.decode] at made
  split at made
  · cases made
    exact fun s absent => by cases absent
  · split at made
    · rename_i a decoded
      cases made
      simpa [RefOr.here] using traces v a holds decoded
    · cases made

theorem schema_traced : Traces d .schema Schema.decode fun s => [s] :=
  fun v _ holds decoded => List.forall_mem_singleton.mpr ⟨v, holds, decoded⟩

theorem reads_option (keyword : Option Schema) :
    ReadsAll d keyword.toList ↔ ∀ s ∈ keyword, ReadsAll d [s] := by
  cases keyword <;> simp [ReadsAll]

theorem reads_content (content : List (String × MediaType)) : ReadsAll d (contentSchemas content)
    ↔ ∀ entry ∈ content, ReadsAll d entry.2.schema.toList := by
  rw [contentSchemas, List.filterMap_eq_flatMap_toList, reads_flat]

include keyed

theorem media_type_traced : Traces d .mediaType MediaType.decode fun m => m.schema.toList := by
  intro v m holds made
  let P (m : MediaType) := ReadsAll d m.schema.toList
  refine read_keep_fields MediaType.shape MediaType.take {} m v P
    (holds_keyed d _ v keyed holds) (List.forall_mem_nil _)
    (fun m name u next before stands taken => ?_) made
  unfold MediaType.take at taken
  split at taken
  · refine put_keep P _ _ next taken fun schema decoded => (reads_option d schema).mpr ?_
    exact whole_traced d .mediaType _ _ _ _ (schema_traced d) v u holds stands
      (by simp [Part.fields]) schema decoded
  · cases taken
    exact before

theorem content_traced (p : Part) (name : String) (v u : Value) (holds : Holds d p v)
    (isField : (name, .entries, .mediaType) ∈ p.fields) (stands : p.shape.StandsIn name v u)
    (content : List (String × MediaType)) (made : map MediaType.decode u = .ok content) :
    ReadsAll d (contentSchemas content) :=
  (reads_content d content).mpr (entries_traced d keyed p _ name _ _ (media_type_traced d keyed) v u
    holds stands isField content made)

theorem parameter_traced : Traces d .parameter Parameter.decode Parameter.schemas := by
  intro v p holds made
  let P (p : Parameter) :=
    ReadsAll d p.schema.toList ∧ ReadsAll d (contentSchemas (p.content.getD []))
  refine (reads_append d _ _).mpr (object_keep_fields Parameter.shape Parameter.take {} p v P
    (holds_keyed d _ v keyed holds) ⟨List.forall_mem_nil _, List.forall_mem_nil _⟩
    (fun p name u next before stands taken => ?_) made)
  unfold Parameter.take at taken
  split at taken
  case h_6 =>
    refine put_keep P _ _ next taken fun schema decoded =>
      ⟨(reads_option d schema).mpr ?_, before.2⟩
    exact whole_traced d .parameter _ _ _ _ (schema_traced d) v u holds stands
      (by simp [Part.fields]) schema decoded
  case h_7 =>
    refine put_keep P _ _ next taken fun content decoded => ⟨before.1, ?_⟩
    cases content with
    | none => exact List.forall_mem_nil _
    | some content =>
        exact content_traced d keyed .parameter _ v u holds (by simp [Part.fields]) stands content
          (optional_read _ u _ decoded content rfl)
  case h_10 =>
    cases taken
    exact before
  all_goals exact put_keep P _ _ next taken fun _ _ => before

theorem request_body_traced : Traces d .requestBody RequestBody.decode RequestBody.schemas := by
  intro v b holds made
  let P (b : RequestBody) := ReadsAll d b.schemas
  refine read_keep_fields RequestBody.shape RequestBody.take {} b v P
    (holds_keyed d _ v keyed holds) (List.forall_mem_nil _)
    (fun b name u next before stands taken => ?_) made
  unfold RequestBody.take at taken
  split at taken
  · exact put_keep P _ _ next taken fun _ _ => before
  · refine put_keep P _ _ next taken fun content decoded => ?_
    exact content_traced d keyed .requestBody _ v u holds (by simp [Part.fields]) stands content
      decoded
  · exact put_keep P _ _ next taken fun _ _ => before
  · cases taken
    exact before

theorem header_traced : Traces d .header Header.decode Header.schemas := by
  intro v h holds made
  let P (h : Header) := ReadsAll d h.schemas
  refine read_keep_fields Header.shape Header.take {} h v P
    (holds_keyed d _ v keyed holds) (List.forall_mem_nil _)
    (fun h name u next before stands taken => ?_) made
  unfold Header.take at taken
  split at taken
  · exact put_keep P _ _ next taken fun _ _ => before
  · exact put_keep P _ _ next taken fun _ _ => before
  · refine put_keep P _ _ next taken fun schema decoded => (reads_option d schema).mpr ?_
    exact whole_traced d .header _ _ _ _ (schema_traced d) v u holds stands
      (by simp [Part.fields]) schema decoded
  · cases taken
    exact before

theorem response_traced : Traces d .response Response.decode Response.schemas := by
  intro v r holds made
  let P (r : Response) := ReadsAll d r.schemas
  refine read_keep_fields Response.shape Response.take {} r v P
    (holds_keyed d _ v keyed holds) (List.forall_mem_nil _)
    (fun r name u next before stands taken => ?_) made
  obtain ⟨ofContent, ofHeaders⟩ := (reads_append d _ _).mp before
  unfold Response.take at taken
  split at taken
  · exact put_keep P _ _ next taken fun _ _ => before
  · refine put_keep P _ _ next taken fun headers decoded =>
      (reads_append d _ _).mpr ⟨ofContent, (reads_flat d _ _).mpr ?_⟩
    exact entries_traced d keyed .response _ _ _ _
      (ref_traced d _ _ _ (header_traced d keyed)) v u holds stands (by simp [Part.fields]) headers
      decoded
  · refine put_keep P _ _ next taken fun content decoded =>
      (reads_append d _ _).mpr ⟨?_, ofHeaders⟩
    exact content_traced d keyed .response _ v u holds (by simp [Part.fields]) stands content
      decoded
  · cases taken
    exact before

theorem operation_traced : Traces d .operation Operation.decode Operation.schemas := by
  intro v o holds made
  let P (o : Operation) := ReadsAll d o.schemas
  refine object_keep_fields Operation.shape Operation.take {} o v P
    (holds_keyed d _ v keyed holds) (List.forall_mem_nil _)
    (fun o name u next before stands taken => ?_) made
  obtain ⟨others, ofResponses⟩ := (reads_append d _ _).mp before
  obtain ⟨ofParameters, ofBody⟩ := (reads_append d _ _).mp others
  unfold Operation.take at taken
  split at taken
  case h_5 =>
    refine put_keep P _ _ next taken fun parameters decoded => ?_
    have traced := items_traced d .operation _ _ _ _
      (ref_traced d _ _ _ (parameter_traced d keyed)) v u holds stands (by simp [Part.fields])
      parameters decoded
    exact (reads_append d _ _).mpr ⟨(reads_append d _ _).mpr
      ⟨(reads_flat d _ _).mpr traced, ofBody⟩, ofResponses⟩
  case h_6 =>
    refine put_keep P _ _ next taken fun body decoded => ?_
    have traced := whole_traced d .operation _ _ _ _
      (ref_traced d _ _ _ (request_body_traced d keyed)) v u holds stands (by simp [Part.fields])
      body decoded
    exact (reads_append d _ _).mpr ⟨(reads_append d _ _).mpr
      ⟨ofParameters, (reads_flat d _ _).mpr fun b member => traced b (Option.mem_toList.mp member)⟩,
      ofResponses⟩
  case h_7 =>
    refine put_keep P _ _ next taken fun responses decoded => ?_
    cases u with
    | obj fields =>
        have traced := named_traced d keyed .operation _ _ _ _
          (ref_traced d _ _ _ (response_traced d keyed)) v _ holds stands (by simp [Part.fields])
          _ fields rfl _ responses decoded
        exact (reads_append d _ _).mpr ⟨others, (reads_flat d _ _).mpr traced⟩
    | null | bool | num | str | arr => cases decoded
  case h_10 =>
    cases taken
    exact before
  all_goals exact put_keep P _ _ next taken fun _ _ => before

theorem path_item_traced : Traces d .pathItem PathItem.decode PathItem.schemas := by
  intro v i holds made
  let P (i : PathItem) := ReadsAll d (i.parameters.flatMap (·.here.flatMap Parameter.schemas))
    ∧ ∀ o, some o ∈ [i.get, i.put, i.post, i.delete, i.options, i.head, i.patch, i.trace] →
      ReadsAll d o.schemas
  have kept : P i := by
    refine object_keep_fields PathItem.shape PathItem.take {} i v P
      (holds_keyed d _ v keyed holds) ⟨List.forall_mem_nil _, by simp⟩
      (fun i name u next before stands taken => ?_) made
    obtain ⟨ofParameters, ofOperations⟩ := before
    have operation := fun (isField : (name, .whole, .operation) ∈ Part.pathItem.fields) =>
      whole_traced d .pathItem _ name _ _ (operation_traced d keyed) v u holds stands isField
    unfold PathItem.take at taken
    split at taken
    case h_11 =>
      refine put_keep P _ _ next taken fun parameters decoded => ⟨?_, ofOperations⟩
      exact (reads_flat d _ _).mpr (items_traced d .pathItem _ _ _ _
        (ref_traced d _ _ _ (parameter_traced d keyed)) v u holds stands (by simp [Part.fields])
        parameters decoded)
    case h_12 =>
      cases taken
      exact ⟨ofParameters, ofOperations⟩
    case h_1 | h_2 => exact put_keep P _ _ next taken fun _ _ => ⟨ofParameters, ofOperations⟩
    all_goals
      refine put_keep P _ _ next taken fun found decoded => ⟨ofParameters, fun o isOperation => ?_⟩
      have traced := operation (by simp [Part.fields]) found decoded o
      have before := ofOperations o
      simp only [List.mem_cons, List.not_mem_nil, or_false] at isOperation before
      grind
  refine (reads_append d _ _).mpr ⟨kept.1, (reads_flat d _ _).mpr fun entry member => ?_⟩
  obtain ⟨⟨method, operation⟩, inFields, isEntry⟩ := List.mem_filterMap.mp member
  obtain ⟨o, present, rfl⟩ := Option.map_eq_some_iff.mp isEntry
  refine kept.2 o ?_
  have inFields := List.mem_map_of_mem (f := Prod.snd) inFields
  simpa [present] using inFields

def Components.allSchemas (c : Components) : List Schema := c.schemas.map (·.2) ++ c.partSchemas

theorem components_traced : Traces d .components Components.decode Components.allSchemas := by
  intro v c holds made
  let P (c : Components) := (∀ entry ∈ c.schemas, ReadsAll d [entry.2])
    ∧ (∀ entry ∈ c.parameters, ReadsAll d entry.2.schemas)
    ∧ (∀ entry ∈ c.requestBodies, ReadsAll d entry.2.schemas)
    ∧ (∀ entry ∈ c.responses, ReadsAll d entry.2.schemas)
    ∧ ∀ entry ∈ c.headers, ReadsAll d entry.2.schemas
  have kept : P c := by
    refine read_keep_fields Components.shape Components.take {} c v P
      (holds_keyed d _ v keyed holds) (by simp [P])
      (fun c name u next before stands taken => ?_) made
    obtain ⟨ofSchemas, ofParameters, ofBodies, ofResponses, ofHeaders⟩ := before
    unfold Components.take at taken
    split at taken
    · refine put_keep P _ _ next taken fun found decoded =>
        ⟨?_, ofParameters, ofBodies, ofResponses, ofHeaders⟩
      exact entries_traced d keyed .components _ _ _ _ (schema_traced d) v u holds stands
        (by simp [Part.fields]) found decoded
    · refine put_keep P _ _ next taken fun found decoded =>
        ⟨ofSchemas, ?_, ofBodies, ofResponses, ofHeaders⟩
      exact entries_traced d keyed .components _ _ _ _ (parameter_traced d keyed) v u holds stands
        (by simp [Part.fields]) found decoded
    · refine put_keep P _ _ next taken fun found decoded =>
        ⟨ofSchemas, ofParameters, ?_, ofResponses, ofHeaders⟩
      exact entries_traced d keyed .components _ _ _ _ (request_body_traced d keyed) v u holds
        stands (by simp [Part.fields]) found decoded
    · refine put_keep P _ _ next taken fun found decoded =>
        ⟨ofSchemas, ofParameters, ofBodies, ?_, ofHeaders⟩
      exact entries_traced d keyed .components _ _ _ _ (response_traced d keyed) v u holds stands
        (by simp [Part.fields]) found decoded
    · refine put_keep P _ _ next taken fun found decoded =>
        ⟨ofSchemas, ofParameters, ofBodies, ofResponses, ?_⟩
      exact entries_traced d keyed .components _ _ _ _ (header_traced d keyed) v u holds stands
        (by simp [Part.fields]) found decoded
    · exact put_keep P _ _ next taken fun _ _ =>
        ⟨ofSchemas, ofParameters, ofBodies, ofResponses, ofHeaders⟩
    · cases taken
      exact ⟨ofSchemas, ofParameters, ofBodies, ofResponses, ofHeaders⟩
  obtain ⟨ofSchemas, ofParameters, ofBodies, ofResponses, ofHeaders⟩ := kept
  rw [Components.allSchemas, Components.partSchemas, List.map_eq_flatMap]
  simp only [reads_append, reads_flat]
  exact ⟨ofSchemas, ⟨⟨ofParameters, ofBodies⟩, ofResponses⟩, ofHeaders⟩

theorem contents_traced : Traces d .contents Contents.decode fun c =>
    c.components.allSchemas ++ c.paths.items.flatMap (·.2.schemas) := by
  intro v c holds made
  let P (c : Contents) := ReadsAll d c.components.allSchemas
    ∧ ∀ entry ∈ c.paths.items, ReadsAll d entry.2.schemas
  have kept : P c := by
    refine object_keep_fields Contents.shape Contents.take {} c v P
      (holds_keyed d _ v keyed holds) ⟨List.forall_mem_nil _, List.forall_mem_nil _⟩
      (fun c name u next before stands taken => ?_) made
    unfold Contents.take at taken
    split at taken
    case h_5 =>
      refine put_keep P _ _ next taken fun paths decoded => ⟨before.1, ?_⟩
      cases u with
      | obj fields =>
          obtain ⟨items, itemsRead, isPaths⟩ := ok_of_bind _ _ _ decoded
          cases isPaths
          exact named_traced d keyed .contents _ _ _ _ (path_item_traced d keyed) v _ holds stands
            (by simp [Part.fields]) _ fields rfl _ items itemsRead
      | null | bool | num | str | arr => cases decoded
    case h_6 =>
      refine put_keep P _ _ next taken fun components decoded => ⟨?_, before.2⟩
      have here := holds_below d .contents .components _ .whole v u u [] holds
        (by simp [Part.fields]) stands rfl rfl
      exact components_traced d keyed u components here decoded
    case h_8 =>
      cases taken
      exact before
    all_goals exact put_keep P _ _ next taken fun _ _ => before
  exact (reads_append d _ _).mpr ⟨kept.1, (reads_flat d _ _).mpr kept.2⟩

theorem child_traced (s child : Schema) (parent : ReadsSchema d s) (member : child ∈ s.children) :
    ReadsSchema d child := by
  obtain ⟨v, holds, decoded⟩ := parent
  have vKeyed := holds_keyed d _ v keyed holds
  obtain ⟨name, u, stands, form, way, o, isField, isWay, below, oDecoded⟩ :=
    Schema.decode_read_under v s vKeyed decoded child member
  exact ⟨o, holds_below d .schema .schema name form v u o way holds isField stands isWay below,
    oDecoded⟩

end Traces

namespace Document

-- The schemas of a document: its components, those of its parts, and whatever stands in them.
inductive HasSchema (d : Document) : Schema → Prop
  | component (name : String) (s : Schema) (member : (name, s) ∈ d.schemas) : d.HasSchema s
  | part (s : Schema) (member : s ∈ d.partSchemas) : d.HasSchema s
  | inside (s child : Schema) (parent : d.HasSchema s) (member : child ∈ s.children) :
      d.HasSchema child

/-- Every schema of a document, at any depth, is read from its normalized value, at a place to which
the fields of the parts lead. -/
theorem schemas_read (v : Value) (d : Document) (keyed : v.isKeyed = true)
    (read : ofValue v = .ok d) (s : Schema) (has : d.HasSchema s) :
    ReadsSchema (Normalize.document v) s := by
  have normalKeyed := Normalize.document_keyed v keyed
  have traced : ReadsAll (Normalize.document v)
      (d.contents.components.allSchemas ++ d.contents.paths.items.flatMap (·.2.schemas)) :=
    contents_traced _ normalKeyed _ _ ⟨[], .contents, rfl⟩ (of_value_contents v d read)
  induction has with
  | component name s member =>
      have inSchemas : s ∈ d.contents.components.schemas.map (·.2) := List.mem_map_of_mem member
      exact traced s (List.mem_append_left _ (List.mem_append_left _ inSchemas))
  | part s member =>
      rcases List.mem_append.mp member with inComponents | inPaths
      · exact traced s (List.mem_append_left _ (List.mem_append_right _ inComponents))
      · exact traced s (List.mem_append_right _ inPaths)
  | inside s child _ member ih => exact child_traced _ normalKeyed s child ih member

end Document

end OpenApi
