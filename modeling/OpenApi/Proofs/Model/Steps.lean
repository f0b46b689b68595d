import OpenApi.Proofs.Component.Origin
import OpenApi.Proofs.Document.Positions
import OpenApi.Proofs.Model.Api
import OpenApi.Proofs.Type.Steps

set_option autoImplicit false

namespace OpenApi

open Catalog Resolution

-- The computation only synthesizes types whose schemas are among those of `J` at positions whose
-- names are among those of `H`, but for what is synthesized in aliases that it enters.
abbrev Catalog.Synthesizes (c : Catalog) (J : Schema → Prop) (H : String → Prop) {α : Type}
    (m : Resolution α) : Prop :=
  Steps c J H (c.enterAlias c.components.length []) m

-- The names of positions of types and operations start with a name of `S` and go on to one of `H`. A
-- case of an operation starts with what it is called.
structure Catalog.Starts (S H : String → Prop) : Prop where
  parts : ∀ name more, S name → IsPart more → H (name ++ more)
  cases : ∀ name (status : StatusCode), S name → S (name ++ status.caseName)

theorem Catalog.any_starts : Starts AnyName AnyName := ⟨fun _ _ _ _ => trivial, fun _ _ _ => trivial⟩

-- What the declaration of a schema resolves is among the schemas of `J`: its positions, and those
-- that its properties come from as a record. The name of the type is among those of `S`, and those
-- of the positions of its properties are among those of `H`.
structure Catalog.Declares (c : Catalog) (J : Schema → Prop) (S H : String → Prop) (name : String)
    (source : Option String) (s : Schema) : Prop where
  positions : ∀ p ∈ s.positions, J p
  flattened : ∀ flat, c.flatten source s = .ok flat → flat.Within J
  named : S name
  properties : ∀ flat, c.flatten source s = .ok flat →
    ∀ property ∈ flat.properties, H (RecordModel.propertyHint name property.1)

structure Document.Names (d : Document) (S H : String → Prop) : Prop where
  operations : ∀ entry ∈ d.operations, S entry.name
  parameters : ∀ entry ∈ d.operations,
    ∀ item ∈ entry.pathItem.parameters ++ entry.operation.parameters,
      ∀ p, d.parameter item = .ok p → H (entry.name ++ Naming.typeName p.name)
  headers : ∀ entry ∈ d.operations, ∀ response ∈ entry.operation.responses,
    ∀ r, d.response response.2 = .ok r → ∀ header ∈ r.headers,
      ∀ name, S name → S (name ++ Naming.typeName header.1)

theorem Document.any_names (d : Document) : d.Names AnyName AnyName where
  operations _ _ := trivial
  parameters _ _ _ _ _ _ := trivial
  headers _ _ _ _ _ _ _ _ _ _ := trivial

section Resolve

variable (c : Catalog) (J : Schema → Prop) (H : String → Prop) (closed : Closed J H) (s : Schema)
  (hint : Option String) (hinted : Hinted H hint)

include closed hinted

theorem Catalog.resolve_steps (allowed : J s) : c.Synthesizes J H (c.resolve s hint) :=
  resolve_with_steps c J H _ closed s (fun _ => allowed) hint hinted

end Resolve

section Types

variable (c : Catalog) (J : Schema → Prop) (S H : String → Prop) (closed : Closed J H)
  (starts : Starts S H) (name : String) (inside : S name)

include closed

theorem Catalog.resolve_rest_steps (s : Schema) (hint : Option String)
    (hinted : Hinted H (hint.map (· ++ "Rest"))) (allowed : ∀ p ∈ OrBool.schemas s.items, J p) :
    c.Synthesizes J H (c.resolveRest s hint) := by
  rw [resolveRest]
  refine rest_type_steps c J H _ hint _ (fun name => ?_) hinted s.items
  exact resolve_or_any_steps c J H _ s.items
    (fun p member => resolve_with_steps c J H _ closed p fun _ => allowed p member) name

namespace RecordModel

theorem properties_steps (required : List String) (discriminator : Option RecordDiscriminator)
    (properties : List (String × Schema)) (each : ∀ property ∈ properties, J property.2)
    (named : ∀ property ∈ properties, H (propertyHint name property.1)) (taken : List String) :
    c.Synthesizes J H (propertiesOf c name required discriminator taken properties) := by
  induction properties generalizing taken with
  | nil => exact steps_pure c J H _ []
  | cons property rest ih =>
      rw [List.forall_mem_cons] at each named
      rw [propertiesOf]
      exact steps_cons c J H _ _ _ _
        (resolve_steps c J H closed property.2 _ (hinted_some H _ named.1) each.1)
        (ih each.2 named.2 _)

include starts inside

theorem additional_steps (keyword : Option (OrBool Schema))
    (each : ∀ p ∈ OrBool.schemas keyword, J p) : c.Synthesizes J H (additionalType c name keyword) := by
  match keyword with
  | some (.schema s) =>
      have allowed := each s (List.mem_singleton_self s)
      have hinted := hinted_some H _ (starts.parts name "Value" inside (.inl (by decide)))
      exact steps_map c J H _ _ _ (resolve_steps c J H closed s _ hinted allowed)
  | some (.bool true) => exact steps_pure c J H _ _
  | some (.bool false) => exact steps_pure c J H _ none
  | none => exact steps_pure c J H _ none

theorem record_steps (source : Option String) (s : Schema)
    (flattened : ∀ flat, c.flatten source s = .ok flat → flat.Within J)
    (named : ∀ flat, c.flatten source s = .ok flat →
      ∀ property ∈ flat.properties, H (propertyHint name property.1)) :
    c.Synthesizes J H (ofSchema c name source s) := by
  rw [ofSchema]
  refine steps_bind_lift c J H _ _ _ fun flat made => ?_
  refine steps_bind_lift c J H _ _ _ fun discriminator _ => ?_
  have within := flattened flat made
  refine steps_then c J H _ _ _ (properties_steps c J H closed name _ _ _ within.properties
    (named flat made) _) fun properties => ?_
  refine steps_then c J H _ _ _ ?_ fun additional => steps_pure c J H _ _
  exact additional_steps c J S H closed starts name inside _ within.additional

end RecordModel

include starts inside

theorem Catalog.numbered_hinted (part : String) (called : part ∈ partNames) (n : Nat) :
    Hinted H (some (Naming.numbered (name ++ part) n)) :=
  hinted_some H _ (name_numbered H closed.names _ n (starts.parts name part inside (.inl called)))

theorem TupleModel.elements_steps (schemas : List Schema) (each : ∀ p ∈ schemas, J p) (n : Nat) :
    c.Synthesizes J H (elementsOf c name n schemas) := by
  induction schemas generalizing n with
  | nil => exact steps_pure c J H _ []
  | cons s rest ih =>
      rw [List.forall_mem_cons] at each
      have hinted := numbered_hinted J S H closed starts name inside "Item" (by decide) n
      rw [Naming.numbered, String.append_assoc] at hinted
      rw [elementsOf]
      exact steps_cons c J H _ _ _ _ (resolve_steps c J H closed s _ hinted each.1) (ih each.2 _)

theorem TupleModel.tuple_steps (s : Schema) (positions : ∀ p ∈ s.positions, J p) :
    c.Synthesizes J H (ofSchema c name s) := by
  rw [ofSchema]
  refine steps_then c J H _ _ _ ?_ fun elements => ?_
  · exact elements_steps c J S H closed starts name inside s.prefixItems
      (fun p member => positions p (s.element_position p member)) 1
  · refine steps_then c J H _ _ _ ?_ fun rest => steps_pure c J H _ _
    have hinted := hinted_some H _ (starts.parts name "Rest" inside (.inl (by decide)))
    exact resolve_rest_steps c J H closed s (some name) hinted fun p member =>
      positions p (s.items_position p member)

theorem Catalog.option_hinted (n : Nat) : Hinted H (some (optionName name n)) :=
  numbered_hinted J S H closed starts name inside "Option" (by decide) n

theorem Catalog.member_variants_steps (members : List Schema) (each : ∀ p ∈ members, J p) (n : Nat)
    (mapped : List String) : c.Synthesizes J H (c.memberVariants name n mapped members) := by
  induction members generalizing n mapped with
  | nil => exact steps_pure c J H _ []
  | cons m rest ih =>
      rw [List.forall_mem_cons] at each
      have later := fun mapped => ih each.2 (n + 1) mapped
      rw [memberVariants]
      by_cases isNull : m.isNullOnly = true
      · rw [if_pos isNull]
        exact later mapped
      · rw [if_neg isNull]
        cases m.reference with
        | some reference =>
            refine steps_bind_lift c J H _ _ _ fun found _ => ?_
            split
            · exact later mapped
            · exact steps_then c J H _ _ _ (later _) fun others => steps_pure c J H _ _
        | none =>
            have hinted := option_hinted J S H closed starts name inside n
            refine steps_then c J H _ _ _ (resolve_steps c J H closed m _ hinted each.1) fun t => ?_
            refine steps_then c J H _ _ _ (later mapped) fun others => ?_
            cases t.type.name? <;> exact steps_pure c J H _ _

theorem Catalog.union_shape_steps (s : Schema) (positions : ∀ p ∈ s.positions, J p) :
    c.Synthesizes J H (c.unionShape name s) := by
  rw [union_shape_eq]
  refine steps_then c J H _ _ _ ?_ fun variants => steps_pure c J H _ _
  rw [unionVariants]
  cases s.discriminator with
  | none => exact steps_pure c J H _ []
  | some discriminator =>
      refine steps_bind_lift c J H _ _ _ fun mapped _ => ?_
      refine steps_then c J H _ _ _ ?_ fun others => steps_pure c J H _ _
      exact member_variants_steps c J S H closed starts name inside s.unionMembers
        (fun p member => positions p (s.union_position p member)) 1 _

theorem UnionModel.union_members_steps (members : List Schema) (each : ∀ p ∈ members, J p)
    (n : Nat) : c.Synthesizes J H (membersOf c name n members) := by
  induction members generalizing n with
  | nil => exact steps_pure c J H _ []
  | cons m rest ih =>
      rw [List.forall_mem_cons] at each
      rw [membersOf]
      split
      · exact ih each.2 (n + 1)
      · have hinted := option_hinted J S H closed starts name inside n
        exact steps_cons c J H _ _ id _ (resolve_steps c J H closed m _ hinted each.1)
          (ih each.2 (n + 1))

theorem UnionModel.union_steps (s : Schema) (positions : ∀ p ∈ s.positions, J p) :
    c.Synthesizes J H (ofSchema c name s) := by
  rw [ofSchema]
  refine steps_then c J H _ _ _ (union_shape_steps c J S H closed starts name inside s positions)
    fun shape => ?_
  refine steps_then c J H _ _ _ ?_ fun members => steps_pure c J H _ _
  exact union_members_steps c J S H closed starts name inside s.unionMembers
    (fun p member => positions p (s.union_position p member)) 1

end Types

theorem TupleModel.tuple_named (c : Catalog) (name : String) (s : Schema) :
    Ensures (fun _ => True) (ofSchema c name s) fun _ tuple => tuple.name = name := by
  rw [ofSchema]
  apply ensures_later
  intro elements
  apply ensures_later
  intro rest
  exact ensures_pure _ _ _ fun _ _ => rfl

theorem UnionModel.union_named (c : Catalog) (name : String) (s : Schema) :
    Ensures (fun _ => True) (ofSchema c name s) fun _ union => union.name = name := by
  rw [ofSchema]
  apply ensures_later
  intro shape
  apply ensures_later
  intro members
  exact ensures_pure _ _ _ fun _ _ => rfl

namespace Api

variable (c : Catalog) (J : Schema → Prop) (S H : String → Prop) (closed : Closed J H)
  (starts : Starts S H)

include closed starts

theorem type_steps (name : String) (api : Api) (source : Option String) (s : Schema)
    (declares : c.Declares J S H name source s) (kind : ComponentKind) :
    c.Synthesizes J H (api.addType c name source s kind) := by
  have record := RecordModel.record_steps c J S H closed starts name declares.named source s
    declares.flattened declares.properties
  have tuple := TupleModel.tuple_steps c J S H closed starts name declares.named s declares.positions
  have union := UnionModel.union_steps c J S H closed starts name declares.named s declares.positions
  cases kind with
  | record => exact steps_then c J H _ _ _ record fun record => steps_pure c J H _ _
  | hierarchy => exact steps_then c J H _ _ _ record fun record => steps_pure c J H _ _
  | enumeration => exact steps_pure c J H _ _
  | tuple => exact steps_then c J H _ _ _ tuple fun tuple => steps_pure c J H _ _
  | union => exact steps_then c J H _ _ _ union fun union => steps_pure c J H _ _
  | «alias» => exact steps_pure c J H _ api

theorem components_steps (components : List Component)
    (each : ∀ d ∈ components, c.Declares J S H d.typeName (some d.name) d.schema) (api : Api) :
    c.Synthesizes J H (api.addComponents c components) := by
  induction components generalizing api with
  | nil => exact steps_pure c J H _ api
  | cons d rest ih =>
      rw [List.forall_mem_cons] at each
      exact steps_then c J H _ _ _
        (type_steps c J S H closed starts d.typeName api (some d.name) d.schema each.1 d.kind) (ih each.2)

theorem synthesized_steps (types : List SynthesizedType)
    (each : ∀ t ∈ types, c.Declares J S H t.name none t.schema) (api : Api) :
    c.Synthesizes J H (api.addSynthesized c types) := by
  induction types generalizing api with
  | nil => exact steps_pure c J H _ api
  | cons t rest ih =>
      rw [List.forall_mem_cons] at each
      exact steps_then c J H _ _ _ (type_steps c J S H closed starts t.name api none t.schema each.1 t.kind)
        (ih each.2)

end Api

section Operations

theorem Media.select_mem {α : Type} (content : List (String × α)) (entry : String × α)
    (selected : select content = some entry) : entry ∈ content := by
  rw [select] at selected
  split at selected
  · rename_i found
    cases selected
    obtain ⟨wanted, _, here⟩ := List.exists_of_findSome?_eq_some found
    exact List.mem_of_find?_eq_some here
  · exact List.mem_of_head? selected

theorem content_schema (content : List (String × MediaType)) (entry : String × MediaType)
    (member : entry ∈ content) (s : Schema) (present : entry.2.schema = some s) :
    s ∈ contentSchemas content := List.mem_filterMap.mpr ⟨entry, member, present⟩

theorem Parameter.resolved_schema (p : Parameter) (s : Schema) (present : p.schema? = some s) :
    s ∈ p.schemas := by
  rcases Option.or_eq_some_iff.mp present with isSchema | ⟨_, inContent⟩
  · exact List.mem_append_left _ (Option.mem_toList.mpr isSchema)
  · obtain ⟨entry, first, isSchema⟩ := Option.bind_eq_some_iff.mp inContent
    obtain ⟨content, given, isHead⟩ := Option.bind_eq_some_iff.mp first
    refine List.mem_append_right _ (content_schema _ entry ?_ s isSchema)
    rw [given]
    exact List.mem_of_head? isHead

theorem Resolution.answers_of_lifted {α β : Type} (f : α → Except Error β) (items : List α)
    (r : Registry) (answers : List β)
    (found : answer (items.mapM fun item => (liftM (f item) : Resolution β)) r = .ok answers) :
    List.Forall₂ (fun item b => f item = .ok b) items answers := by
  induction items generalizing answers with
  | nil =>
      cases found
      exact .nil
  | cons item rest ih =>
      rw [List.mapM_cons] at found
      obtain ⟨b, made, found⟩ := answered_bind _ _ r answers found
      obtain ⟨bs, others, found⟩ := answered_bind _ _ r answers found
      cases found
      exact .cons made (ih bs others)

theorem ParameterModel.merged_origin (c : Catalog) (items : List (RefOr Parameter)) (r : Registry)
    (parameters : List Parameter)
    (found : answer (items.mapM fun item => c.document.parameter item) r = .ok parameters) :
    ∀ p ∈ merged parameters, ∃ item ∈ items, c.document.parameter item = .ok p := by
  intro p isMerged
  obtain ⟨entry, isEntry, rfl⟩ := List.mem_map.mp isMerged
  obtain ⟨p, isParameter, rfl⟩ := List.mem_map.mp (Assoc.of_list_mem _ _ isEntry)
  obtain ⟨sizes, made⟩ := List.forall₂_iff_get.mp (answers_of_lifted _ items r parameters found)
  obtain ⟨i, rfl⟩ := List.mem_iff_get.mp isParameter
  have within : i.val < items.length := by rw [sizes]; exact i.isLt
  exact ⟨_, List.get_mem items ⟨i, within⟩, made i within i.isLt⟩

theorem StatusCode.case_name_ascii (status : StatusCode) : Text.Ascii status.caseName.toList := by
  have start : Text.Ascii "Status".toList := by decide
  cases status with
  | code value =>
      rw [caseName]
      split
      · rename_i name found
        have known : ∀ entry ∈ reasonNames, Text.Ascii entry.2.toList := by decide
        exact known (value, name) (Assoc.mem_of_lookup reasonNames value name found)
      · rw [String.toList_append]
        exact (Text.ascii_append _ _).mpr ⟨start, Naming.nat_text_ascii value⟩
  | range digit =>
      rw [caseName, String.toList_append, String.toList_append]
      have numbered := (Text.ascii_append _ _).mpr ⟨start, Naming.nat_text_ascii digit⟩
      exact (Text.ascii_append _ _).mpr ⟨numbered, by decide⟩
  | default => decide

variable (c : Catalog) (J : Schema → Prop) (S H : String → Prop) (closed : Closed J H)
  (starts : Starts S H) (parts : ∀ s ∈ c.document.partSchemas, J s) (names : c.document.Names S H)

include closed

theorem Payload.payload_steps (content : List (String × MediaType)) (hint : String)
    (inside : H hint) (each : ∀ s ∈ contentSchemas content, J s) :
    c.Synthesizes J H (ofContent c content hint) := by
  rw [ofContent]
  split
  · exact steps_pure c J H _ none
  · rename_i contentType m selected
    refine steps_then c J H _ _ _ ?_ fun type => steps_pure c J H _ _
    rw [typeOf]
    split
    · exact steps_pure c J H _ _
    · exact steps_pure c J H _ _
    · rename_i s present _
      refine resolve_steps c J H closed s _ (hinted_some H hint inside) (each s ?_)
      exact content_schema content _ (Media.select_mem content _ selected) s present
    · exact steps_pure c J H _ _

theorem ParameterModel.parameter_steps (operation : String) (others : List ParameterModel)
    (location : ParameterLocation) (p : Parameter) (each : ∀ s ∈ p.schemas, J s)
    (inside : H (operation ++ Naming.typeName p.name)) :
    c.Synthesizes J H (ofParameter c operation others location p) := by
  rw [ofParameter]
  cases present : p.schema? with
  | none => exact steps_pure c J H _ _
  | some s =>
      have allowed := each s (p.resolved_schema s present)
      exact steps_then c J H _ _ _
        (resolve_steps c J H closed s _ (hinted_some H _ inside) allowed)
        fun type => steps_pure c J H _ _

theorem ParameterModel.declared_steps (operation : String) (parameters : List Parameter)
    (each : ∀ p ∈ parameters, (∀ s ∈ p.schemas, J s) ∧ H (operation ++ Naming.typeName p.name))
    (models : List ParameterModel) :
    c.Synthesizes J H (addDeclared c operation models parameters) := by
  induction parameters generalizing models with
  | nil => exact steps_pure c J H _ models
  | cons p rest ih =>
      rw [List.forall_mem_cons] at each
      rw [addDeclared]
      cases ParameterLocation.parse? p.location with
      | none => exact ih each.2 models
      | some location =>
          exact steps_then c J H _ _ _
            (parameter_steps c J H closed operation models location p each.1.1 each.1.2)
            fun model => ih each.2 _

section Responses

include starts parts

theorem ResultModel.headers_steps (start : String) (headers : List (String × RefOr Header))
    (inPlace : headers.flatMap (·.2.here.flatMap Header.schemas) ⊆ c.document.partSchemas)
    (named : ∀ header ∈ headers, S (start ++ Naming.typeName header.1)) :
    c.Synthesizes J H (headersOf c start headers) := by
  induction headers with
  | nil => exact steps_pure c J H _ []
  | cons entry rest ih =>
      rcases entry with ⟨wireName, item⟩
      rw [List.flatMap_cons, List.append_subset] at inPlace
      rw [List.forall_mem_cons] at named
      rw [headersOf]
      split
      · exact ih inPlace.2 named.2
      · refine steps_bind_lift c J H _ _ _ fun header found => ?_
        have within := c.document.header_schemas item inPlace.1 header found
        cases present : header.schema with
        | none =>
            exact steps_cons c J H _ _ _ _ (steps_pure c J H _ _) (ih inPlace.2 named.2)
        | some s =>
            have allowed := parts s (within (Option.mem_toList.mpr present))
            have hinted := hinted_some H _ (starts.parts _ "Header" named.1 (.inl (by decide)))
            exact steps_cons c J H _ _ _ _ (resolve_steps c J H closed s _ hinted allowed)
              (ih inPlace.2 named.2)

theorem ResultModel.case_steps (operation : String) (inside : S operation) (status : StatusCode)
    (item : RefOr Response)
    (inPlace : item.here.flatMap Response.schemas ⊆ c.document.partSchemas)
    (named : ∀ r, c.document.response item = .ok r → ∀ header ∈ r.headers,
      ∀ name, S name → S (name ++ Naming.typeName header.1)) :
    c.Synthesizes J H (caseOf c operation status item) := by
  have start : S (operation ++ status.caseName) := starts.cases operation status inside
  rw [caseOf]
  refine steps_bind_lift c J H _ _ _ fun response found => ?_
  have within := List.append_subset.mp (c.document.response_schemas item inPlace response found)
  refine steps_then c J H _ _ _ ?_ fun payload => ?_
  · exact Payload.payload_steps c J H closed _ _
      (starts.parts _ "Response" start (.inl (by decide)))
      fun s inContent => parts s (within.1 inContent)
  · refine steps_then c J H _ _ _ ?_ fun headers => steps_pure c J H _ _
    exact headers_steps c J S H closed starts parts _ _ within.2 fun header member =>
      named response found header member _ start

theorem ResultModel.cases_steps (operation : String) (inside : S operation)
    (responses : List (String × RefOr Response))
    (inPlace : responses.flatMap (·.2.here.flatMap Response.schemas) ⊆ c.document.partSchemas)
    (named : ∀ response ∈ responses, ∀ r, c.document.response response.2 = .ok r →
      ∀ header ∈ r.headers, ∀ name, S name → S (name ++ Naming.typeName header.1)) :
    c.Synthesizes J H (casesOf c operation responses) := by
  induction responses with
  | nil => exact steps_pure c J H _ []
  | cons response rest ih =>
      rcases response with ⟨key, item⟩
      rw [List.flatMap_cons, List.append_subset] at inPlace
      rw [List.forall_mem_cons] at named
      rw [casesOf]
      cases StatusCode.parse? key with
      | none => exact ih inPlace.2 named.2
      | some status =>
          exact steps_cons c J H _ _ id _
            (case_steps c J S H closed starts parts operation inside status item inPlace.1 named.1)
            (ih inPlace.2 named.2)

theorem OperationModel.body_steps (name : String) (inside : S name) (o : Operation)
    (inPlace : o.schemas ⊆ c.document.partSchemas) : c.Synthesizes J H (requestBodyOf c name o) := by
  rw [requestBodyOf]
  split
  · exact steps_pure c J H _ none
  · rename_i item given
    refine steps_bind_lift c J H _ _ _ fun body found => ?_
    refine steps_then c J H _ _ _ ?_ fun payload => steps_pure c J H _ _
    refine Payload.payload_steps c J H closed _ _
      (starts.parts name "Request" inside (.inl (by decide))) fun s inContent => parts s ?_
    refine c.document.body_schemas item (fun s here => inPlace ?_) body found inContent
    refine List.mem_append_left _ (List.mem_append_right _ ?_)
    exact List.mem_flatMap.mpr ⟨item, Option.mem_toList.mpr given, here⟩

end Responses

include parts names

theorem ParameterModel.parameters_steps (entry : OperationEntry)
    (member : entry ∈ c.document.operations) :
    c.Synthesizes J H (ofEntry c entry.name entry) := by
  rw [ofEntry]
  refine .bind _ _ ?_ fun r parameters found => ?_
  · exact steps_map_list c J H _ _ _ fun item _ => .lift _
  have origin := merged_origin c _ r parameters found
  refine steps_then c J H _ _ _ ?_ fun declared => steps_pure c J H _ _
  refine declared_steps c J H closed entry.name _ (fun p isMerged => ?_) []
  obtain ⟨item, isItem, made⟩ := origin p isMerged
  refine ⟨fun s inSchemas => parts s ?_, ?_⟩
  · refine c.document.parameter_schemas item ?_ p made inSchemas
    rcases List.mem_append.mp isItem with inPath | inOperation
    · have within := (c.document.path_schemas entry member).1
      exact fun s here => within (List.mem_append_left _ (List.mem_flatMap.mpr ⟨item, inPath, here⟩))
    · have within := c.document.operation_schemas entry member
      refine fun s here => within (List.mem_append_left _ (List.mem_append_left _ ?_))
      exact List.mem_flatMap.mpr ⟨item, inOperation, here⟩
  · exact names.parameters entry member item isItem p made

include starts

namespace OperationModel

theorem operation_steps (entry : OperationEntry) (member : entry ∈ c.document.operations) :
    c.Synthesizes J H (ofEntry c entry.name entry) := by
  have inPlace := c.document.operation_schemas entry member
  have inside := names.operations entry member
  rw [ofEntry]
  refine steps_then c J H _ _ _ ?_ fun parameters => ?_
  · exact ParameterModel.parameters_steps c J S H closed parts names entry member
  refine steps_then c J H _ _ _ ?_ fun body => ?_
  · exact body_steps c J S H closed starts parts entry.name inside _ inPlace
  refine steps_then c J H _ _ _ ?_ fun result => ?_
  · rw [ResultModel.ofOperation]
    refine steps_then c J H _ _ _ ?_ fun cases => steps_pure c J H _ _
    exact ResultModel.cases_steps c J S H closed starts parts entry.name inside _
      (fun s inResponses => inPlace (List.mem_append_right _ inResponses))
      (names.headers entry member)
  · exact steps_bind_lift c J H _ _ _ fun policies _ => steps_pure c J H _ _

theorem operations_steps (entries : List OperationEntry) (members : entries ⊆ c.document.operations)
    (taken : List String) : c.Synthesizes J H (ofEntries c taken entries) := by
  induction entries generalizing taken with
  | nil => exact steps_pure c J H _ []
  | cons entry rest ih =>
      rw [List.cons_subset] at members
      rw [ofEntries]
      split
      · exact steps_throw c J H _ _
      · exact steps_cons c J H _ _ id _
          (operation_steps c J S H closed starts parts names entry members.1)
          (ih members.2 _)

end OperationModel

theorem Api.operations_steps (api : Api) : c.Synthesizes J H (api.addOperations c) := by
  rw [addOperations]
  refine steps_then c J H _ _ _ ?_ fun operations => ?_
  · exact OperationModel.operations_steps c J S H closed starts parts names _ (List.Subset.refl _) []
  · exact steps_bind_lift c J H _ _ _ fun failures _ => steps_pure c J H _ _

end Operations

end OpenApi
