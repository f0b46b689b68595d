import OpenApi.Proofs.Model.Rounds
import OpenApi.Proofs.Model.Steps
import OpenApi.Proofs.Model.Types
import OpenApi.Proofs.Naming.Ending

set_option autoImplicit false

namespace OpenApi

open Catalog Naming Resolution Text

section Endings

def operationEndings : List String := ["Result", "Handler", "Client"]

variable (ending : String) (known : ending ∈ operationEndings)

include known

theorem ending_letters : ∀ c ∈ ending.toList.map Char.toLower, c.isDigit = false := by
  have all : ∀ ending ∈ operationEndings,
      (ending.toList.map Char.toLower).any Char.isDigit = false := by decide
  simpa using all ending known

theorem ending_last : ∃ last : Char, last.isDigit = false ∧ [last] <:+ ending.toList := by
  simp only [operationEndings, List.mem_cons, List.not_mem_nil, or_false] at known
  rcases known with rfl | rfl | rfl
  · exact ⟨'t', rfl, "Resul".toList, rfl⟩
  · exact ⟨'r', rfl, "Handle".toList, rfl⟩
  · exact ⟨'t', rfl, "Clien".toList, rfl⟩

theorem number_not_ending (n : Nat) :
    ¬ (natText n).toList.map Char.toLower <:+ ending.toList.map Char.toLower
      ∧ ¬ ending.toList.map Char.toLower <:+ (natText n).toList.map Char.toLower := by
  have letters := ending_letters ending known
  have digits : ∀ c ∈ (natText n).toList.map Char.toLower, c.isDigit = true := by
    refine List.forall_mem_map.mpr fun d member => ?_
    have digit := nat_text_digits n d member
    rwa [lower_digit d digit]
  have number : (natText n).toList.map Char.toLower ≠ [] := by
    rw [natText, String.toList_ofList]
    simp
  have word : ending.toList.map Char.toLower ≠ [] := by
    have all : ∀ ending ∈ operationEndings, ending.toList.map Char.toLower ≠ [] := by decide
    exact all ending known
  constructor
  · intro within
    obtain ⟨c, member⟩ := List.exists_mem_of_ne_nil _ number
    exact Bool.false_ne_true ((letters c (within.subset member)).symm.trans (digits c member))
  · intro within
    obtain ⟨c, member⟩ := List.exists_mem_of_ne_nil _ word
    exact Bool.false_ne_true ((letters c member).symm.trans (digits c (within.subset member)))

theorem part_not_ending (start more : String) (isPart : IsPart more) :
    ¬ ending.toList <:+ (typeName (start ++ more)).toList := by
  intro ends
  have plain := part_plain more isPart
  have fromPart := type_name_ending (start ++ more) more.toList plain
    ⟨start.toList, (String.toList_append ..).symm⟩
  have comparable := List.suffix_or_suffix_of_suffix fromPart (ends.map Char.toLower)
  rcases isPart with called | ⟨n, rfl⟩
  · have apart : ∀ part ∈ partNames, ∀ ending ∈ operationEndings,
        ¬ (part.toList.map Char.toLower <:+ ending.toList.map Char.toLower
          ∨ ending.toList.map Char.toLower <:+ part.toList.map Char.toLower) := by decide
    exact apart more called ending known comparable
  · obtain ⟨notWithin, notAround⟩ := number_not_ending ending known n
    exact comparable.elim notWithin notAround

end Endings

def Document.HasParameter (d : Document) (entry : OperationEntry) (p : Parameter) : Prop :=
  ∃ item ∈ entry.pathItem.parameters ++ entry.operation.parameters, d.parameter item = .ok p

inductive Catalog.PositionName (c : Catalog) (records : List RecordModel) : String → Prop
  | part (start more : String) (isPart : IsPart more) : PositionName c records (start ++ more)
  | component (d : Component) (member : d ∈ c.components) : PositionName c records d.typeName
  | property (r : RecordModel) (made : r ∈ records) (p : PropertyModel) (own : p ∈ r.properties) :
    PositionName c records (RecordModel.propertyHint r.name p.jsonName)
  | parameter (entry : OperationEntry) (member : entry ∈ c.document.operations) (p : Parameter)
    (own : c.document.HasParameter entry p) :
    PositionName c records (entry.name ++ Naming.typeName p.name)

-- The name was asked for at a position, and may have got a number.
def Catalog.AskedFor (c : Catalog) (records : List RecordModel) (name : String) : Prop :=
  ∃ position taken, c.PositionName records position ∧ name = unique (Naming.typeName position) taken

section Positions

variable (c : Catalog) (records : List RecordModel)

theorem Catalog.position_closed : Closed AnySchema (c.PositionName records) where
  parts _ _ _ _ _ := trivial
  names name more _ isPart := .part name more isPart

theorem Catalog.position_starts : Starts AnyName (c.PositionName records) where
  parts name more _ isPart := .part name more isPart
  cases _ _ _ := trivial

theorem Catalog.position_names : c.document.Names AnyName (c.PositionName records) where
  operations _ _ := trivial
  parameters entry member item isItem p found := .parameter entry member p ⟨item, isItem, found⟩
  headers _ _ _ _ _ _ _ _ _ _ := trivial

theorem Catalog.asked_more (records' : List RecordModel) (more : records ⊆ records') (name : String)
    (asked : c.AskedFor records name) : c.AskedFor records' name := by
  obtain ⟨position, taken, isPosition, isName⟩ := asked
  refine ⟨position, taken, ?_, isName⟩
  cases isPosition with
  | part start more' isPart => exact .part start more' isPart
  | component d member => exact .component d member
  | property r made p own => exact .property r (more made) p own
  | parameter entry member p own => exact .parameter entry member p own

theorem Resolution.steps_asked {α : Type} (m : Resolution α)
    (steps : c.Synthesizes AnySchema (c.PositionName records) m) (r : Registry)
    (before : ∀ t ∈ r.types, c.AskedFor records t.name) :
    ∀ t ∈ (after m r).types, c.AskedFor records t.name := by
  have synthesized (hint : Option String) (s : Schema) (kind : ComponentKind) (r : Registry)
      (asks : Asks AnySchema (c.PositionName records) hint s kind)
      (before : ∀ t ∈ r.types, c.AskedFor records t.name) :
      ∀ t ∈ (c.synthesized hint s kind r).types, c.AskedFor records t.name := by
    intro t member
    rcases synthesized_mem_named c hint s kind r t member with
      old | ⟨-, position, isHint, taken, isName⟩
    · exact before t old
    · exact ⟨position, taken, asks.hinted position isHint, isName⟩
  refine steps_keep c _ _ _ (fun r => ∀ t ∈ r.types, c.AskedFor records t.name) m steps synthesized
    ?_ r before
  exact enter_alias_keep c _ _ _ (c.position_closed records)
    (fun d member => ⟨trivial, .component d member⟩) synthesized _ []

-- A name that ends like that of a result, handler or client has no number and is not that of a part,
-- so it is one that the document chooses.
theorem Catalog.asked_ending (ending name : String) (known : ending ∈ operationEndings)
    (ends : ending.toList <:+ name.toList) (asked : c.AskedFor records name) :
    (∃ d ∈ c.components, name = Naming.typeName d.typeName)
      ∨ (∃ r ∈ records, ∃ p ∈ r.properties,
        name = Naming.typeName (RecordModel.propertyHint r.name p.jsonName))
      ∨ ∃ entry ∈ c.document.operations, ∃ p, c.document.HasParameter entry p
        ∧ name = Naming.typeName (entry.name ++ Naming.typeName p.name) := by
  obtain ⟨position, taken, isPosition, isName⟩ := asked
  obtain ⟨last, letter, isLast⟩ := ending_last ending known
  have unnumbered : name = Naming.typeName position := by
    rw [isName]
    exact unique_base _ taken last letter (isName ▸ isLast.trans ends)
  rw [unnumbered] at ends ⊢
  cases isPosition with
  | part start more isPart => exact absurd ends (part_not_ending ending known start more isPart)
  | component d member => exact .inl ⟨d, member, rfl⟩
  | property r made p own => exact .inr (.inl ⟨r, made, p, own, rfl⟩)
  | parameter entry member p own => exact .inr (.inr ⟨entry, member, p, own, rfl⟩)

end Positions

section Records

variable (c : Catalog) (name : String)

theorem RecordModel.properties_keys (required : List String)
    (discriminator : Option RecordDiscriminator) (properties : List (String × Schema))
    (taken : List String) :
    Ensures (fun _ => True) (propertiesOf c name required discriminator taken properties)
      fun _ models => models.map (·.jsonName) = properties.map (·.1) := by
  induction properties generalizing taken with
  | nil => exact ensures_pure _ _ _ fun _ _ => rfl
  | cons property rest ih =>
      rw [propertiesOf]
      apply ensures_later
      intro type
      refine ensures_bind _ _ _ _ _ (ih _) fun others => ensures_pure _ _ _ fun _ same => ?_
      rw [List.map_cons, List.map_cons, same]

theorem RecordModel.record_keys (source : Option String) (s : Schema) :
    Ensures (fun _ => True) (ofSchema c name source s) fun _ record => record.name = name
      ∧ ∀ flat, c.flatten source s = .ok flat →
        record.properties.map (·.jsonName) = flat.properties.map (·.1) := by
  rw [ofSchema]
  refine ensures_bind_lift _ _ _ _ fun flat made => ?_
  refine ensures_bind_lift _ _ _ _ fun discriminator _ => ?_
  refine ensures_known _ _ _ _ _ (properties_keys c name _ _ _ _) fun properties same => ?_
  apply ensures_later
  intro additional
  refine ensures_pure _ _ _ fun _ _ => ⟨rfl, fun flat' made' => ?_⟩
  cases made.symm.trans made'
  exact same

end Records

namespace Api

def Named (c : Catalog) (records : List RecordModel) (name : String) : Prop :=
  (∃ d ∈ c.components, name = d.typeName) ∨ c.AskedFor records name

-- What is registered was asked for, and so was what is in the model unless it is a component.
structure Traced (c : Catalog) (r : Registry) (api : Api) : Prop where
  registered : ∀ t ∈ r.types, c.AskedFor api.records t.name
  named : ∀ name ∈ api.typeNames, Named c api.records name

section Traced

variable (c : Catalog) (api : Api)

theorem named_more (records records' : List RecordModel) (more : records ⊆ records') (name : String)
    (named : Named c records name) : Named c records' name :=
  named.imp_right (c.asked_more records records' more name)

theorem traced_added {α : Type} (api' : Api) (m : Resolution α) (r : Registry)
    (traced : Traced c r api) (name : String) (named : Named c api.records name)
    (more : api.records ⊆ api'.records)
    (names : ∀ other ∈ api'.typeNames, other ∈ api.typeNames ∨ other = name)
    (steps : c.Synthesizes AnySchema (c.PositionName api'.records) m) :
    Traced c (after m r) api' ∧ api.records ⊆ api'.records := by
  refine ⟨⟨?_, fun other member => ?_⟩, more⟩
  · exact steps_asked c _ m steps r fun t member => c.asked_more _ _ more _ (traced.registered t member)
  · rcases names other member with old | rfl
    · exact named_more c _ _ more other (traced.named other old)
    · exact named_more c _ _ more other named

variable (name : String)

theorem record_positions (source : Option String) (s : Schema) (record : RecordModel)
    (isName : record.name = name) (keys : ∀ flat, c.flatten source s = .ok flat →
      record.properties.map (·.jsonName) = flat.properties.map (·.1)) :
    c.Synthesizes AnySchema (c.PositionName (api.records ++ [record]))
      (RecordModel.ofSchema c name source s) := by
  refine RecordModel.record_steps c AnySchema AnyName _ (c.position_closed _)
    (c.position_starts _) name trivial source s
    (fun flat _ => ⟨fun _ _ => trivial, fun _ _ => trivial⟩) fun flat made property member => ?_
  have isKey : property.1 ∈ record.properties.map (·.jsonName) := by
    rw [keys flat made]
    exact List.mem_map_of_mem member
  obtain ⟨p, own, isProperty⟩ := List.mem_map.mp isKey
  rw [← isProperty, ← isName]
  exact .property record (List.mem_append_right _ (List.mem_singleton_self record)) p own

variable (source : Option String) (s : Schema) (named : Named c api.records name)

include named

theorem record_traced (unions : List UnionModel) (same : ∀ u ∈ unions, u.name = name) :
    Ensures (Traced c · api)
      (do
        let record ← RecordModel.ofSchema c name source s
        pure { api with records := api.records ++ [record], unions := api.unions ++ unions })
      fun r api' => Traced c r api' ∧ api.records ⊆ api'.records := by
  intro r api' traced found
  obtain ⟨record, made, isModel⟩ := answered_bind _ _ r api' found
  cases isModel
  obtain ⟨isName, keys⟩ := RecordModel.record_keys c name source s r record trivial made
  refine traced_added c api _ _ r traced name named (List.subset_append_left _ _) ?_ ?_
  · intro other member
    have added : other ∈ unions.map (·.name) → other = name := by
      intro isUnion
      obtain ⟨u, isAdded, rfl⟩ := List.mem_map.mp isUnion
      exact same u isAdded
    simp only [typeNames, List.map_append, List.map_singleton, List.mem_append,
      List.mem_singleton, isName] at member ⊢
    tauto
  · exact steps_then c _ _ _ _ _ (record_positions c api name source s record isName keys)
      fun _ => steps_pure c _ _ _ _

theorem type_traced (kind : ComponentKind) :
    Ensures (Traced c · api) (api.addType c name source s kind)
      fun r api' => Traced c r api' ∧ api.records ⊆ api'.records := by
  have closed := c.position_closed api.records
  have starts := c.position_starts api.records
  cases kind with
  | record =>
    have added := record_traced c api name source s named [] (List.forall_mem_nil _)
    rw [addType]
    simpa only [List.append_nil] using added
  | hierarchy =>
    refine record_traced c api name source s named _ fun u member => ?_
    obtain ⟨component, -, rfl⟩ := List.mem_map.mp member
    rfl
  | enumeration =>
    intro r api' traced found
    cases found
    refine traced_added c api _ (pure ()) r traced name named (List.Subset.refl _) ?_
      (steps_pure c _ _ _ ())
    intro other member
    simp only [typeNames, List.map_append, List.map_singleton, List.mem_append,
      List.mem_singleton] at member ⊢
    tauto
  | tuple =>
    intro r api' traced found
    obtain ⟨tuple, made, isModel⟩ := answered_bind _ _ r api' found
    cases isModel
    have isName := TupleModel.tuple_named c name s r tuple trivial made
    refine traced_added c api _ _ r traced name named (List.Subset.refl _) ?_ ?_
    · intro other member
      simp only [typeNames, List.map_append, List.map_singleton, List.mem_append,
        List.mem_singleton, isName] at member ⊢
      tauto
    · refine steps_then c _ _ _ _ _ ?_ fun _ => steps_pure c _ _ _ _
      exact TupleModel.tuple_steps c _ _ _ closed starts name trivial s fun _ _ => trivial
  | union =>
    intro r api' traced found
    obtain ⟨union, made, isModel⟩ := answered_bind _ _ r api' found
    cases isModel
    have isName := UnionModel.union_named c name s r union trivial made
    refine traced_added c api _ _ r traced name named (List.Subset.refl _) ?_ ?_
    · intro other member
      simp only [typeNames, List.map_append, List.map_singleton, List.mem_append,
        List.mem_singleton, isName] at member ⊢
      tauto
    · refine steps_then c _ _ _ _ _ ?_ fun _ => steps_pure c _ _ _ _
      exact UnionModel.union_steps c _ _ _ closed starts name trivial s fun _ _ => trivial
  | «alias» => exact ensures_pure _ _ _ fun r traced => ⟨traced, List.Subset.refl _⟩

end Traced

section Whole

variable (c : Catalog) (api : Api)

theorem components_traced (components : List Component) (members : components ⊆ c.components) :
    Ensures (Traced c · api) (api.addComponents c components) (Traced c) := by
  induction components generalizing api with
  | nil => exact ensures_pure _ _ _ fun r traced => traced
  | cons d rest ih =>
      rw [List.cons_subset] at members
      have named : Named c api.records d.typeName := .inl ⟨d, members.1, rfl⟩
      refine ensures_bind _ _ _ _ _
        (type_traced c api d.typeName (some d.name) d.schema named d.kind) fun api' => ?_
      exact fun r api'' traced => ih api' members.2 r api'' traced.1

theorem operations_traced : Ensures (Traced c · api) (api.addOperations c) (Traced c) := by
  intro r api' traced found
  have steps := operations_steps c AnySchema AnyName _ (c.position_closed api.records)
    (c.position_starts api.records) (fun _ _ => trivial) (c.position_names api.records) api
  have registered := steps_asked c api.records _ steps r traced.registered
  obtain ⟨operations, -, found⟩ := answered_bind _ _ r api' found
  obtain ⟨failures, -, isModel⟩ := answered_bind _ _ _ api' found
  cases isModel
  exact ⟨registered, traced.named⟩

theorem rounds_traced (rounds : Nat) : Ensures (Traced c · api) (addRounds c rounds api)
    fun r outcome => ∀ api' ∈ outcome, Traced c r api' := by
  refine rounds_invariant c (Traced c) (fun api t => c.AskedFor api.records t.name) ?_ ?_ rounds api
  · rintro api t asked r api' traced found
    obtain ⟨traced', more⟩ :=
      type_traced c api t.name none t.schema (.inr asked) t.kind r api' traced found
    exact ⟨traced', fun u => c.asked_more _ _ more u.name⟩
  · -- What is pending is registered, so it was asked for when a round takes it.
    refine fun r api traced => ⟨⟨?_, traced.named⟩, fun t member => ?_⟩
    · rw [pending_taken_types]
      exact traced.registered
    · exact traced.registered t (List.mem_append_right _ member)

theorem resolution_traced (rounds : Nat) : Ensures (· = {}) (resolution c rounds)
    fun r outcome => ∀ api ∈ outcome, Traced c r api := by
  let empty : Api := {
    title := c.document.title
    version := c.document.apiVersion
    «namespace» := c.config.namespace }
  have start : Traced c {} empty := ⟨List.forall_mem_nil _, List.forall_mem_nil _⟩
  refine ensures_bind (Traced c) _ _ _ _ ?_ fun api => ?_
  · rintro r api rfl found
    exact components_traced c empty c.components (List.Subset.refl _) {} api start found
  · exact ensures_bind _ _ _ _ _ (operations_traced c api) fun api' => rounds_traced c api' rounds

end Whole

def operationNames (api : Api) : List String :=
  api.results.map (·.name) ++ api.handlers.map (·.name) ++ api.clients.map (·.name)

theorem operation_names_end (api : Api) (name : String) (member : name ∈ api.operationNames) :
    ∃ ending ∈ operationEndings, ending.toList <:+ name.toList := by
  have ends (start ending : String) : ending.toList <:+ (start ++ ending).toList :=
    ⟨start.toList, (String.toList_append ..).symm⟩
  rcases List.mem_append.mp member with isOther | isClient
  · rcases List.mem_append.mp isOther with isResult | isHandler
    · obtain ⟨result, -, rfl⟩ := List.mem_map.mp isResult
      exact ⟨"Result", by decide, ends _ _⟩
    · obtain ⟨handler, -, rfl⟩ := List.mem_map.mp isHandler
      exact ⟨"Handler", by decide, ends _ _⟩
  · obtain ⟨client, -, rfl⟩ := List.mem_map.mp isClient
    exact ⟨"Client", by decide, ends _ _⟩

def listPets : Document where
  version := .v31
  contents := {
    components := { schemas := [
      ("ListPets", { properties := [
        ("result", { properties := [("count", { type := some (.single "integer") })] })] }),
      ("ListPetsHandler", { properties := [("name", { type := some (.single "string") })] })] }
    paths := { items := [("/pets", { get := some {
      operationId := some "listPets"
      tags := ["list-pets"]
      parameters := [.item {
        name := "client"
        location := "query"
        schema := some {
          type := some (.single "string")
          enumValues := some [.str "web", .str "app"] } }] } })] } }

/-- The name of a result, a handler or a client is that of a record, enumeration, tuple or union only
if it is the type name of a component, of the position of a property of a record, or of the position
of a parameter of an operation. Types that are synthesized for elements, values, members, bodies,
responses and headers never have such a name, and no type gets one by a number. -/
theorem operation_names_taken (document : Document) (config : Config) (rounds : Nat) (api : Api)
    (made : ofDocument? document config rounds = .ok (some api)) :
    ∀ name ∈ api.operationNames, name ∈ api.typeNames →
      (∃ d ∈ (Catalog.ofDocument document config).components,
        name = d.typeName ∨ name = Naming.typeName d.typeName)
      ∨ (∃ r ∈ api.records, ∃ p ∈ r.properties,
        name = Naming.typeName (RecordModel.propertyHint r.name p.jsonName))
      ∨ ∃ entry ∈ document.operations, ∃ p, document.HasParameter entry p
        ∧ name = Naming.typeName (entry.name ++ Naming.typeName p.name) := by
  intro name isOperation isType
  let c := Catalog.ofDocument document config
  have traced := resolution_traced c rounds {} (some api) rfl made api rfl
  obtain ⟨ending, known, ends⟩ := api.operation_names_end name isOperation
  rcases traced.named name isType with ⟨d, member, isName⟩ | asked
  · exact .inl ⟨d, member, .inl isName⟩
  · rcases c.asked_ending api.records ending name known ends asked with
      ⟨d, member, isName⟩ | declared
    · exact .inl ⟨d, member, .inr isName⟩
    · exact .inr declared

theorem list_pets_names : ∃ api, ofDocument? listPets {} 2 = .ok (some api)
    ∧ "ListPetsResult" ∈ api.operationNames ∧ "ListPetsResult" ∈ api.typeNames
    ∧ ((∃ d ∈ (Catalog.ofDocument listPets {}).components,
        "ListPetsResult" = d.typeName ∨ "ListPetsResult" = Naming.typeName d.typeName)
      ∨ (∃ r ∈ api.records, ∃ p ∈ r.properties,
        "ListPetsResult" = Naming.typeName (RecordModel.propertyHint r.name p.jsonName))
      ∨ ∃ entry ∈ listPets.operations, ∃ p, listPets.HasParameter entry p
        ∧ "ListPetsResult" = Naming.typeName (entry.name ++ Naming.typeName p.name)) := by
  refine ⟨_, rfl, by decide, by decide, ?_⟩
  exact operation_names_taken listPets {} 2 _ rfl "ListPetsResult" (by decide) (by decide)

theorem list_pets_clash : ∃ api, ofDocument? listPets {} 2 = .ok (some api)
    ∧ api.results.map (·.name) = ["ListPetsResult"]
    ∧ api.handlers.map (·.name) = ["ListPetsHandler"]
    ∧ api.clients.map (·.name) = ["ListPetsClient"]
    ∧ api.typeNames = ["ListPets", "ListPetsHandler", "ListPetsResult", "ListPetsClient"] :=
  ⟨_, rfl, by decide, by decide, by decide, by decide⟩

end Api

end OpenApi
