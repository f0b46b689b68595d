import OpenApi.Proofs.Component.Property
import OpenApi.Proofs.Document.Names
import OpenApi.Proofs.Model.Steps

set_option autoImplicit false

namespace OpenApi

open Catalog Naming Resolution Text

section Properties

variable (c : Catalog) (components : ∀ d ∈ c.components, d.schema.AsciiNames) (s : Schema)
  (ascii : s.AsciiNames)

include components ascii

theorem Catalog.included_ascii (t : Schema) (path : Relation.ReflTransGen c.Includes s t) :
    t.AsciiNames := by
  induction path with
  | refl => exact ascii
  | @tail t next _ included ih =>
      obtain ⟨m, member, _, ⟨_, rfl⟩ | ⟨reference, d, _, resolved, rfl⟩⟩ := included
      · exact t.ascii_child ih next (t.child_of_all next member)
      · exact components d (target_mem c reference d resolved)

theorem Catalog.flatten_ascii (source : Option String) (flat : FlatRecord)
    (made : c.flatten source s = .ok flat) :
    ∀ property ∈ flat.properties, Ascii property.1.toList := by
  intro property member
  have own := own_of_flatten c source s flat made
  have offers := flatten_offers c property.1 _ true
    (fun d all => enter_declares_property c property.1 _ _ _ d all) s flat own
  obtain ⟨t, path, declared⟩ := offers.mp (.inl (List.mem_map_of_mem member))
  exact t.ascii_own (c.included_ascii components s ascii t path) property.1
    (List.mem_append_left _ (List.mem_append_left _ declared))

end Properties

namespace Document

variable (d : Document) (ascii : d.AsciiNames)

include ascii

theorem rooted_starts : Starts d.Rooted d.Rooted where
  parts name more rooted isPart :=
    d.rooted_append ascii name more rooted (plain_ascii _ (part_plain more isPart))
  cases name status rooted := d.rooted_append ascii name _ rooted status.case_name_ascii

theorem rooted_closed : Closed Schema.AsciiNames d.Rooted where
  parts s asciiSchema p part _ := s.ascii_part asciiSchema p part
  names := (d.rooted_starts ascii).parts

theorem entry_rooted (entry : OperationEntry) (member : entry ∈ d.operations) :
    d.Rooted entry.name := by
  have isStart : entry.name ∈ d.starts := List.mem_append_right _ (List.mem_map_of_mem member)
  have named : d.TypeNamed entry.name := ⟨(d.starts_valid ascii _ isStart).1, _, isStart, rfl⟩
  exact d.type_named_rooted entry.name named

theorem names_rooted : d.Names d.Rooted d.Rooted where
  operations := d.entry_rooted ascii
  parameters entry member item isItem p found :=
    d.rooted_append ascii entry.name _ (d.entry_rooted ascii entry member)
      (type_name_ascii p.name (ascii.parameters entry member item isItem p found))
  headers entry member response isResponse r found header isHeader name rooted :=
    d.rooted_append ascii name _ rooted
      (type_name_ascii header.1 (ascii.headers entry member response isResponse r found header isHeader))

theorem property_rooted (record jsonName : String) (rooted : d.Rooted record)
    (asciiName : Ascii jsonName.toList) : d.Rooted (RecordModel.propertyHint record jsonName) := by
  refine d.rooted_append ascii record _ rooted ?_
  rw [String.toList_ofList]
  intro c member
  rcases (property_name_identifier jsonName asciiName).1.2 c (List.dropWhile_subset _ member) with
    letter | rfl
  · exact small_of_alphanum c letter
  · decide

theorem declares_rooted (config : Config) (name : String) (source : Option String) (s : Schema)
    (named : d.TypeNamed name) (asciiSchema : s.AsciiNames) :
    (Catalog.ofDocument d config).Declares Schema.AsciiNames d.Rooted d.Rooted name source s := by
  have components : ∀ component ∈ (Catalog.ofDocument d config).components,
      component.schema.AsciiNames :=
    fun component member => (d.component_named ascii config component member).1
  have rooted := d.type_named_rooted name named
  constructor
  · exact s.ascii_position asciiSchema
  · intro flat made
    refine flatten_within _ _ (fun component member => ?_) source s (s.ascii_inside asciiSchema) flat
      made
    exact component.schema.ascii_inside (components component member)
  · exact rooted
  · intro flat made property member
    have asciiName := flatten_ascii _ components s asciiSchema source flat made property member
    exact d.property_rooted ascii name property.1 rooted asciiName

end Document

namespace Api

-- The registered types have names that start like those of components and operations, and what was
-- declared so far is a component or one of them.
structure Sourced (c : Catalog) (declared : List Declaration) (r : Registry) : Prop where
  types : ∀ t ∈ r.types, c.document.TypeNamed t.name ∧ t.schema.AsciiNames
  components : c.components.map Component.declaration ⊆ declared
  within : declared ⊆ c.declarations r.types

section Sourced

variable (d : Document) (ascii : d.AsciiNames) (config : Config) (declared : List Declaration)

include ascii

theorem synthesis_sourced (hint : Option String) (s : Schema) (kind : ComponentKind) (r : Registry)
    (asks : Asks Schema.AsciiNames d.Rooted hint s kind)
    (sourced : Sourced (ofDocument d config) declared r) :
    Sourced (ofDocument d config) declared ((ofDocument d config).synthesized hint s kind r) where
  types t member := by
    rcases synthesized_mem_named _ hint s kind r t member with
      old | ⟨rfl, name, isHint, taken, isName⟩
    · exact sourced.types t old
    · rw [isName]
      have named := d.rooted_type_name ascii name (asks.hinted name isHint)
      exact ⟨d.type_named_unique _ taken named, asks.allowed⟩
  components := sourced.components
  within t member := by
    have grown := synthesized_extends (ofDocument d config) hint s kind r
    rcases List.mem_append.mp (sourced.within member) with component | registered
    · exact List.mem_append_left _ component
    · exact List.mem_append_right _ ((grown.map SynthesizedType.declaration).subset registered)

theorem steps_sourced {α : Type} (m : Resolution α)
    (steps : (ofDocument d config).Synthesizes Schema.AsciiNames d.Rooted m) (r : Registry)
    (sourced : Sourced (ofDocument d config) declared r) :
    Sourced (ofDocument d config) declared (after m r) := by
  have synthesis := synthesis_sourced d ascii config declared
  have components : ∀ component ∈ (ofDocument d config).components,
      component.schema.AsciiNames ∧ d.Rooted component.typeName := by
    intro component member
    obtain ⟨asciiSchema, named⟩ := d.component_named ascii config component member
    exact ⟨asciiSchema, d.type_named_rooted _ named⟩
  refine steps_keep _ _ _ _ _ m steps synthesis ?_ r sourced
  exact enter_alias_keep _ _ _ _ (d.rooted_closed ascii) components synthesis _ []

theorem ensures_sourced {α : Type} (m : Resolution α)
    (steps : (ofDocument d config).Synthesizes Schema.AsciiNames d.Rooted m) (P : α → Prop)
    (made : Ensures (fun _ => True) m fun _ a => P a) :
    Ensures (Sourced (ofDocument d config) declared) m
      fun r a => Sourced (ofDocument d config) declared r ∧ P a := fun r a sourced found =>
  ⟨steps_sourced d ascii config declared m steps r sourced, made r a trivial found⟩

theorem components_rooted (api : Api) :
    let c := ofDocument d config
    c.Synthesizes Schema.AsciiNames d.Rooted (api.addComponents c c.components) := by
  refine components_steps _ _ _ _ (d.rooted_closed ascii) (d.rooted_starts ascii) _
    (fun component member => ?_) api
  obtain ⟨asciiSchema, named⟩ := d.component_named ascii config component member
  exact d.declares_rooted ascii config _ (some component.name) component.schema named asciiSchema

theorem operations_rooted (api : Api) :
    let c := ofDocument d config
    c.Synthesizes Schema.AsciiNames d.Rooted (api.addOperations c) :=
  operations_steps _ _ _ _ (d.rooted_closed ascii) (d.rooted_starts ascii) ascii.parts
    (d.names_rooted ascii) api

end Sourced

theorem pending_sourced (c : Catalog) (declared : List Declaration) :
    Ensures (Sourced c declared) Resolution.takePending
      fun r pending => Sourced c declared r ∧ ∀ t ∈ pending, t ∈ r.types := by
  intro r pending sourced found
  obtain rfl : r.pending = pending := Except.ok.inj found
  have sameTypes := pending_taken_types r
  refine ⟨⟨?_, sourced.components, ?_⟩, fun t member => ?_⟩
  · rw [sameTypes]
    exact sourced.types
  · rw [sameTypes]
    exact sourced.within
  · rw [sameTypes]
    exact List.mem_append_right _ member

end Api

end OpenApi
