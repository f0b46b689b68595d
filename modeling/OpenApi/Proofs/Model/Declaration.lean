import OpenApi.Proofs.Component.Variant
import OpenApi.Proofs.Model.Types

set_option autoImplicit false

namespace OpenApi

open Catalog Resolution

def Catalog.KnowsAll (c : Catalog) (r : Registry) (types : List ResolvedType) : Prop :=
  ∀ t ∈ types, c.Knows r t

theorem Catalog.knows_all_lasting (c : Catalog) (types : List ResolvedType) :
    Lasting (c.KnowsAll · types) := lasting_all c.Knows types (knows_lasting c)

structure RecordModel.Known (c : Catalog) (r : Registry) (record : RecordModel) : Prop where
  types : c.KnowsAll r record.types
  base : ∀ base ∈ record.base, base ∈ c.typeNames
  variants : ∀ v ∈ record.variants, v.typeName ∈ c.typeNames

theorem RecordModel.known_lasting (c : Catalog) (record : RecordModel) :
    Lasting fun r => record.Known c r := fun r r' grown known =>
  ⟨c.knows_all_lasting record.types r r' grown known.types, known.base, known.variants⟩

def Catalog.IsSource (c : Catalog) (source : Option String) (s : Schema) : Prop :=
  ∀ name ∈ source, ∃ d ∈ c.components, d.name = name ∧ d.schema = s

namespace RecordModel

variable (c : Catalog) (name : String) (source : Option String) (s : Schema)

theorem discriminator_of_variants (regular : c.Regular) (isSource : c.IsSource source s)
    (base : Option String) (discriminator : Option RecordDiscriminator)
    (made : discriminatorOf c name source base s = .ok discriminator) :
    ∀ d ∈ discriminator, ∀ v ∈ d.mapping, v.typeName ∈ c.typeNames := by
  intro d present v member
  obtain rfl := Option.mem_def.mp present
  rw [discriminatorOf] at made
  cases declared : s.discriminator with
  | some declaration =>
      rw [declared] at made
      obtain rfl := Option.some.inj (Except.ok.inj made)
      cases source with
      | none => cases member
      | some component =>
          obtain ⟨base, isComponent, rfl, rfl⟩ := isSource component rfl
          exact hierarchy_variants_named c regular base isComponent (by rw [declared]; rfl) v member
  | none =>
      rw [declared] at made
      cases base with
      | none => cases made
      | some base =>
          dsimp only [inheritedDiscriminator] at made
          obtain ⟨ancestor, found⟩ := search_bases_found c _ _ [] base d made
          obtain ⟨declaration, _, rfl⟩ := Option.map_eq_some_iff.mp found
          cases member

theorem properties_lawful (required : List String) (discriminator : Option RecordDiscriminator)
    (properties : List (String × Schema)) (taken : List String) :
    Lawful c AnySchema (propertiesOf c name required discriminator taken properties)
      fun r models => ∀ p ∈ models, c.Knows r p.type := by
  induction properties generalizing taken with
  | nil => exact lawful_pure c AnySchema _ [] fun _ _ absent => by cases absent
  | cons property rest ih =>
      rw [propertiesOf]
      exact lawful_cons_map c AnySchema c.Knows (fun r (p : PropertyModel) => c.Knows r p.type) _ _ _
        (knows_lasting c) (fun p => knows_lasting c p.type) (fun _ _ known => known)
        (resolve_knows c _ _) (ih _)

theorem additional_lawful (keyword : Option (OrBool Schema)) :
    Lawful c AnySchema (additionalType c name keyword) fun r type => ∀ t ∈ type, c.Knows r t := by
  match keyword with
  | some (.schema s) =>
      refine lawful_map c AnySchema c.Knows _ _ _ (knows_lasting c) (resolve_knows c s _) ?_
      intro r t known other present
      obtain rfl := Option.some.inj present
      exact known
  | some (.bool true) =>
      refine lawful_pure c AnySchema _ _ fun r t present => ?_
      obtain rfl := Option.some.inj present
      exact knows_nothing c r _ rfl
  | some (.bool false) => exact lawful_pure c AnySchema _ none fun _ _ absent => by cases absent
  | none => exact lawful_pure c AnySchema _ none fun _ _ absent => by cases absent

theorem record_lawful (regular : c.Regular) (isSource : c.IsSource source s) :
    Lawful c AnySchema (ofSchema c name source s)
      fun r record => record.name = name ∧ record.Known c r := by
  rw [ofSchema]
  refine lawful_bind_lift c AnySchema _ _ _ fun flat flattened => ?_
  have based := flatten_base c source s flat flattened
  refine lawful_bind_lift c AnySchema _ _ _ fun discriminator found => ?_
  have variantsNamed :=
    discriminator_of_variants c name source s regular isSource flat.base discriminator found
  refine lawful_bind c AnySchema (fun r models => ∀ p ∈ models, c.Knows r p.type) _ _ _ ?_
    (properties_lawful c name _ _ _ _) fun properties => ?_
  · exact fun models => lasting_all _ models fun p => knows_lasting c p.type
  refine lawful_bind c AnySchema (fun r type => ∀ t ∈ type, c.Knows r t) _ _ _ ?_
    (additional_lawful c name _) fun additional => ?_
  · exact fun type r r' grown known t present => knows_lasting c t r r' grown (known t present)
  refine lawful_pure c AnySchema _ _ fun r additionalKnown propertiesKnown => ?_
  refine ⟨rfl, ?_, ?_, ?_⟩
  · intro t member
    rcases List.mem_append.mp member with isProperty | isAdditional
    · obtain ⟨p, inProperties, rfl⟩ := List.mem_map.mp isProperty
      exact propertiesKnown p inProperties
    · exact additionalKnown t (Option.mem_toList.mp isAdditional)
  · intro base present
    obtain ⟨d, found, rfl⟩ := Option.map_eq_some_iff.mp present
    obtain ⟨baseName, isBase, isComponent⟩ := Option.bind_eq_some_iff.mp found
    obtain ⟨d', isComponent', recordLike⟩ := based baseName isBase
    rw [isComponent] at isComponent'
    obtain rfl := Option.some.inj isComponent'
    refine mem_type_names c d (component_mem c baseName d isComponent).1 ?_
    exact ComponentKind.record_like_named d.kind recordLike
  · intro v member
    cases discriminator with
    | none => cases member
    | some d => exact variantsNamed d rfl v member

end RecordModel

namespace TupleModel

variable (c : Catalog) (name : String)

theorem elements_lawful (schemas : List Schema) (n : Nat) :
    Lawful c AnySchema (elementsOf c name n schemas)
      fun r elements => ∀ e ∈ elements, c.Knows r e.type := by
  induction schemas generalizing n with
  | nil => exact lawful_pure c AnySchema _ [] fun _ _ absent => by cases absent
  | cons s rest ih =>
      rw [elementsOf]
      exact lawful_cons_map c AnySchema c.Knows (fun r (e : TupleElement) => c.Knows r e.type) _ _ _
        (knows_lasting c) (fun e => knows_lasting c e.type) (fun _ _ known => known)
        (resolve_knows c s _) (ih _)

theorem tuple_lawful (s : Schema) : Lawful c AnySchema (ofSchema c name s)
    fun r tuple => tuple.name = name ∧ c.KnowsAll r tuple.types := by
  rw [ofSchema]
  refine lawful_bind c AnySchema (fun r elements => ∀ e ∈ elements, c.Knows r e.type) _ _ _ ?_
    (elements_lawful c name s.prefixItems 1) fun elements => ?_
  · exact fun elements => lasting_all _ elements fun e => knows_lasting c e.type
  refine lawful_bind c AnySchema (fun r rest => ∀ t ∈ rest, c.Knows r t) _ _ _ ?_
    (resolve_rest_knows c s _) fun rest => ?_
  · exact fun rest r r' grown known t present => knows_lasting c t r r' grown (known t present)
  refine lawful_pure c AnySchema _ _ fun r restKnown elementsKnown => ⟨rfl, fun t member => ?_⟩
  rcases List.mem_append.mp member with isElement | isRest
  · obtain ⟨e, inElements, rfl⟩ := List.mem_map.mp isElement
    exact elementsKnown e inElements
  · exact restKnown t (Option.mem_toList.mp isRest)

end TupleModel

namespace UnionModel

variable (c : Catalog) (name : String) (s : Schema)

theorem union_members_lawful (members : List Schema) (n : Nat) :
    Lawful c AnySchema (membersOf c name n members) c.KnowsAll := by
  induction members generalizing n with
  | nil => exact lawful_pure c AnySchema _ [] fun _ _ absent => by cases absent
  | cons m rest ih =>
      rw [membersOf]
      split
      · exact ih (n + 1)
      · exact lawful_cons c AnySchema c.Knows _ _ (knows_lasting c) (resolve_knows c m _)
          (ih (n + 1))

theorem union_lawful : Lawful c AnySchema (ofSchema c name s) fun r union =>
    union.name = name ∧ c.KnowsAll r union.members ∧ c.ShowsTargets s r union.variants := by
  rw [ofSchema]
  refine lawful_bind c AnySchema (fun r (shape : UnionShape) =>
    shape.discriminator = s.discriminator.map (·.propertyName)
      ∧ c.ShowsTargets s r shape.variants) _ _ _ ?_ (union_shape_lawful c s name) fun shape => ?_
  · exact fun shape r r' grown holds =>
      ⟨holds.1, shows_targets_lasting c s shape.variants r r' grown holds.2⟩
  refine lawful_bind c AnySchema c.KnowsAll _ _ _ c.knows_all_lasting
    (union_members_lawful c name s.unionMembers 1) fun members => ?_
  refine lawful_pure c AnySchema _ _ fun r known shapeHolds => ⟨rfl, known, ?_⟩
  rw [variants, shapeHolds.1]
  cases declared : s.discriminator with
  | none => exact shows_nothing c s r declared
  | some discriminator => exact shapeHolds.2

theorem hierarchy_known (regular : c.Regular) (d : Component) (member : d ∈ c.components)
    (declares : d.schema.discriminator.isSome = true) (r : Registry) :
    c.KnowsAll r (ofHierarchy c name d.name d.schema).members
      ∧ ∀ v ∈ (ofHierarchy c name d.name d.schema).variants, v.typeName ∈ c.typeNames := by
  have named := hierarchy_variants_named c regular d member declares
  constructor
  · intro t isMember n inType
    obtain ⟨v, isVariant, rfl⟩ := List.mem_map.mp isMember
    obtain rfl : n = v.typeName := List.mem_singleton.mp inType
    exact .inl (named v isVariant)
  · intro v isVariant
    cases declared : d.schema.discriminator with
    | none =>
        rw [declared] at declares
        cases declares
    | some discriminator =>
        rw [variants, ofHierarchy, declared] at isVariant
        exact named v isVariant

end UnionModel

end OpenApi
