import OpenApi.Model.Record
import OpenApi.Proofs.Component.Catalog
import OpenApi.Proofs.Decode.Basic
import OpenApi.Proofs.Naming.Fresh
import OpenApi.Proofs.Type.Resolution

set_option autoImplicit false

namespace OpenApi

open Resolution

namespace Catalog

variable (c : Catalog)

inductive Discriminates : String → Discriminator → Prop
  | declared (name : String) (d : Discriminator) (own : c.discriminator? name = some d) :
      Discriminates name d
  | inherited (name base : String) (d : Discriminator) (none : c.discriminator? name = none)
      (isBase : c.baseOf name = .ok (some base)) (below : Discriminates base d) :
      Discriminates name d

theorem discriminates_iff (name : String) (d : Discriminator) : c.Discriminates name d
    ↔ c.discriminator? name = some d ∨ c.discriminator? name = none
      ∧ ∃ base, c.baseOf name = .ok (some base) ∧ c.Discriminates base d := by
  constructor
  · intro discriminates
    cases discriminates with
    | declared _ _ own => exact .inl own
    | inherited _ base _ undeclared isBase below => exact .inr ⟨undeclared, base, isBase, below⟩
  · rintro (own | ⟨undeclared, base, isBase, below⟩)
    · exact .declared name d own
    · exact .inherited name base d undeclared isBase below

-- The search makes something of the discriminator; of that only the property is looked at.
theorem search_discriminates (make : String → Discriminator → RecordDiscriminator)
    (same : ∀ name d, (make name d).property = d.propertyName) (depth : Nat) (seen : List String)
    (name : String) (found : Option RecordDiscriminator) (searched : c.searchBases
      (fun ancestor => (c.discriminator? ancestor).map (make ancestor)) depth seen name = .ok found)
    (property : String) : found.map (·.property) = some property
      ↔ ∃ d, c.Discriminates name d ∧ d.propertyName = property := by
  induction depth generalizing seen name with
  | zero => cases searched
  | succ depth ih =>
      rw [searchBases] at searched
      split at searched
      · cases searched
      · cases isOwn : c.discriminator? name with
        | some own =>
            rw [isOwn] at searched
            cases searched
            simp [c.discriminates_iff name, isOwn, same]
        | none =>
            rw [isOwn] at searched
            obtain ⟨base?, isBase, searched⟩ := ok_of_bind _ _ _ searched
            cases base? with
            | none =>
                cases searched
                simp [c.discriminates_iff name, isOwn, isBase]
            | some base =>
                rw [ih (name :: seen) base searched]
                simp [c.discriminates_iff name, isOwn, isBase]

end Catalog

namespace RecordModel

section Discriminator

variable (c : Catalog) (s : Schema) (base : Option String)

inductive HasDiscriminator (d : Discriminator) : Prop
  | own (declared : s.discriminator = some d)
  | inherited (undeclared : s.discriminator = none) (name : String) (isBase : base = some name)
      (discriminates : c.Discriminates name d)

theorem has_discriminator_iff (d : Discriminator) : HasDiscriminator c s base d
    ↔ s.discriminator = some d
      ∨ s.discriminator = none ∧ ∃ name, base = some name ∧ c.Discriminates name d := by
  constructor
  · rintro (declared | ⟨undeclared, name, isBase, discriminates⟩)
    · exact .inl declared
    · exact .inr ⟨undeclared, name, isBase, discriminates⟩
  · rintro (declared | ⟨undeclared, name, isBase, discriminates⟩)
    · exact .own declared
    · exact .inherited undeclared name isBase discriminates

theorem discriminator_of_iff (name : String) (source : Option String)
    (found : Option RecordDiscriminator) (made : discriminatorOf c name source base s = .ok found)
    (property : String) : found.map (·.property) = some property
      ↔ ∃ d, HasDiscriminator c s base d ∧ d.propertyName = property := by
  rw [discriminatorOf] at made
  cases isOwn : s.discriminator with
  | some own =>
      rw [isOwn] at made
      cases made
      simp [has_discriminator_iff, isOwn]
  | none =>
      rw [isOwn] at made
      cases base with
      | none =>
          cases made
          simp [has_discriminator_iff, isOwn]
      | some first =>
          rw [c.search_discriminates _ (fun _ _ => rfl) _ _ first found made property]
          simp [has_discriminator_iff, isOwn]

end Discriminator

structure Reflects (c : Catalog) (name : String) (s : Schema) (flat : FlatRecord)
    (property : String × Schema) (p : PropertyModel) : Prop where
  jsonName : p.jsonName = property.1
  resolved : ∃ r, answer (c.resolve property.2 (some (propertyHint name property.1))) r = .ok p.type
  required : p.required = true ↔ property.1 ∈ flat.required
  optional : p.isOptional = true ↔ property.1 ∉ flat.required ∧ p.type.default = none
  discriminating : p.isDiscriminator = true
    ↔ ∃ d, HasDiscriminator c s flat.base d ∧ d.propertyName = property.1

section Properties

variable (c : Catalog) (name : String) (source : Option String) (s : Schema) (flat : FlatRecord)

theorem property_reflects (discriminator : Option RecordDiscriminator)
    (made : discriminatorOf c name source flat.base s = .ok discriminator) (r : Registry)
    (member jsonName : String) (property : Schema) (type : ResolvedType)
    (resolved : answer (c.resolve property (some (propertyHint name jsonName))) r = .ok type) :
    Reflects c name s flat (jsonName, property) {
      name := member
      jsonName
      type
      required := flat.required.contains jsonName
      isDiscriminator := discriminator.any (·.property == jsonName) } where
  jsonName := rfl
  resolved := ⟨r, resolved⟩
  required := List.contains_iff_mem
  optional := by simp [PropertyModel.isOptional]
  discriminating := by
    rw [← discriminator_of_iff c s flat.base name source discriminator made]
    simp [Option.any_eq_true]

theorem properties_reflect (discriminator : Option RecordDiscriminator)
    (made : discriminatorOf c name source flat.base s = .ok discriminator)
    (properties : List (String × Schema)) (taken : List String) (distinct : taken.Nodup) :
    Ensures (fun _ => True) (propertiesOf c name flat.required discriminator taken properties)
      fun _ models => List.Forall₂ (Reflects c name s flat) properties models
        ∧ (taken ++ models.map (·.name)).Nodup := by
  induction properties generalizing taken with
  | nil =>
      refine ensures_pure _ _ _ fun _ _ => ⟨.nil, ?_⟩
      rwa [List.map_nil, List.append_nil]
  | cons property rest ih =>
      rcases property with ⟨jsonName, property⟩
      have fresh := Naming.unique_free (Naming.propertyName jsonName) taken
      rw [propertiesOf]
      refine ensures_known _ (fun type : ResolvedType => ∃ r,
        answer (c.resolve property (some (propertyHint name jsonName))) r = .ok type) _ _ _
        (fun r type _ resolved => ⟨r, resolved⟩) fun type ⟨r, resolved⟩ => ?_
      have later := ih _ (List.concat_eq_append ▸ distinct.concat fresh)
      refine ensures_bind _ _ _ _ _ later fun models => ensures_pure _ _ _ fun _ known => ?_
      obtain ⟨reflect, distinct⟩ := known
      refine ⟨.cons (property_reflects c name source s flat discriminator made r _ jsonName property
        type resolved) reflect, ?_⟩
      rwa [List.append_assoc] at distinct

theorem record_reflects : Ensures (fun _ => True) (ofSchema c name source s) fun _ record =>
    record.name = name ∧ (name :: record.properties.map (·.name)).Nodup
      ∧ ∃ flat, c.flatten source s = .ok flat
        ∧ List.Forall₂ (Reflects c name s flat) flat.properties record.properties := by
  rw [ofSchema]
  refine ensures_bind_lift _ _ _ _ fun flat flattened => ?_
  refine ensures_bind_lift _ _ _ _ fun discriminator made => ?_
  have reflect := properties_reflect c name source s flat discriminator made flat.properties [name]
    (List.nodup_singleton name)
  refine ensures_known _ _ _ _ _ reflect fun properties ⟨reflect, distinct⟩ => ?_
  apply ensures_later
  intro additional
  exact ensures_pure _ _ _ fun _ _ => ⟨rfl, distinct, flat, flattened, reflect⟩

end Properties

def cat : Schema where
  allOf := [
    { reference := some "#/components/schemas/Pet" },
    { required := ["lives", "kind"]
      properties := [
        ("cat", { type := some (.single "string") }),
        ("Cat", { type := some (.single "integer") }),
        ("lives", { type := some (.single "integer") })] }]
  properties := [
    ("kind", { reference := some "#/components/schemas/kind" }),
    ("other", { reference := some "#/components/schemas/kind" })]

def catDocument : Document where
  version := .v31
  contents := { components := { schemas := [
    ("Cat", cat),
    ("Pet", {
      properties := [("kind", { type := some (.single "string") })]
      discriminator := some { propertyName := "kind" } }),
    ("kind", { type := some (.single "string"), default := some (.str "cat") })] } }

/-- A record has one property for each one of the flattened schema, in the same order. The members
have different names, none of which is that of the record, and a property is required, optional or
the discriminator as the flattened schema, its type and the bases of the record say. -/
theorem record_members_faithful (c : Catalog) (name : String) (source : Option String) (s : Schema)
    (r : Registry) (record : RecordModel) (made : answer (ofSchema c name source s) r = .ok record) :
    record.name = name ∧ (record.name :: record.properties.map (·.name)).Nodup
      ∧ ∃ flat, c.flatten source s = .ok flat
        ∧ record.properties.map (·.jsonName) = Assoc.keys flat.properties
        ∧ List.Forall₂ (Reflects c name s flat) flat.properties record.properties := by
  obtain ⟨named, distinct, flat, flattened, reflect⟩ :=
    record_reflects c name source s r record trivial made
  refine ⟨named, named ▸ distinct, flat, flattened, ?_, reflect⟩
  have keys : List.Forall₂ (· = ·) (record.properties.map (·.jsonName))
      (Assoc.keys flat.properties) := by
    rw [Assoc.keys, List.forall₂_map_left_iff, List.forall₂_map_right_iff]
    exact (reflect.imp fun _ _ reflects => reflects.jsonName).flip
  rwa [List.forall₂_eq_eq_eq] at keys

theorem cat_members_faithful :
    let c := Catalog.ofDocument catDocument {}
    let told (p : PropertyModel) :=
      (p.name, p.jsonName, p.required, p.isOptional, p.isDiscriminator)
    ∃ record flat, answer (ofSchema c "Cat" (some "Cat") cat) {} = .ok record
      ∧ c.flatten (some "Cat") cat = .ok flat
      ∧ List.Forall₂ (Reflects c "Cat" cat flat) flat.properties record.properties
      ∧ record.properties.map told = [
        ("Cat2", "cat", false, true, false), ("Cat3", "Cat", false, true, false),
        ("Lives", "lives", true, false, false), ("Kind", "kind", true, false, true),
        ("Other", "other", false, false, false)] := by
  intro c told
  obtain ⟨record, made, flags⟩ : ∃ record, answer (ofSchema c "Cat" (some "Cat") cat) {} = .ok record
      ∧ record.properties.map told = [
        ("Cat2", "cat", false, true, false), ("Cat3", "Cat", false, true, false),
        ("Lives", "lives", true, false, false), ("Kind", "kind", true, false, true),
        ("Other", "other", false, false, false)] := ⟨_, rfl, by decide⟩
  obtain ⟨_, _, flat, flattened, _, reflect⟩ :=
    record_members_faithful c "Cat" (some "Cat") cat {} record made
  exact ⟨record, flat, made, flattened, reflect, flags⟩

end RecordModel

end OpenApi
