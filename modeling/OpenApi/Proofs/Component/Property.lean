import OpenApi.Proofs.Component.Composition
import OpenApi.Proofs.Json.Assoc

set_option autoImplicit false

namespace OpenApi

theorem FlatRecord.overlay_keys (flat other : FlatRecord) (name : String) :
    name ∈ Assoc.keys (flat.overlay other).properties
      ↔ name ∈ Assoc.keys flat.properties ∨ name ∈ Assoc.keys other.properties :=
  Assoc.put_all_keys flat.properties other.properties name

namespace Catalog

open Relation

theorem component_of_ok (c : Catalog) (name : String) (d : Component)
    (found : c.component name = .ok d) : c.component? name = some d := by
  rw [component] at found
  cases isComponent : c.component? name with
  | none => simp [isComponent] at found
  | some d' => simpa [isComponent] using found

-- What a member of `allOf` stands for: nothing if it is null, itself if it is inline, and otherwise
-- the component that it refers to.
def StandsFor (c : Catalog) (m t : Schema) : Prop :=
  m.isNullMember = false ∧ (m.reference = none ∧ t = m
    ∨ ∃ reference d, m.reference = some reference ∧ c.target reference = .ok d ∧ t = d.schema)

def Includes (c : Catalog) (s t : Schema) : Prop := ∃ m ∈ s.allOf, c.StandsFor m t

def DeclaresProperty (c : Catalog) (s : Schema) (name : String) : Prop :=
  ∃ t, ReflTransGen c.Includes s t ∧ name ∈ Assoc.keys t.properties

def Offers (c : Catalog) (flat : FlatRecord) (name : String) : Prop :=
  name ∈ Assoc.keys flat.properties
    ∨ ∃ base d, flat.base = some base ∧ c.component? base = some d
      ∧ c.DeclaresProperty d.schema name

section Names

variable (c : Catalog) (name : String)

theorem declares_property_iff (s : Schema) : c.DeclaresProperty s name ↔
    name ∈ Assoc.keys s.properties
      ∨ ∃ m ∈ s.allOf, ∃ t, c.StandsFor m t ∧ c.DeclaresProperty t name := by
  constructor
  · rintro ⟨t, path, declared⟩
    rcases path.cases_head with same | ⟨next, ⟨m, member, stands⟩, rest⟩
    · subst same
      exact .inl declared
    · exact .inr ⟨m, member, next, stands, t, rest, declared⟩
  · rintro (own | ⟨m, member, next, stands, t, rest, declared⟩)
    · exact ⟨s, .refl, own⟩
    · exact ⟨t, .head ⟨m, member, stands⟩ rest, declared⟩

theorem stands_for_null (m t : Schema) (isNull : m.isNullMember = true) : ¬ c.StandsFor m t := by
  intro stands
  simp [StandsFor, isNull] at stands

theorem stands_for_inline (m t : Schema) (present : m.isNullMember = false)
    (inline : m.reference = none) : c.StandsFor m t ↔ t = m := by
  simp [StandsFor, present, inline]

theorem stands_for_target (m t : Schema) (reference : String) (d : Component)
    (present : m.isNullMember = false) (refers : m.reference = some reference)
    (resolved : c.target reference = .ok d) : c.StandsFor m t ↔ t = d.schema := by
  simp [StandsFor, present, refers, resolved]

theorem offers_no_base (flat : FlatRecord) (free : flat.base = none) :
    c.Offers flat name ↔ name ∈ Assoc.keys flat.properties := by
  simp [Offers, free]

theorem offers_overlay (flat other : FlatRecord) : c.Offers (flat.overlay other) name
    ↔ c.Offers flat name ∨ name ∈ Assoc.keys other.properties := by
  have sameBase : (flat.overlay other).base = flat.base := rfl
  rw [Offers, Offers, FlatRecord.overlay_keys, sameBase, or_right_comm]

theorem offers_based (flat : FlatRecord) (reference : String) (d : Component)
    (free : flat.base = none) (resolved : c.target reference = .ok d) :
    c.Offers { flat with base := some d.name } name
      ↔ c.Offers flat name ∨ c.DeclaresProperty d.schema name := by
  have found := target_found c reference d resolved
  rw [offers_no_base c name flat free]
  simp [Offers, found]

section Flatten

variable (mixin : Component → Except Error FlatRecord) (mayInherit : Bool)
  (mixes : ∀ d all, mixin d = .ok all →
    (name ∈ Assoc.keys all.properties ↔ c.DeclaresProperty d.schema name))

include mixes

theorem member_offers (flat next : FlatRecord) (m : Schema)
    (inline : ∀ all, c.flattenWith mixin false m = .ok all →
      (c.Offers all name ↔ c.DeclaresProperty m name))
    (made : flattenMember c mixin mayInherit flat m = .ok next) :
    c.Offers next name ↔ c.Offers flat name ∨ ∃ t, c.StandsFor m t ∧ c.DeclaresProperty t name := by
  have step := member_taken_in c mixin mayInherit flat next m made
  cases step with
  | null isNull => simp [stands_for_null c m _ isNull]
  | inline all present isInline flattened =>
      have ownNames := inline all flattened
      have noBase := inline_no_base c mixin m all flattened
      rw [offers_no_base c name all noBase] at ownNames
      simp [offers_overlay, ownNames, stands_for_inline c m _ present isInline]
  | base reference d present refers resolved _ free =>
      have based := offers_based c name flat reference d free resolved
      simp [based, stands_for_target c m _ reference d present refers resolved]
  | mixin reference d all present refers resolved mixed =>
      have taken := mixes d all mixed
      simp [offers_overlay, taken, stands_for_target c m _ reference d present refers resolved]

theorem members_offer (members : List Schema) (flat flat' : FlatRecord)
    (inline : ∀ m ∈ members, ∀ all, c.flattenWith mixin false m = .ok all →
      (c.Offers all name ↔ c.DeclaresProperty m name))
    (made : c.flattenMembers mixin mayInherit flat members = .ok flat') :
    c.Offers flat' name ↔ c.Offers flat name
      ∨ ∃ m ∈ members, ∃ t, c.StandsFor m t ∧ c.DeclaresProperty t name := by
  induction members generalizing flat with
  | nil =>
      cases made
      simp
  | cons m rest ih =>
      rw [flatten_members_cons] at made
      obtain ⟨next, taken, made⟩ := ok_of_bind _ _ _ made
      rw [List.forall_mem_cons] at inline
      have first := member_offers c name mixin mayInherit mixes flat next m inline.1 taken
      rw [ih next inline.2 made, first, List.exists_mem_cons_iff, or_assoc]

theorem flatten_offers (s : Schema) (flat : FlatRecord)
    (made : c.flattenWith mixin mayInherit s = .ok flat) :
    c.Offers flat name ↔ c.DeclaresProperty s name := by
  induction s using Schema.child_induction generalizing mayInherit flat with
  | step s ih =>
      rw [flatten_with_eq] at made
      obtain ⟨members, composed, made⟩ := ok_of_bind _ _ _ made
      cases made
      have each := members_offer c name mixin mayInherit mixes s.allOf {} members
        (fun m member => ih m (s.child_of_all m member) false) composed
      have nothing : ¬ c.Offers {} name := by simp [Offers, Assoc.keys]
      have own : Assoc.keys (FlatRecord.own s).properties = Assoc.keys s.properties := rfl
      rw [offers_overlay, each, declares_property_iff c name s, own, or_iff_right nothing, or_comm]

end Flatten

theorem enter_declares_property (depth : Nat) (trail : List String) (cycle : String → Cycle)
    (d : Component) (flat : FlatRecord) (made : c.enterRecord depth trail cycle d = .ok flat) :
    name ∈ Assoc.keys flat.properties ↔ c.DeclaresProperty d.schema name := by
  induction depth generalizing trail cycle d flat with
  | zero => cases made
  | succ depth ih =>
      rw [enterRecord] at made
      by_cases again : trail.contains d.name = true
      · rw [if_pos again] at made
        cases made
      · rw [if_neg again] at made
        obtain ⟨own, flattened, made⟩ := ok_of_bind _ _ _ made
        have offers :=
          flatten_offers c name _ true (fun d' all => ih _ _ d' all) d.schema own flattened
        cases isBase : own.base with
        | none =>
            rw [isBase] at made
            cases made
            rw [← offers, offers_no_base c name flat isBase]
        | some base =>
            rw [isBase] at made
            obtain ⟨d', found, made⟩ := ok_of_bind _ _ _ made
            obtain ⟨inherited, entered, made⟩ := ok_of_bind _ _ _ made
            cases made
            have below := ih _ _ d' inherited entered
            have isComponent := component_of_ok c base d' found
            rw [FlatRecord.overlay_keys, below, ← offers]
            simp [Offers, isBase, isComponent, or_comm]

end Names

-- What a schema leads to in composition and by being nothing but a reference. Keywords beside the
-- reference do not count where they say nothing of structure.
def Follows (c : Catalog) (s t : Schema) : Prop :=
  c.Includes s t ∨ s.hasStructuralKeywords = false
    ∧ ∃ reference d, s.reference = some reference ∧ c.target reference = .ok d ∧ t = d.schema

theorem follows_included (c : Catalog) (s t : Schema)
    (composed : ∀ t, ReflTransGen c.Includes s t →
      t.reference = none ∨ t.hasStructuralKeywords = true)
    (path : ReflTransGen c.Follows s t) : ReflTransGen c.Includes s t := by
  induction path with
  | refl => exact .refl
  | tail _ last ih =>
      rcases last with included | ⟨plain, reference, d, refers, _⟩
      · exact ih.tail included
      · rcases composed _ ih with inline | structured
        · simp [inline] at refers
        · simp [structured] at plain

-- An entity, a component that only refers to it, and a record that is composed from that reference,
-- another record and an inline member.
def storedEntity : Document where
  version := .v31
  contents := { components := { schemas := [
    ("Entity", { properties := [("id", { type := some (.single "string") })] }),
    ("Stored", { reference := some "#/components/schemas/Entity" }),
    ("Named", { properties := [("name", { type := some (.single "string") })] }),
    ("Customer", { allOf := [
      { reference := some "#/components/schemas/Stored" },
      { reference := some "#/components/schemas/Named" },
      { properties := [("vip", { type := some (.single "boolean") })] }] })] } }

/-- The properties of a component are exactly those declared by the schemas that its schema includes
at any depth. None is lost where no component on the way is nothing but a reference; what such a
component refers to is not included. -/
theorem all_properties_declared (c : Catalog) (name : String) (flat : FlatRecord)
    (made : c.allProperties name = .ok flat) :
    ∃ d, c.component? name = some d
      ∧ (∀ property, property ∈ Assoc.keys flat.properties ↔ c.DeclaresProperty d.schema property)
      ∧ ((∀ s, ReflTransGen c.Includes d.schema s →
            s.reference = none ∨ s.hasStructuralKeywords = true) →
          ∀ s, ReflTransGen c.Follows d.schema s →
            ∀ property ∈ Assoc.keys s.properties, property ∈ Assoc.keys flat.properties) := by
  obtain ⟨d, found, entered⟩ := ok_of_bind _ _ _ made
  have declared := fun property => enter_declares_property c property _ _ _ d flat entered
  refine ⟨d, component_of_ok c name d found, declared, fun composed s path property own => ?_⟩
  have included := follows_included c d.schema s composed path
  exact (declared property).mpr ⟨s, included, own⟩

theorem stored_entity_properties :
    let c := ofDocument storedEntity {}
    ∃ flat, c.allProperties "Customer" = .ok flat ∧ Assoc.keys flat.properties = ["name", "vip"]
      ∧ ∃ d, c.component? "Customer" = some d ∧ ∀ property, property ∈ Assoc.keys flat.properties
          ↔ c.DeclaresProperty d.schema property := by
  intro c
  obtain ⟨d, found, declared, _⟩ := all_properties_declared c "Customer" _ rfl
  exact ⟨_, rfl, by decide, d, found, declared⟩

-- The entity is reached by a reference to a reference, and its property is lost.
theorem stored_entity_property_lost :
    let c := ofDocument storedEntity {}
    ∃ flat d s, c.allProperties "Customer" = .ok flat ∧ c.component? "Customer" = some d
      ∧ ReflTransGen c.Follows d.schema s ∧ "id" ∈ Assoc.keys s.properties
      ∧ "id" ∉ Assoc.keys flat.properties := by
  intro c
  let entity := c.components.get ⟨0, by decide⟩
  let stored := c.components.get ⟨1, by decide⟩
  let customer := c.components.get ⟨3, by decide⟩
  have toStored : c.Follows customer.schema stored.schema :=
    .inl ⟨{ reference := some "#/components/schemas/Stored" }, List.mem_cons_self, rfl,
      .inr ⟨_, stored, rfl, rfl, rfl⟩⟩
  have toEntity : c.Follows stored.schema entity.schema :=
    .inr ⟨rfl, _, entity, rfl, rfl, rfl⟩
  have path : ReflTransGen c.Follows customer.schema entity.schema :=
    (ReflTransGen.single toStored).tail toEntity
  exact ⟨_, customer, entity.schema, rfl, rfl, path, by decide, by decide⟩

end Catalog

end OpenApi
