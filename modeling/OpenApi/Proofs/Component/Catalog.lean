import OpenApi.Component.Variant
import OpenApi.Proofs.Naming.Fresh
import OpenApi.Proofs.Schema.Keyed

set_option autoImplicit false

namespace OpenApi

theorem ComponentKind.record_like_named (k : ComponentKind) (recordLike : k.isRecordLike = true) :
    k.isNamed = true := by
  cases k with
  | «alias» => cases recordLike
  | record | enumeration | tuple | union | hierarchy => rfl

namespace Schema

variable (s : Schema)

theorem composition_hierarchy (isHierarchy : s.compositionKind = .hierarchy) :
    s.discriminator.isSome = true := by
  rw [compositionKind] at isHierarchy
  grind

theorem union_no_hierarchy : s.unionKind ≠ .hierarchy := by
  rw [unionKind]
  grind

theorem literal_no_hierarchy : s.literalKind? ≠ some .hierarchy := by
  rw [literalKind?]
  grind

theorem object_hierarchy (isHierarchy : s.objectKind = .hierarchy) :
    s.discriminator.isSome = true := by
  rw [objectKind] at isHierarchy
  grind

-- Only a composition and a plain object can be the base of a hierarchy.
theorem kind_hierarchy (isHierarchy : s.kind = .hierarchy) : s.discriminator.isSome = true := by
  rw [kind] at isHierarchy
  split at isHierarchy
  · cases isHierarchy
  · split at isHierarchy
    · cases isHierarchy
    · split at isHierarchy
      · exact absurd isHierarchy s.union_no_hierarchy
      · split at isHierarchy
        · exact s.composition_hierarchy isHierarchy
        · cases literal : s.literalKind? with
          | none =>
              rw [literal] at isHierarchy
              exact s.object_hierarchy isHierarchy
          | some k =>
              rw [literal] at isHierarchy
              obtain rfl : k = .hierarchy := isHierarchy
              exact absurd literal s.literal_no_hierarchy

theorem hierarchy_declares (schemas : List (String × Schema))
    (isHierarchy : s.componentKind schemas = .hierarchy) : s.discriminator.isSome = true := by
  rw [componentKind] at isHierarchy
  split at isHierarchy
  · cases isHierarchy
  · exact s.kind_hierarchy isHierarchy

end Schema

namespace Component

variable (schemas : List (String × Schema))

def namedTypes (components : List Component) : List String :=
  (components.filter (·.kind.isNamed)).map (·.typeName)

theorem named_types_cons (d : Component) (rest : List Component) : namedTypes (d :: rest) =
    if d.kind.isNamed then d.typeName :: namedTypes rest else namedTypes rest := by
  rw [namedTypes, List.filter_cons]
  split <;> rfl

theorem classify_names (taken : List String) (entries : List (String × Schema)) :
    (classify schemas taken entries).map (·.name) = Assoc.keys entries := by
  induction entries generalizing taken with
  | nil => rfl
  | cons entry rest ih =>
      rw [classify]
      dsimp only
      split
      · rw [List.map_cons, ih]
        rfl
      · rw [List.map_cons, ih]
        rfl

theorem classify_mem (taken : List String) (entries : List (String × Schema)) (d : Component)
    (member : d ∈ classify schemas taken entries) :
    (d.name, d.schema) ∈ entries ∧ d.kind = d.schema.componentKind schemas := by
  induction entries generalizing taken with
  | nil => cases member
  | cons entry rest ih =>
      rw [classify] at member
      dsimp only at member
      split at member
      · rcases List.mem_cons.mp member with rfl | later
        · exact ⟨List.mem_cons_self, rfl⟩
        · exact ⟨List.mem_cons_of_mem _ (ih _ later).1, (ih _ later).2⟩
      · rcases List.mem_cons.mp member with rfl | later
        · exact ⟨List.mem_cons_self, rfl⟩
        · exact ⟨List.mem_cons_of_mem _ (ih _ later).1, (ih _ later).2⟩

theorem classify_type_names (taken : List String) (entries : List (String × Schema))
    (distinct : taken.Nodup) : (taken ++ namedTypes (classify schemas taken entries)).Nodup := by
  induction entries generalizing taken with
  | nil => simpa [classify, namedTypes] using distinct
  | cons entry rest ih =>
      rw [classify]
      dsimp only
      split
      · rename_i named
        rw [named_types_cons, if_pos named, List.append_cons]
        apply ih
        rw [← List.concat_eq_append]
        exact (List.nodup_concat _ _).mpr ⟨Naming.unique_free (baseName entry.1) taken, distinct⟩
      · rename_i unnamed
        rw [named_types_cons, if_neg unnamed]
        exact ih taken distinct

end Component

namespace Catalog

theorem mem_type_names (c : Catalog) (d : Component) (member : d ∈ c.components)
    (named : d.kind.isNamed = true) : d.typeName ∈ c.typeNames :=
  List.mem_map_of_mem (List.mem_filter.mpr ⟨member, named⟩)

theorem component_mem (c : Catalog) (name : String) (d : Component)
    (found : c.component? name = some d) : d ∈ c.components ∧ d.name = name :=
  ⟨List.mem_of_find?_eq_some found, by simpa using List.find?_some found⟩

theorem target_mem (c : Catalog) (reference : String) (found : Component)
    (resolved : c.target reference = .ok found) : found ∈ c.components := by
  rw [target] at resolved
  split at resolved
  · rename_i d present
    obtain rfl := Except.ok.inj resolved
    obtain ⟨name, _, isComponent⟩ := Option.bind_eq_some_iff.mp present
    exact (component_mem c name _ isComponent).1
  · cases resolved

structure Regular (c : Catalog) : Prop where
  keyed : ∀ d ∈ c.components, d.schema.isKeyed = true
  found : ∀ d ∈ c.components, c.component? d.name = some d
  declares : ∀ d ∈ c.components, d.kind = .hierarchy → d.schema.discriminator.isSome = true
  derived : ∀ base ∈ c.components, base.schema.discriminator.isSome = true →
    ∀ d ∈ c.components, refersTo d.schema base.name = true → d.kind.isNamed = true

section OfDocument

variable (document : Document) (config : Config)

theorem type_names_distinct : (ofDocument document config).typeNames.Nodup :=
  Component.classify_type_names document.schemas [] document.schemas List.nodup_nil

theorem component_source (d : Component) (member : d ∈ (ofDocument document config).components) :
    (d.name, d.schema) ∈ document.schemas ∧ d.kind = d.schema.componentKind document.schemas :=
  Component.classify_mem document.schemas [] document.schemas d member

variable (keyed : document.isKeyed = true)

include keyed

theorem component_found (d : Component) (member : d ∈ (ofDocument document config).components) :
    (ofDocument document config).component? d.name = some d := by
  have distinct : ((ofDocument document config).components.map (·.name)).Nodup := by
    have names := Component.classify_names document.schemas [] document.schemas
    rw [ofDocument]
    exact names ▸ ((document.keyed_iff).mp keyed).1
  cases found : (ofDocument document config).component? d.name with
  | none =>
      have absent := List.find?_eq_none.mp found d member
      exact absurd (beq_self_eq_true d.name) absent
  | some other =>
      obtain ⟨otherMember, sameName⟩ := component_mem _ d.name other found
      rw [List.inj_on_of_nodup_map distinct otherMember member sameName]

-- An alias that extends a hierarchy is promoted to a record.
theorem derived_named (base d : Component) (baseMember : base ∈ (ofDocument document config).components)
    (declares : base.schema.discriminator.isSome = true)
    (member : d ∈ (ofDocument document config).components)
    (refers : refersTo d.schema base.name = true) : d.kind.isNamed = true := by
  have looked : document.schemas.lookup base.name = some base.schema :=
    Assoc.lookup_of_mem document.schemas ((document.keyed_iff).mp keyed).1 _
      (component_source document config base baseMember).1
  have extending : d.schema.extendsHierarchy document.schemas = true := by
    rw [refersTo, List.any_eq_true] at refers
    obtain ⟨m, inAll, toBase⟩ := refers
    rw [Schema.extendsHierarchy, List.any_eq_true]
    refine ⟨m, inAll, ?_⟩
    rw [eq_of_beq toBase]
    dsimp only
    rw [looked, Option.any_some, declares]
  rw [(component_source document config d member).2, Schema.componentKind]
  by_cases isAlias : d.schema.kind = .alias
  · rw [if_pos ⟨isAlias, extending⟩]
    rfl
  · rw [if_neg fun both => isAlias both.1, ComponentKind.isNamed]
    exact bne_iff_ne.mpr isAlias

theorem regular_of_document : (ofDocument document config).Regular where
  keyed d member := ((document.keyed_iff).mp keyed).2 _ (component_source document config d member).1
  found := component_found document config keyed
  declares d member isHierarchy := by
    rw [(component_source document config d member).2] at isHierarchy
    exact d.schema.hierarchy_declares document.schemas isHierarchy
  derived base baseMember declares d := derived_named document config keyed base d baseMember declares

end OfDocument

end Catalog

end OpenApi
