import OpenApi.Proofs.Component.Variant
import OpenApi.Proofs.Schema.Same
import OpenApi.Proofs.Type.Steps

set_option autoImplicit false

namespace OpenApi.Catalog

open Resolution

section Hierarchy

variable (c : Catalog) (base : String)

def mappedValue? (derived : String) : Option String :=
  ((((c.discriminator? base).map (·.mapping)).getD []).find? fun (_, target) =>
    Reference.mappingTarget? target == some derived).map (·.1)

theorem discriminator_value_eq (derived : String) :
    c.discriminatorValue base derived = (c.mappedValue? base derived).getD derived := by
  rw [discriminatorValue, mappedValue?]
  dsimp only
  generalize List.find? _ _ = found
  cases found <;> rfl

variable (distinct : ∀ d, c.discriminator? base = some d → (Assoc.keys d.mapping).Nodup)

include distinct

theorem mapped_value_injective (derived other value : String)
    (mapped : c.mappedValue? base derived = some value)
    (otherMapped : c.mappedValue? base other = some value) : derived = other := by
  cases declared : c.discriminator? base with
  | none => simp [mappedValue?, declared] at mapped
  | some d =>
      rw [mappedValue?, declared] at mapped otherMapped
      obtain ⟨entry, found, rfl⟩ := Option.map_eq_some_iff.mp mapped
      obtain ⟨entry', found', sameKey⟩ := Option.map_eq_some_iff.mp otherMapped
      have keys := distinct d declared
      have here := Assoc.lookup_of_mem d.mapping keys entry (List.mem_of_find?_eq_some found)
      have there := Assoc.lookup_of_mem d.mapping keys entry' (List.mem_of_find?_eq_some found')
      rw [sameKey, here] at there
      have targets := List.find?_some found
      have targets' := List.find?_some found'
      rw [beq_iff_eq] at targets targets'
      rw [← Option.some.inj there, targets] at targets'
      exact Option.some.inj targets'

theorem hierarchy_values_distinct_iff (derivedDistinct : (c.derivedTypes base).Nodup) :
    ((c.hierarchyVariants base).map (·.value)).Nodup ↔
      ∀ d ∈ c.derivedTypes base, ∀ other ∈ c.derivedTypes base,
        c.mappedValue? base d = some other → c.mappedValue? base other ≠ none := by
  have values : (c.hierarchyVariants base).map (·.value)
      = (c.derivedTypes base).map (c.discriminatorValue base) := by
    rw [hierarchyVariants, List.map_map]
    rfl
  rw [values, List.nodup_map_iff_inj_on derivedDistinct]
  simp only [discriminator_value_eq]
  constructor
  · intro injective d isDerived other isOther mapped unmapped
    have same := injective d isDerived other isOther (by rw [mapped, unmapped]; rfl)
    rw [same, unmapped] at mapped
    cases mapped
  · intro noClash d isDerived other isOther sameValue
    cases mapped : c.mappedValue? base d with
    | none =>
        cases otherMapped : c.mappedValue? base other with
        | none => simpa [mapped, otherMapped] using sameValue
        | some value =>
            rw [mapped, otherMapped] at sameValue
            cases sameValue
            exact absurd mapped (noClash other isOther _ isDerived otherMapped)
    | some value =>
        cases otherMapped : c.mappedValue? base other with
        | none =>
            rw [mapped, otherMapped] at sameValue
            cases sameValue
            exact absurd otherMapped (noClash d isDerived _ isOther mapped)
        | some value' =>
            rw [mapped, otherMapped] at sameValue
            cases sameValue
            exact c.mapped_value_injective base distinct d other _ mapped otherMapped

end Hierarchy

section Members

variable (c : Catalog) (union : String)

def inlineNames : Nat → List Schema → Resolution (List String)
  | _, [] => pure []
  | n, m :: rest =>
    if m.isNullOnly || m.reference.isSome then inlineNames (n + 1) rest
    else do
      let t ← c.resolve m (some (optionName union n))
      let others ← inlineNames (n + 1) rest
      pure (t.type.name?.toList ++ others)

inductive AddsVariants (n : Nat) (mapped : List String) (m : Schema) (rest : List Schema)
    (r : Registry) : List Variant → Prop
  | null (variants : List Variant) (isNull : m.isNullOnly = true)
      (later : answer (c.memberVariants union (n + 1) mapped rest) r = .ok variants) :
      AddsVariants n mapped m rest r variants
  | again (reference : String) (d : Component) (variants : List Variant)
      (present : m.isNullOnly = false) (refers : m.reference = some reference)
      (resolved : c.target reference = .ok d) (isMapped : d.name ∈ mapped)
      (later : answer (c.memberVariants union (n + 1) mapped rest) r = .ok variants) :
      AddsVariants n mapped m rest r variants
  | component (reference : String) (d : Component) (others : List Variant)
      (present : m.isNullOnly = false) (refers : m.reference = some reference)
      (resolved : c.target reference = .ok d) (isNew : d.name ∉ mapped)
      (later : answer (c.memberVariants union (n + 1) (mapped ++ [d.name]) rest) r = .ok others) :
      AddsVariants n mapped m rest r (⟨d.name, d.typeName⟩ :: others)
  | inline (t : ResolvedType) (others : List Variant) (present : m.isNullOnly = false)
      (inline : m.reference = none)
      (resolved : answer (c.resolve m (some (optionName union n))) r = .ok t)
      (later : answer (c.memberVariants union (n + 1) mapped rest)
        (after (c.resolve m (some (optionName union n))) r) = .ok others) :
      AddsVariants n mapped m rest r (t.type.name?.toList.map (fun name => ⟨name, name⟩) ++ others)

theorem member_adds (n : Nat) (mapped : List String) (m : Schema) (rest : List Schema)
    (r : Registry) (variants : List Variant)
    (made : answer (c.memberVariants union n mapped (m :: rest)) r = .ok variants) :
    AddsVariants c union n mapped m rest r variants := by
  rw [memberVariants] at made
  by_cases isNull : m.isNullOnly = true
  · rw [if_pos isNull] at made
    exact .null variants isNull made
  · rw [if_neg isNull] at made
    have present : m.isNullOnly = false := by simpa using isNull
    split at made
    · rename_i reference refers
      cases resolved : c.target reference with
      | error e =>
          rw [resolved] at made
          cases made
      | ok d =>
          rw [resolved] at made
          have made : answer (if mapped.contains d.name then
              c.memberVariants union (n + 1) mapped rest
            else do
              let others ← c.memberVariants union (n + 1) (mapped ++ [d.name]) rest
              pure (⟨d.name, d.typeName⟩ :: others)) r = .ok variants := made
          by_cases isMapped : d.name ∈ mapped
          · rw [if_pos (List.contains_iff_mem.mpr isMapped)] at made
            exact .again reference d variants present refers resolved isMapped made
          · rw [if_neg (mt List.contains_iff_mem.mp isMapped)] at made
            obtain ⟨others, later, made⟩ := answered_bind _ _ r variants made
            cases made
            exact .component reference d others present refers resolved isMapped later
    · rename_i inline
      obtain ⟨t, resolved, made⟩ := answered_bind _ _ r variants made
      obtain ⟨others, later, made⟩ := answered_bind _ _ _ variants made
      have adds := AddsVariants.inline t others present inline resolved later
      split at made
      · rename_i name isNamed
        cases made
        rwa [isNamed] at adds
      · rename_i unnamed
        cases made
        rwa [unnamed] at adds

structure ImplicitNames (members : List Schema) (mapped names : List String) : Prop where
  distinct : names.Nodup
  referred : ∀ name, name ∈ names ↔ name ∉ mapped ∧ ∃ d, c.HasMember members d ∧ d.name = name

theorem implicit_nothing (mapped : List String) : ImplicitNames c [] mapped [] := by
  refine ⟨List.nodup_nil, fun name => ⟨nofun, ?_⟩⟩
  rintro ⟨_, d, ⟨m, absent, _⟩, _⟩
  cases absent

theorem implicit_skip (m : Schema) (rest : List Schema) (mapped names : List String)
    (skips : ∀ d, m.isNullOnly = false → ∀ reference, m.reference = some reference →
      c.target reference = .ok d → d.name ∈ mapped)
    (later : ImplicitNames c rest mapped names) : ImplicitNames c (m :: rest) mapped names := by
  refine ⟨later.distinct, fun name => ?_⟩
  rw [later.referred name]
  refine and_congr_right fun isNew => ?_
  constructor
  · rintro ⟨d, member, isName⟩
    exact ⟨d, has_member_later c m rest d member, isName⟩
  · rintro ⟨d, member, rfl⟩
    rcases has_member_cons c m rest d member with inRest | ⟨present, reference, refers, resolved⟩
    · exact ⟨d, inRest, rfl⟩
    · exact absurd (skips d present reference refers resolved) isNew

theorem implicit_new (m : Schema) (rest : List Schema) (mapped names : List String)
    (reference : String) (d : Component) (present : m.isNullOnly = false)
    (refers : m.reference = some reference) (resolved : c.target reference = .ok d)
    (isNew : d.name ∉ mapped) (later : ImplicitNames c rest (mapped ++ [d.name]) names) :
    ImplicitNames c (m :: rest) mapped (d.name :: names) := by
  have unlisted : d.name ∉ names := fun listed => ((later.referred d.name).mp listed).1 (by simp)
  refine ⟨List.nodup_cons.mpr ⟨unlisted, later.distinct⟩, fun name => ?_⟩
  have here : c.HasMember (m :: rest) d :=
    ⟨m, List.mem_cons_self, present, reference, refers, resolved⟩
  rw [List.mem_cons, later.referred name]
  constructor
  · rintro (rfl | ⟨isOther, d', member, isName⟩)
    · exact ⟨isNew, d, here, rfl⟩
    · refine ⟨fun isMapped => isOther (List.mem_append_left _ isMapped), d', ?_, isName⟩
      exact has_member_later c m rest d' member
  · rintro ⟨unmapped, d', member, rfl⟩
    by_cases same : d'.name = d.name
    · exact .inl same
    · refine .inr ⟨by simp [unmapped, same], d', ?_, rfl⟩
      rcases has_member_cons c m rest d' member with inRest | ⟨_, reference', refers', resolved'⟩
      · exact inRest
      · rw [refers] at refers'
        cases refers'
        rw [resolved] at resolved'
        cases resolved'
        exact absurd rfl same

theorem member_values (members : List Schema) (n : Nat) (mapped : List String) (r : Registry)
    (variants : List Variant)
    (made : answer (c.memberVariants union n mapped members) r = .ok variants) :
    ∃ inline names, answer (c.inlineNames union n members) r = .ok inline
      ∧ ImplicitNames c members mapped names
      ∧ (variants.map (·.value)).Perm (names ++ inline) := by
  induction members generalizing n mapped r variants with
  | nil =>
      cases made
      exact ⟨[], [], rfl, implicit_nothing c mapped, .nil⟩
  | cons m rest ih =>
      rw [inlineNames]
      have adds := member_adds c union n mapped m rest r variants made
      cases adds with
      | null _ isNull later =>
          obtain ⟨inline, names, inlineMade, implicit, same⟩ := ih (n + 1) mapped r variants later
          have skips := implicit_skip c m rest mapped names (by simp [isNull]) implicit
          exact ⟨inline, names, by simpa [isNull] using inlineMade, skips, same⟩
      | again reference d _ present refers resolved isMapped later =>
          obtain ⟨inline, names, inlineMade, implicit, same⟩ := ih (n + 1) mapped r variants later
          have skips := implicit_skip c m rest mapped names
            (fun d' _ reference' refers' resolved' => by simp_all) implicit
          exact ⟨inline, names, by simpa [refers] using inlineMade, skips, same⟩
      | component reference d others present refers resolved isNew later =>
          obtain ⟨inline, names, inlineMade, implicit, same⟩ := ih (n + 1) _ r others later
          have adds := implicit_new c m rest mapped names reference d present refers resolved isNew
            implicit
          exact ⟨inline, d.name :: names, by simpa [refers] using inlineMade, adds, same.cons _⟩
      | inline t others present inline resolved later =>
          obtain ⟨inlineLater, names, inlineMade, implicit, same⟩ :=
            ih (n + 1) mapped _ others later
          have skips := implicit_skip c m rest mapped names (by simp [inline]) implicit
          refine ⟨t.type.name?.toList ++ inlineLater, names, ?_, skips, ?_⟩
          · have resolves : ¬ (m.isNullOnly || m.reference.isSome) = true := by
              simp [present, inline]
            rw [if_neg resolves, answer_bind, resolved]
            dsimp only
            rw [answer_bind, inlineMade]
            rfl
          · have sameNames (names : List String) :
                (names.map fun name => Variant.mk name name).map (·.value) = names := by
              simp [Function.comp_def]
            rw [List.map_append, sameNames]
            exact (same.append_left _).trans (List.perm_append_comm_assoc _ names inlineLater)

end Members

section Union

variable (c : Catalog) (union : String) (s : Schema) (d : Discriminator)

def IsMapped (mapping : List (String × String)) (target : Component) : Prop :=
  ∃ entry ∈ mapping, (Reference.mappingTarget? entry.2).bind c.component? = some target

theorem mapping_targets_keys (mapping : List (String × String))
    (targets : List (String × Component)) (made : c.mappingTargets mapping = .ok targets) :
    Assoc.keys targets = Assoc.keys mapping := by
  induction mapping generalizing targets with
  | nil =>
      cases made
      rfl
  | cons entry rest ih =>
      rcases entry with ⟨value, target⟩
      rw [mappingTargets] at made
      split at made
      · cases made
      · obtain ⟨others, restMade, remaining⟩ := ok_of_bind _ _ _ made
        cases remaining
        exact congrArg (value :: ·) (ih others restMade)

theorem mapped_name_iff (mapping : List (String × String)) (targets : List (String × Component))
    (made : c.mappingTargets mapping = .ok targets) (members : List Schema) (target : Component)
    (member : c.HasMember members target) :
    target.name ∈ targets.map (·.2.name) ↔ IsMapped c mapping target := by
  have cases := mapping_targets_cases c mapping targets made
  constructor
  · intro isName
    obtain ⟨⟨value, other⟩, inTargets, sameName⟩ := List.mem_map.mp isName
    obtain ⟨entry, isEntry, resolved⟩ := (cases other).mp (List.mem_map_of_mem inTargets)
    obtain ⟨_, _, isComponent⟩ := Option.bind_eq_some_iff.mp resolved
    obtain ⟨_, _, _, reference, _, found⟩ := member
    have same := target_found c reference target found
    rw [← sameName, (component_mem c _ other isComponent).2, isComponent] at same
    cases same
    exact ⟨entry, isEntry, resolved⟩
  · intro isMapped
    obtain ⟨⟨value, other⟩, inTargets, same⟩ := List.mem_map.mp ((cases target).mpr isMapped)
    cases same
    exact List.mem_map_of_mem inTargets

theorem union_shape_made (r : Registry) (shape : UnionShape) (declared : s.discriminator = some d)
    (made : answer (c.unionShape union s) r = .ok shape) :
    ∃ targets others, c.mappingTargets d.mapping = .ok targets
      ∧ answer (c.memberVariants union 1 (targets.map (·.2.name)) s.unionMembers) r = .ok others
      ∧ shape.variants = targets.map (fun (value, found) => ⟨value, found.typeName⟩) ++ others := by
  rw [union_shape_eq, unionVariants, declared] at made
  obtain ⟨variants, variantsMade, made⟩ := answered_bind _ _ r shape made
  cases made
  dsimp only at variantsMade
  cases targeted : c.mappingTargets d.mapping with
  | error e =>
      rw [targeted] at variantsMade
      cases variantsMade
  | ok targets =>
      rw [targeted] at variantsMade
      obtain ⟨_, lifted, variantsMade⟩ := answered_bind _ _ r variants variantsMade
      cases lifted
      obtain ⟨others, othersMade, variantsMade⟩ := answered_bind _ _ _ variants variantsMade
      cases variantsMade
      exact ⟨targets, others, rfl, othersMade, rfl⟩

theorem union_values_distinct_iff (r : Registry) (shape : UnionShape)
    (declared : s.discriminator = some d) (distinct : (Assoc.keys d.mapping).Nodup)
    (made : answer (c.unionShape union s) r = .ok shape) :
    ∃ inline, answer (c.inlineNames union 1 s.unionMembers) r = .ok inline
      ∧ ((shape.variants.map (·.value)).Nodup ↔ inline.Nodup
        ∧ (∀ name ∈ inline, name ∉ Assoc.keys d.mapping)
        ∧ ∀ target, c.HasMember s.unionMembers target → IsMapped c d.mapping target
          ∨ target.name ∉ Assoc.keys d.mapping ∧ target.name ∉ inline) := by
  obtain ⟨targets, others, targeted, othersMade, shown⟩ :=
    union_shape_made c union s d r shape declared made
  obtain ⟨inline, names, inlineMade, implicit, same⟩ :=
    member_values c union s.unionMembers 1 _ r others othersMade
  refine ⟨inline, inlineMade, ?_⟩
  have keys : (targets.map fun (value, found) => Variant.mk value found.typeName).map (·.value)
      = Assoc.keys d.mapping := by
    rw [← mapping_targets_keys c d.mapping targets targeted, List.map_map]
    rfl
  have mapped := mapped_name_iff c d.mapping targets targeted s.unionMembers
  rw [shown, List.map_append, keys, (same.append_left _).nodup_iff]
  simp only [List.nodup_append, distinct, implicit.distinct, true_and]
  constructor
  · rintro ⟨⟨inlineDistinct, namesApart⟩, keysApart⟩
    refine ⟨inlineDistinct, fun name isInline isKey => ?_, fun target member => ?_⟩
    · exact keysApart name isKey name (List.mem_append_right _ isInline) rfl
    · rw [or_iff_not_imp_left, ← mapped target member]
      intro unmapped
      have isName := (implicit.referred target.name).mpr ⟨unmapped, target, member, rfl⟩
      refine ⟨fun isKey => ?_, fun isInline => namesApart _ isName _ isInline rfl⟩
      exact keysApart _ isKey _ (List.mem_append_left _ isName) rfl
  · rintro ⟨inlineDistinct, inlineApart, membersApart⟩
    have apart : ∀ name ∈ names, name ∉ Assoc.keys d.mapping ∧ name ∉ inline := by
      intro name isName
      obtain ⟨unmapped, target, member, rfl⟩ := (implicit.referred name).mp isName
      exact (membersApart target member).resolve_left (mt (mapped target member).mpr unmapped)
    refine ⟨⟨inlineDistinct, ?_⟩, ?_⟩
    · rintro name isName _ isInline rfl
      exact (apart name isName).2 isInline
    · rintro key isKey _ isValue rfl
      rcases List.mem_append.mp isValue with isName | isInline
      · exact (apart key isName).1 isKey
      · exact inlineApart key isInline isKey

end Union

section OfDocument

variable (document : Document) (config : Config) (keyed : document.isKeyed = true)

include keyed

theorem derived_types_distinct (base : String) :
    ((ofDocument document config).derivedTypes base).Nodup := by
  have names := Component.classify_names document.schemas [] document.schemas
  have distinct : ((ofDocument document config).components.map (·.name)).Nodup := by
    rw [ofDocument]
    exact names ▸ ((document.keyed_iff).mp keyed).1
  exact distinct.sublist (List.filter_sublist.map _)

theorem declared_keys_distinct (base : String) (d : Discriminator)
    (declared : (ofDocument document config).discriminator? base = some d) :
    (Assoc.keys d.mapping).Nodup := by
  obtain ⟨component, found, declares⟩ := Option.bind_eq_some_iff.mp declared
  have member := (component_mem _ base component found).1
  have schemaKeyed := (regular_of_document document config keyed).keyed component member
  exact component.schema.keyed_mapping ((component.schema.keyed_iff).mp schemaKeyed).1 d declares

end OfDocument

def mappedPets (key target : String) : Document where
  version := .v31
  contents := { components := { schemas := [
    ("Pet", {
      properties := [("kind", { type := some (.single "string") })]
      discriminator := some { propertyName := "kind", mapping := [(key, target)] } }),
    ("Cat", { allOf := [{ reference := some "#/components/schemas/Pet" }] }),
    ("Dog", { allOf := [{ reference := some "#/components/schemas/Pet" }] })] } }

def petUnion (key target : String) : Schema where
  oneOf := [
    { reference := some "#/components/schemas/Cat" },
    { reference := some "#/components/schemas/Dog" },
    { properties := [("kind", { type := some (.single "string") })] }]
  discriminator := some { propertyName := "kind", mapping := [(key, target)] }

/-- The discriminator values of the variants are different exactly if no key is taken for the name
of a component that has none: in a hierarchy, for what is derived from its base, and in a union, for
what its members refer to. In a union, the types of inline members must not be called alike, nor
like a key or such a component. -/
theorem discriminator_values_distinct_iff (document : Document) (config : Config)
    (keyed : document.isKeyed = true) :
    let c := ofDocument document config
    (∀ base, ((c.hierarchyVariants base).map (·.value)).Nodup ↔
        ∀ d ∈ c.derivedTypes base, ∀ other ∈ c.derivedTypes base,
          c.mappedValue? base d = some other → c.mappedValue? base other ≠ none)
      ∧ ∀ union s r shape, s.isKeyed = true → answer (c.unionShape union s) r = .ok shape →
        (s.discriminator = none → shape.variants = [])
          ∧ ∀ d, s.discriminator = some d →
            ∃ inline, answer (c.inlineNames union 1 s.unionMembers) r = .ok inline
              ∧ ((shape.variants.map (·.value)).Nodup ↔ inline.Nodup
                ∧ (∀ name ∈ inline, name ∉ Assoc.keys d.mapping)
                ∧ ∀ target, c.HasMember s.unionMembers target → IsMapped c d.mapping target
                  ∨ target.name ∉ Assoc.keys d.mapping ∧ target.name ∉ inline) := by
  intro c
  refine ⟨fun base => ?_, fun union s r shape schemaKeyed made => ⟨fun undeclared => ?_, ?_⟩⟩
  · exact c.hierarchy_values_distinct_iff base (declared_keys_distinct document config keyed base)
      (derived_types_distinct document config keyed base)
  · rw [union_shape_eq, unionVariants, undeclared] at made
    cases made
    rfl
  · intro d declared
    have distinct := s.keyed_mapping ((s.keyed_iff).mp schemaKeyed).1 d declared
    exact c.union_values_distinct_iff union s d r shape declared distinct made

theorem feline_pets_distinct :
    let c := ofDocument (mappedPets "feline" "Cat") {}
    (c.hierarchyVariants "Pet").map (·.value) = ["feline", "Dog"]
      ∧ ((c.hierarchyVariants "Pet").map (·.value)).Nodup
      ∧ ∃ shape, answer (c.unionShape "Animal" (petUnion "feline" "Cat")) {} = .ok shape
        ∧ shape.variants.map (·.value) = ["feline", "Dog", "AnimalOption3"]
        ∧ ∀ d, (petUnion "feline" "Cat").discriminator = some d → ∀ target,
          c.HasMember (petUnion "feline" "Cat").unionMembers target →
            IsMapped c d.mapping target ∨ target.name ∉ Assoc.keys d.mapping := by
  intro c
  obtain ⟨hierarchies, unions⟩ :=
    discriminator_values_distinct_iff (mappedPets "feline" "Cat") {} (by decide)
  refine ⟨by decide, (hierarchies "Pet").mpr (by decide), _, rfl, by decide, ?_⟩
  intro d declared target member
  obtain ⟨_, _, distinct⟩ := (unions "Animal" (petUnion "feline" "Cat") {} _ rfl rfl).2 d declared
  exact ((distinct.mp (by decide)).2.2 target member).imp_right And.left

-- The key of one component is the name of the other.
theorem swapped_pets_clash :
    let c := ofDocument (mappedPets "Cat" "Dog") {}
    c.hierarchyVariants "Pet" = [⟨"Cat", "Cat"⟩, ⟨"Cat", "Dog"⟩]
      ∧ ¬ ((c.hierarchyVariants "Pet").map (·.value)).Nodup
      ∧ ∃ shape, answer (c.unionShape "Animal" (petUnion "Cat" "Dog")) {} = .ok shape
        ∧ ¬ (shape.variants.map (·.value)).Nodup := by
  intro c
  exact ⟨by decide, by decide, _, rfl, by decide⟩

end OpenApi.Catalog
