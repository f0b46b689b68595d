import OpenApi.Proofs.Component.FlatRecord
import OpenApi.Proofs.Type.Resolve

set_option autoImplicit false

namespace OpenApi

namespace Catalog

open Resolution

def AnySchema : Schema → Prop := fun _ => True

theorem resolve_knows (c : Catalog) (s : Schema) (hint : Option String) :
    Lawful c AnySchema (c.resolve s hint) c.Knows :=
  resolve_lawful c AnySchema (fun _ _ _ _ => trivial) (fun _ _ => trivial) s trivial hint

theorem resolve_rest_knows (c : Catalog) (s : Schema) (hint : Option String) :
    Lawful c AnySchema (c.resolveRest s hint) fun r rest => ∀ t ∈ rest, c.Knows r t :=
  resolve_rest_lawful c AnySchema (fun _ _ _ _ => trivial) (fun _ _ => trivial) s trivial hint

theorem hierarchy_variants_named (c : Catalog) (regular : c.Regular) (base : Component)
    (member : base ∈ c.components) (declares : base.schema.discriminator.isSome = true) :
    ∀ v ∈ c.hierarchyVariants base.name, v.typeName ∈ c.typeNames := by
  intro v shown
  obtain ⟨derived, inDerived, rfl⟩ := List.mem_map.mp shown
  obtain ⟨d, isDerived, rfl⟩ := List.mem_map.mp inDerived
  obtain ⟨dMember, conditions⟩ := List.mem_filter.mp isDerived
  rw [Bool.and_eq_true] at conditions
  have named := regular.derived base member declares d dMember conditions.2
  dsimp only
  rw [typeName, regular.found d dMember]
  exact mem_type_names c d dMember named

theorem mapping_targets_cases (c : Catalog) (mapping : List (String × String))
    (targets : List (String × Component)) (made : c.mappingTargets mapping = .ok targets)
    (d : Component) : d ∈ targets.map (·.2) ↔ ∃ entry ∈ mapping,
      (Reference.mappingTarget? entry.2).bind c.component? = some d := by
  induction mapping generalizing targets with
  | nil =>
      obtain rfl := Except.ok.inj made
      simp
  | cons entry rest ih =>
      rcases entry with ⟨value, target⟩
      rw [mappingTargets] at made
      split at made
      · cases made
      · rename_i found resolved
        obtain ⟨others, restMade, remaining⟩ := ok_of_bind _ _ _ made
        obtain rfl := Except.ok.inj remaining
        rw [List.map_cons, List.mem_cons, ih others restMade]
        simp only [List.exists_mem_cons_iff, resolved, Option.some.injEq, eq_comm]

def HasMember (c : Catalog) (members : List Schema) (d : Component) : Prop :=
  ∃ m ∈ members, m.isNullOnly = false ∧
    ∃ reference, m.reference = some reference ∧ c.target reference = .ok d

def Targets (c : Catalog) (s : Schema) (d : Component) : Prop :=
  ∃ discriminator, s.discriminator = some discriminator
    ∧ ((∃ entry ∈ discriminator.mapping,
          (Reference.mappingTarget? entry.2).bind c.component? = some d)
        ∨ c.HasMember s.unionMembers d)

theorem targets_mem (c : Catalog) (s : Schema) (d : Component) (targets : c.Targets s d) :
    d ∈ c.components := by
  obtain ⟨_, _, ⟨_, _, resolved⟩ | ⟨_, _, _, reference, _, resolved⟩⟩ := targets
  · obtain ⟨name, _, isComponent⟩ := Option.bind_eq_some_iff.mp resolved
    exact (component_mem c name d isComponent).1
  · exact target_mem c reference d resolved

structure ShowsMembers (c : Catalog) (members : List Schema) (mapped : List String) (r : Registry)
    (variants : List Variant) : Prop where
  known : ∀ v ∈ variants, c.Covers r [v.typeName] ∨
    ∃ d, c.HasMember members d ∧ v.typeName = d.typeName
  shown : ∀ d, c.HasMember members d → d.name ∈ mapped ∨ ∃ v ∈ variants, v.typeName = d.typeName

section Members

variable (c : Catalog)

theorem has_member_cons (m : Schema) (rest : List Schema) (d : Component)
    (member : c.HasMember (m :: rest) d) : c.HasMember rest d ∨ (m.isNullOnly = false ∧
      ∃ reference, m.reference = some reference ∧ c.target reference = .ok d) := by
  obtain ⟨m', inMembers, refers⟩ := member
  rcases List.mem_cons.mp inMembers with rfl | later
  · exact .inr refers
  · exact .inl ⟨m', later, refers⟩

theorem has_member_later (m : Schema) (rest : List Schema) (d : Component)
    (member : c.HasMember rest d) : c.HasMember (m :: rest) d := by
  obtain ⟨m', inRest, refers⟩ := member
  exact ⟨m', List.mem_cons_of_mem m inRest, refers⟩

variable (m : Schema) (rest : List Schema) (mapped : List String) (r : Registry)
  (variants : List Variant)

theorem shows_lasting (members : List Schema) :
    Lasting fun r => c.ShowsMembers members mapped r variants := by
  intro r r' grown shows
  refine ⟨fun v member => ?_, shows.shown⟩
  exact (shows.known v member).imp_left (covers_lasting c _ r r' grown)

theorem shows_skip (shows : c.ShowsMembers rest mapped r variants)
    (nothingNew : m.isNullOnly = false → ∀ reference d, m.reference = some reference →
      c.target reference = .ok d → d.name ∈ mapped) :
    c.ShowsMembers (m :: rest) mapped r variants where
  known v member := (shows.known v member).imp_right fun ⟨d, inRest, same⟩ =>
    ⟨d, has_member_later c m rest d inRest, same⟩
  shown d member := by
    rcases has_member_cons c m rest d member with later | ⟨present, reference, refers, resolved⟩
    · exact shows.shown d later
    · exact .inl (nothingNew present reference d refers resolved)

theorem shows_component (d : Component) (reference : String) (present : m.isNullOnly = false)
    (refers : m.reference = some reference) (resolved : c.target reference = .ok d)
    (shows : c.ShowsMembers rest (mapped ++ [d.name]) r variants) :
    c.ShowsMembers (m :: rest) mapped r (⟨d.name, d.typeName⟩ :: variants) := by
  have same : ∀ d', c.component? d'.name = some d' → d'.name = d.name → d' = d := by
    intro d' found sameName
    rw [sameName, target_found c reference d resolved] at found
    exact (Option.some.inj found).symm
  constructor
  · intro v member
    rcases List.mem_cons.mp member with rfl | later
    · exact .inr ⟨d, ⟨m, List.mem_cons_self, present, reference, refers, resolved⟩, rfl⟩
    · rcases shows.known v later with known | ⟨d', inRest, sameType⟩
      · exact .inl known
      · exact .inr ⟨d', has_member_later c m rest d' inRest, sameType⟩
  · intro d' member
    rcases has_member_cons c m rest d' member with later | ⟨_, reference', refers', resolved'⟩
    · rcases shows.shown d' later with isMapped | ⟨v, inVariants, sameType⟩
      · rcases List.mem_append.mp isMapped with before | here
        · exact .inl before
        · obtain ⟨m', _, _, reference', _, resolved'⟩ := later
          obtain rfl := same d' (target_found c reference' d' resolved') (List.mem_singleton.mp here)
          exact .inr ⟨_, List.mem_cons_self, rfl⟩
      · exact .inr ⟨v, List.mem_cons_of_mem _ inVariants, sameType⟩
    · rw [refers] at refers'
      obtain rfl := Option.some.inj refers'
      rw [resolved] at resolved'
      obtain rfl := Except.ok.inj resolved'
      exact .inr ⟨_, List.mem_cons_self, rfl⟩

theorem shows_registered (name : String) (covered : c.Covers r [name])
    (shows : c.ShowsMembers rest mapped r variants) :
    c.ShowsMembers rest mapped r (⟨name, name⟩ :: variants) := by
  constructor
  · intro v member
    rcases List.mem_cons.mp member with rfl | later
    · exact .inl covered
    · exact shows.known v later
  · intro d member
    exact (shows.shown d member).imp_right fun ⟨v, inVariants, same⟩ =>
      ⟨v, List.mem_cons_of_mem _ inVariants, same⟩

end Members

theorem member_variants_lawful (c : Catalog) (union : String) (members : List Schema) (n : Nat)
    (mapped : List String) : Lawful c AnySchema (c.memberVariants union n mapped members)
      (c.ShowsMembers members mapped) := by
  induction members generalizing n mapped with
  | nil =>
      refine lawful_pure c AnySchema _ [] fun r => ⟨?_, ?_⟩
      · intro v absent
        cases absent
      · rintro d ⟨m, absent, _⟩
        cases absent
  | cons m rest ih =>
      rw [memberVariants]
      split
      · rename_i isNull
        refine lawful_weaken c AnySchema _ _ _ (ih (n + 1) mapped) fun r variants shows => ?_
        apply shows_skip c m rest mapped r variants shows
        intro present
        rw [isNull] at present
        cases present
      · rename_i isPresent
        have present : m.isNullOnly = false := by simpa using isPresent
        split
        · rename_i reference refers
          refine lawful_bind_lift c AnySchema _ _ _ fun d resolved => ?_
          split
          · rename_i isMapped
            refine lawful_weaken c AnySchema _ _ _ (ih (n + 1) mapped) fun r variants shows => ?_
            apply shows_skip c m rest mapped r variants shows
            intro _ reference' d' refers' resolved'
            rw [refers] at refers'
            obtain rfl := Option.some.inj refers'
            rw [resolved] at resolved'
            obtain rfl := Except.ok.inj resolved'
            exact List.contains_iff_mem.mp isMapped
          · refine lawful_bind c AnySchema _ _ _ _ ?_ (ih (n + 1) (mapped ++ [d.name])) ?_
            · exact fun variants => shows_lasting c _ variants rest
            · intro variants
              exact lawful_pure c AnySchema _ _ fun r =>
                shows_component c m rest mapped r variants d reference present refers resolved
        · rename_i inline
          have nothingNew : m.isNullOnly = false → ∀ reference d, m.reference = some reference →
              c.target reference = .ok d → d.name ∈ mapped := by
            intro _ reference d refers
            rw [inline] at refers
            cases refers
          refine lawful_bind c AnySchema c.Knows _ _ _ (knows_lasting c) (resolve_knows c m _) ?_
          intro t
          refine lawful_bind c AnySchema _ _ _ _ ?_ (ih (n + 1) mapped) fun variants => ?_
          · exact fun variants => shows_lasting c _ variants rest
          · split
            · rename_i name isNamed
              refine lawful_pure c AnySchema _ _ fun r shows known => ?_
              have covered : c.Covers r [name] := by
                rw [Knows, ResolvedType.names_of_type, TypeRef.names_of_name t.type name isNamed] at known
                exact known
              exact shows_registered c (m :: rest) mapped r variants name covered
                (shows_skip c m rest mapped r variants shows nothingNew)
            · exact lawful_pure c AnySchema _ _ fun r shows _ =>
                shows_skip c m rest mapped r variants shows nothingNew

structure ShowsTargets (c : Catalog) (s : Schema) (r : Registry) (variants : List Variant) :
    Prop where
  known : ∀ v ∈ variants, c.Covers r [v.typeName] ∨ ∃ d, c.Targets s d ∧ v.typeName = d.typeName
  shown : ∀ d, c.Targets s d → ∃ v ∈ variants, v.typeName = d.typeName

section Targets

variable (c : Catalog) (s : Schema) (r : Registry)

theorem shows_targets_lasting (variants : List Variant) :
    Lasting fun r => c.ShowsTargets s r variants := by
  intro r r' grown shows
  refine ⟨fun v member => ?_, shows.shown⟩
  exact (shows.known v member).imp_left (covers_lasting c _ r r' grown)

theorem shows_nothing (undeclared : s.discriminator = none) : c.ShowsTargets s r [] := by
  constructor
  · intro v absent
    cases absent
  · rintro d ⟨discriminator, declared, _⟩
    rw [undeclared] at declared
    cases declared

theorem shows_targets (discriminator : Discriminator) (declared : s.discriminator = some discriminator)
    (targets : List (String × Component))
    (made : c.mappingTargets discriminator.mapping = .ok targets) (others : List Variant)
    (shows : c.ShowsMembers s.unionMembers (targets.map (·.2.name)) r others) :
    c.ShowsTargets s r
      (targets.map (fun (value, found) => ⟨value, found.typeName⟩) ++ others) := by
  have targeted := mapping_targets_cases c discriminator.mapping targets made
  have mapped : ∀ d ∈ targets.map (·.2), ∃ v ∈ targets.map
      (fun (value, found) => (⟨value, found.typeName⟩ : Variant)), v.typeName = d.typeName := by
    intro d member
    obtain ⟨⟨value, found⟩, inTargets, rfl⟩ := List.mem_map.mp member
    exact ⟨⟨value, found.typeName⟩, List.mem_map_of_mem inTargets, rfl⟩
  constructor
  · intro v member
    rcases List.mem_append.mp member with isMapped | isMember
    · obtain ⟨⟨value, d⟩, inTargets, rfl⟩ := List.mem_map.mp isMapped
      have entry := (targeted d).mp (List.mem_map_of_mem inTargets)
      exact .inr ⟨d, ⟨discriminator, declared, .inl entry⟩, rfl⟩
    · rcases shows.known v isMember with known | ⟨d, inMembers, same⟩
      · exact .inl known
      · exact .inr ⟨d, ⟨discriminator, declared, .inr inMembers⟩, same⟩
  · rintro d ⟨discriminator', declared', target⟩
    rw [declared] at declared'
    obtain rfl := Option.some.inj declared'
    rcases target with entry | isMember
    · obtain ⟨v, inMapped, same⟩ := mapped d ((targeted d).mpr entry)
      exact ⟨v, List.mem_append_left _ inMapped, same⟩
    · rcases shows.shown d isMember with name | ⟨v, inOthers, same⟩
      · obtain ⟨⟨value, d'⟩, inTargets, sameName⟩ := List.mem_map.mp name
        have found' := (targeted d').mp (List.mem_map_of_mem inTargets)
        obtain ⟨entry, _, resolved'⟩ := found'
        obtain ⟨_, _, isComponent'⟩ := Option.bind_eq_some_iff.mp resolved'
        obtain ⟨_, _, _, reference, _, resolved⟩ := isMember
        have same := target_found c reference d resolved
        rw [← sameName, (component_mem c _ d' isComponent').2, isComponent'] at same
        obtain rfl := Option.some.inj same
        obtain ⟨v, inMapped, sameType⟩ := mapped d' (List.mem_map_of_mem inTargets)
        exact ⟨v, List.mem_append_left _ inMapped, sameType⟩
      · exact ⟨v, List.mem_append_right _ inOthers, same⟩

def unionVariants (union : String) : Resolution (List Variant) :=
  match s.discriminator with
  | none => pure []
  | some d => do
    let mapped ← c.mappingTargets d.mapping
    let others ← c.memberVariants union 1 (mapped.map (·.2.name)) s.unionMembers
    pure (mapped.map (fun (value, found) => ⟨value, found.typeName⟩) ++ others)

theorem union_shape_eq (union : String) : c.unionShape union s = (do
    let variants ← unionVariants c s union
    pure {
      exclusive := !s.oneOf.isEmpty
      discriminator := s.discriminator.map (·.propertyName)
      variants
      nullable := s.hasUnionNull }) := by
  rw [unionShape, unionVariants]
  cases s.discriminator with
  | none => rfl
  | some d => simp only [bind_assoc, pure_bind]

theorem union_variants_lawful (union : String) :
    Lawful c AnySchema (unionVariants c s union) (c.ShowsTargets s) := by
  rw [unionVariants]
  cases declared : s.discriminator with
  | none => exact lawful_pure c AnySchema _ [] fun r => shows_nothing c s r declared
  | some discriminator =>
      refine lawful_bind_lift c AnySchema _ _ _ fun targets made => ?_
      refine lawful_bind c AnySchema _ _ _ _
        (fun variants => shows_lasting c _ variants s.unionMembers)
        (member_variants_lawful c union s.unionMembers 1 _) fun others => ?_
      exact lawful_pure c AnySchema _ _ fun r =>
        shows_targets c s r discriminator declared targets made others

theorem union_shape_lawful (union : String) :
    Lawful c AnySchema (c.unionShape union s) fun r shape =>
      shape.discriminator = s.discriminator.map (·.propertyName)
        ∧ c.ShowsTargets s r shape.variants := by
  rw [union_shape_eq]
  refine lawful_bind c AnySchema _ _ _ _ (shows_targets_lasting c s)
    (union_variants_lawful c s union) fun variants => ?_
  exact lawful_pure c AnySchema _ _ fun r shows => ⟨rfl, shows⟩

end Targets

end Catalog

end OpenApi
