import OpenApi.Proofs.Type.Wrapper

set_option autoImplicit false

namespace OpenApi

namespace Schema

-- What several levels say laid over a type, the first of them last.
def overAll (levels : List Schema) (t : ResolvedType) : ResolvedType := levels.foldr Schema.over t

structure Overlays (levels : List Schema) (t t' : ResolvedType) : Prop where
  type : t'.type = t.type
  nullable : t'.nullable = true
    ↔ t.nullable = true ∨ ∃ s ∈ levels, (TypeFlags.ofSchema s).includesNull = true
  description : t'.description = (levels.findSome? (·.description) <|> t.description)
  default : t'.default = (levels.findSome? (·.default) <|> t.default)
  deprecated : t'.deprecated = (levels.findSome? (·.deprecated)).getD t.deprecated
  readOnly : t'.readOnly = (levels.findSome? (·.readOnly)).getD t.readOnly
  writeOnly : t'.writeOnly = (levels.findSome? (·.writeOnly)).getD t.writeOnly
  validation : t'.validation = levels.foldr (fun s v => v.mergedWith s.validation) t.validation

section Levels

variable (levels : List Schema) (t : ResolvedType)

theorem over_all_type : (overAll levels t).type = t.type := by
  induction levels with
  | nil => rfl
  | cons s rest ih => exact (s.over_type _).trans ih

theorem over_all_validation : (overAll levels t).validation
    = levels.foldr (fun s v => v.mergedWith s.validation) t.validation := by
  induction levels with
  | nil => rfl
  | cons s rest ih => exact congrArg (·.mergedWith s.validation) ih

theorem over_all_nullable : (overAll levels t).nullable = true
    ↔ t.nullable = true ∨ ∃ s ∈ levels, (TypeFlags.ofSchema s).includesNull = true := by
  induction levels with
  | nil => simp [overAll]
  | cons s rest ih =>
      have own : (overAll (s :: rest) t).nullable
          = ((overAll rest t).nullable || (TypeFlags.ofSchema s).includesNull) := rfl
      rw [own, Bool.or_eq_true, ih, List.exists_mem_cons_iff, or_assoc,
        or_comm (a := (TypeFlags.ofSchema s).includesNull = true)]

section Annotation

variable {α : Type} (own : Schema → Option α)

theorem over_all_outermost (field : ResolvedType → Option α)
    (sets : ∀ s t, field (s.over t) = (own s <|> field t)) :
    field (overAll levels t) = (levels.findSome? own <|> field t) := by
  induction levels with
  | nil => rfl
  | cons s rest ih =>
      have outer : field (overAll (s :: rest) t) = (own s <|> field (overAll rest t)) := sets s _
      rw [outer, ih, List.findSome?_cons]
      cases own s <;> rfl

theorem over_all_outermost_flag (field : ResolvedType → α)
    (sets : ∀ s t, field (s.over t) = (own s).getD (field t)) :
    field (overAll levels t) = (levels.findSome? own).getD (field t) := by
  have present := over_all_outermost levels t own (some <| field ·) fun s t => by
    rw [sets]
    cases own s <;> rfl
  apply Option.some.inj
  rw [present]
  cases levels.findSome? own <;> rfl

end Annotation

theorem over_all_overlays : Overlays levels t (overAll levels t) where
  type := over_all_type levels t
  nullable := over_all_nullable levels t
  description := over_all_outermost levels t _ (·.description) fun _ _ => rfl
  default := over_all_outermost levels t _ (·.default) fun _ _ => rfl
  deprecated := over_all_outermost_flag levels t _ (·.deprecated) fun _ _ => rfl
  readOnly := over_all_outermost_flag levels t _ (·.readOnly) fun _ _ => rfl
  writeOnly := over_all_outermost_flag levels t _ (·.writeOnly) fun _ _ => rfl
  validation := over_all_validation levels t

end Levels

theorem bare_reference_over (reference : String) (t : ResolvedType) :
    Schema.over { reference := some reference } t = t := by
  have silent : IsSilent { reference := some reference } := by constructor <;> rfl
  rw [silent_over _ silent]
  exact t.or_null_false

theorem simple_reference_alias (schemas : List (String × Schema)) (s : Schema) (reference : String)
    (refers : s.reference = some reference) (simple : s.hasStructuralKeywords = false) :
    s.componentKind schemas = .alias := by
  have plain : s.allOf = [] := by
    simp only [hasStructuralKeywords, isComposition, Bool.or_eq_false_iff] at simple
    simpa using simple.1.1.1.2.1.1
  rw [Catalog.plain_component_kind schemas s plain, kind, refers]
  rfl

end Schema

namespace Resolution

variable {α β : Type}

def Fails (m : Resolution α) : Prop := ∀ r a, answer m r ≠ .ok a

theorem refines_of_fails (m m' : Resolution α) (fails : Fails m) : Refines m m' :=
  fun r a found => absurd found (fails r a)

theorem fails_throw (e : Error) : Fails (throw e : Resolution α) := fun _ _ found => by cases found

theorem fails_map (m : Resolution α) (f : α → β) (fails : Fails m) : Fails (f <$> m) := by
  intro r b found
  rw [answer_map] at found
  cases first : answer m r with
  | error e =>
      rw [first] at found
      cases found
  | ok a => exact fails r a first

theorem refines_map (m m' : Resolution α) (f : α → β) (refines : Refines m m') :
    Refines (f <$> m) (f <$> m') := by
  rw [map_eq_pure_bind, map_eq_pure_bind]
  exact refines_bind m m' _ _ refines fun a => refines_refl (pure (f a))

end Resolution

namespace Catalog

open Resolution

inductive LeadsThrough (c : Catalog) : String → List Component → Component → Prop
  | last (reference : String) (d : Component) (resolved : c.target reference = .ok d) :
      LeadsThrough c reference [] d
  | next (reference next : String) (d last : Component) (rest : List Component)
      (resolved : c.target reference = .ok d) (refers : d.schema.reference = some next)
      (simple : d.schema.hasStructuralKeywords = false) (later : LeadsThrough c next rest last) :
      LeadsThrough c reference (d :: rest) last

section References

variable (c : Catalog) (enter : Component → Resolution ResolvedType) (reference : String)

theorem resolve_reference_eq (s : Schema) (refers : s.reference = some reference)
    (hint : Option String) :
    c.resolveWith enter s hint = s.over <$> c.referenceType enter reference := by
  rw [resolve_with_eq, bareType, refers, map_eq_pure_bind]

variable (d : Component) (resolved : c.target reference = .ok d)

include resolved

theorem reference_type_eq : c.referenceType enter reference
    = if d.kind.isNamed then pure d.type else enter d := by
  rw [referenceType, resolved]
  rfl

theorem alias_type_eq (isAlias : d.kind = .alias) : c.referenceType enter reference = enter d := by
  rw [reference_type_eq c enter reference d resolved, isAlias]
  rfl

end References

section Chains

variable (c : Catalog) (reference : String) (chain : List Component) (last : Component)

theorem leads_first (leads : c.LeadsThrough reference chain last) :
    ∃ d ∈ chain ++ [last], c.target reference = .ok d := by
  cases leads with
  | last _ _ resolved => exact ⟨last, List.mem_singleton_self last, resolved⟩
  | next _ _ d _ rest resolved => exact ⟨d, List.mem_cons_self, resolved⟩

theorem leads_found (leads : c.LeadsThrough reference chain last) :
    ∀ d ∈ chain, c.component? d.name = some d := by
  induction leads with
  | last => exact List.forall_mem_nil _
  | next reference next d last rest resolved _ _ _ ih =>
      exact List.forall_mem_cons.mpr ⟨target_found c reference d resolved, ih⟩

-- Once the last alias of the chain is entered none of the chain can be: each leads back to it.
theorem chain_fails (leads : c.LeadsThrough reference chain last)
    (aliases : ∀ d ∈ chain ++ [last], d.kind = .alias) (depth : Nat) (trail : List String)
    (entered : last.name ∈ trail) : ∀ d ∈ chain ++ [last], Fails (c.enterAlias depth trail d) := by
  induction leads generalizing depth trail with
  | last _ d =>
      intro d' isLast
      obtain rfl := List.mem_singleton.mp isLast
      rw [enter_again c depth trail d' entered]
      exact fails_throw _
  | next reference next d last rest resolved refers _ later ih =>
      rw [List.cons_append, List.forall_mem_cons] at aliases ⊢
      refine ⟨?_, ih aliases.2 depth trail entered⟩
      cases depth with
      | zero => exact fails_throw _
      | succ depth =>
          rw [enterAlias]
          split
          · exact fails_throw _
          · obtain ⟨b, inRest, isNext⟩ := leads_first c next rest last later
            rw [resolve_reference_eq c _ next d.schema refers,
              alias_type_eq c _ next b isNext (aliases.2 b inRest)]
            refine fails_map _ _ (ih aliases.2 depth _ ?_ b inRest)
            exact List.mem_cons_of_mem _ entered

-- While the last alias is being resolved, it makes no difference that the others of the chain count
-- as entered, since to enter one of them would fail in any case.
theorem enter_beyond (leads : c.LeadsThrough reference chain last)
    (aliases : ∀ d ∈ chain ++ [last], d.kind = .alias) (apart : ∀ a ∈ chain, a.name ≠ last.name)
    (depth depth' : Nat) (trail trail' : List String) (d : Component)
    (found : c.component? d.name = some d) (isAlias : d.kind = .alias)
    (entered : last.name ∈ d.name :: trail)
    (within : ∀ name ∈ trail', name ∈ trail ∨ ∃ a ∈ chain, a.name = name)
    (isTrail : c.Trail c.AliasRefers trail' depth' d) :
    Refines (c.enterAlias depth trail d) (c.enterAlias depth' trail' d) := by
  induction depth generalizing depth' trail trail' d with
  | zero => exact refines_throw _ _
  | succ depth ih =>
      by_cases again : d.name ∈ trail
      · rw [enter_again c _ trail d again]
        exact refines_throw _ _
      · by_cases met : d.name ∈ trail'
        · obtain ⟨a, inChain, sameName⟩ := (within d.name met).resolve_left again
          have same : a = d := by
            have foundA := leads_found c reference chain last leads a inChain
            rw [sameName, found] at foundA
            exact (Option.some.inj foundA).symm
          have inTrail : last.name ∈ trail := by
            refine (List.mem_cons.mp entered).resolve_left fun isLast => ?_
            exact apart a inChain (sameName.trans isLast.symm)
          refine refines_of_fails _ _ ?_
          rw [← same]
          exact chain_fails c reference chain last leads aliases _ trail inTrail a
            (List.mem_append_left _ inChain)
        · have member := (c.component_mem d.name d found).1
          cases depth' with
          | zero => exact absurd (trail_full c c.AliasRefers trail' d member isTrail) met
          | succ depth' =>
              rw [enterAlias, enterAlias, if_neg (by simpa using again), if_neg (by simpa using met)]
              refine resolve_with_related c (refining c) _ _ d.schema ?_ _
              intro reference' b contains resolved isAlias'
              have refers : c.AliasRefers d b := ⟨found, isAlias, reference', contains, resolved⟩
              have next := trail_step c c.AliasRefers trail' depth' d b member met refers isTrail
              refine ih depth' _ _ b (target_found c reference' b resolved) isAlias' ?_ ?_ next
              · exact List.mem_cons_of_mem _ entered
              · intro name inTrail
                rcases List.mem_cons.mp inTrail with rfl | before
                · exact .inl List.mem_cons_self
                · exact (within name before).imp_left (List.mem_cons_of_mem _)

end Chains

section Resolved

variable (c : Catalog) (toLast : String) (last : Component) (isLast : c.target toLast = .ok last)

include isLast

theorem chain_refines (toFirst : String) (whole : List Component)
    (leads : c.LeadsThrough toFirst whole last) (aliases : ∀ d ∈ whole, d.kind = .alias)
    (apart : ∀ a ∈ whole, a.name ≠ last.name) (reference : String) (chain : List Component)
    (remaining : c.LeadsThrough reference chain last) (depth : Nat) (trail : List String)
    (inside : chain ⊆ whole) (passed : ∀ name ∈ trail, ∃ a ∈ whole, a.name = name)
    (distinct : (chain.map (·.name)).Nodup) (fresh : ∀ d ∈ chain, d.name ∉ trail)
    (isTrail : ∀ d, c.target reference = .ok d → c.Trail c.AliasRefers trail depth d) :
    Refines (Schema.overAll (chain.map (·.schema)) <$>
        c.referenceType (c.enterAlias c.components.length []) toLast)
      (c.referenceType (c.enterAlias depth trail) reference) := by
  -- the trail holds what has been passed of the chain
  induction remaining generalizing depth trail with
  | last reference last resolved =>
      have same : Schema.overAll ([].map (·.schema : Component → Schema)) = id := rfl
      rw [same, id_map, reference_type_eq c _ toLast last isLast,
        reference_type_eq c _ reference last resolved]
      by_cases named : last.kind.isNamed = true
      · rw [if_pos named, if_pos named]
        exact refines_refl _
      · rw [if_neg named, if_neg named]
        have isAlias : last.kind = .alias := by
          rwa [ComponentKind.isNamed, bne_iff_ne, ne_eq, not_not] at named
        refine enter_beyond c toFirst whole last leads ?_ apart _ depth [] trail last
          (target_found c reference last resolved) isAlias List.mem_cons_self ?_
          (isTrail last resolved)
        · exact List.forall_mem_append.mpr ⟨aliases, List.forall_mem_singleton.mpr isAlias⟩
        · exact fun name inTrail => .inr (passed name inTrail)
  | next reference next d last rest resolved refers _ later ih =>
      rw [List.map_cons, List.nodup_cons] at distinct
      rw [List.forall_mem_cons] at fresh
      obtain ⟨inWhole, restInside⟩ := List.cons_subset.mp inside
      have isAlias := aliases d inWhole
      have found := target_found c reference d resolved
      have member := (c.component_mem d.name d found).1
      have split : Schema.overAll ((d :: rest).map (·.schema))
          = d.schema.over ∘ Schema.overAll (rest.map (·.schema)) := rfl
      rw [split, comp_map, alias_type_eq c _ reference d resolved isAlias]
      cases depth with
      | zero =>
          have full := trail_full c c.AliasRefers trail d member (isTrail d resolved)
          exact absurd full fresh.1
      | succ depth =>
          rw [enterAlias, if_neg (by simpa using fresh.1),
            resolve_reference_eq c _ next d.schema refers]
          refine refines_map _ _ _ (ih isLast leads apart depth (d.name :: trail) restInside ?_
            distinct.2 ?_ ?_)
          · exact List.forall_mem_cons.mpr ⟨⟨d, inWhole, rfl⟩, passed⟩
          · intro b inRest isHead
            rcases List.mem_cons.mp isHead with sameName | before
            · exact distinct.1 (List.mem_map.mpr ⟨b, inRest, sameName⟩)
            · exact fresh.2 b inRest before
          · intro b isNext
            have step : c.AliasRefers d b := ⟨found, isAlias, next, .here _ refers, isNext⟩
            exact trail_step c c.AliasRefers trail depth d b member fresh.1 step (isTrail d resolved)

end Resolved

theorem leads_aliases (document : Document) (config : Config) (reference : String)
    (chain : List Component) (last : Component)
    (leads : (ofDocument document config).LeadsThrough reference chain last) :
    ∀ d ∈ chain, d.kind = .alias := by
  induction leads with
  | last => exact List.forall_mem_nil _
  | next reference next d last rest resolved refers simple _ ih =>
      refine List.forall_mem_cons.mpr ⟨?_, ih⟩
      have source := component_source document config d (target_mem _ reference d resolved)
      rw [source.2]
      exact Schema.simple_reference_alias _ d.schema next refers simple

/-- A reference that leads through different aliases, each of which is only a reference to the next,
resolves in every state of a resolver if a bare reference to the last component does: to the same
type and with the same types registered, nullable if that one is or some level adds null, each
annotation from the outermost level that sets it, and the constraints merged from the inside out. -/
theorem alias_chain_overlaid (document : Document) (config : Config) (s : Schema)
    (reference toLast : String) (chain : List Component) (last : Component)
    (hint hint' : Option String) (r : Registry) (t : ResolvedType) :
    let c := ofDocument document config
    s.reference = some reference → c.LeadsThrough reference chain last →
    ((chain ++ [last]).map (·.name)).Nodup → c.target toLast = .ok last →
    answer (c.resolve { reference := some toLast } hint') r = .ok t →
    ∃ t', answer (c.resolve s hint) r = .ok t'
      ∧ after (c.resolve s hint) r = after (c.resolve { reference := some toLast } hint') r
      ∧ Schema.Overlays (s :: chain.map (·.schema)) t t' := by
  intro c refers leads distinct isLast answered
  have bare : c.resolve { reference := some toLast } hint'
      = c.referenceType (c.enterAlias c.components.length []) toLast := by
    have same : Schema.over { reference := some toLast } = id :=
      funext (Schema.bare_reference_over toLast)
    rw [resolve, resolve_reference_eq c _ toLast _ rfl, same, id_map]
  have outer : c.resolve s hint
      = s.over <$> c.referenceType (c.enterAlias c.components.length []) reference := by
    rw [resolve, resolve_reference_eq c _ reference s refers]
  rw [List.map_append, List.nodup_append] at distinct
  have apart : ∀ a ∈ chain, a.name ≠ last.name := fun a inChain =>
    distinct.2.2 a.name (List.mem_map_of_mem inChain) last.name (List.mem_singleton_self _)
  have refines := chain_refines c toLast last isLast reference chain leads
    (leads_aliases document config reference chain last leads) apart reference chain leads
    c.components.length [] (List.Subset.refl chain) (List.forall_mem_nil _) distinct.1
    (fun _ _ => List.not_mem_nil) fun d _ => trail_start c c.AliasRefers d
  rw [bare] at answered ⊢
  obtain ⟨sameAnswer, sameState⟩ := refines_map _ _ s.over refines r _ (by
    rw [answer_map, answer_map, answered]
    rfl)
  rw [outer]
  refine ⟨_, sameAnswer, ?_, Schema.over_all_overlays (s :: chain.map (·.schema)) t⟩
  rw [sameState, after_map, after_map]

def taggedTwice : Document where
  version := .v31
  contents := { components := { schemas := [
    ("marks", { reference := some "#/components/schemas/labels", description := some "seen outside"
                minItems := some 2 }),
    ("labels", { reference := some "#/components/schemas/tags", description := some "seen inside"
                 nullable := some true, readOnly := some true, minItems := some 1 }),
    ("tags", { type := some (.single "array"), maxItems := some 9
               items := some (.schema { properties := [("text", { type := some (.single "string") })] })
    })] } }

def writableMarks : Schema where
  reference := some "#/components/schemas/marks"
  readOnly := some false
  minItems := some 3

theorem marks_overlaid :
    let c := ofDocument taggedTwice {}
    let toTags := "#/components/schemas/tags"
    (∃ t, answer (c.resolve { reference := some toTags } none) {} = .ok t ∧ t.nullable = false)
      ∧ ∃ t', answer (c.resolve writableMarks none) {} = .ok t'
        ∧ (after (c.resolve writableMarks none) {}).names = ["TagsItem"]
        ∧ t'.type.names = ["TagsItem"] ∧ t'.nullable = true
        ∧ t'.description = some "seen outside" ∧ t'.readOnly = false
        ∧ t'.validation.minItems = some 3 ∧ t'.validation.maxItems = some 9 := by
  have leads : (ofDocument taggedTwice {}).LeadsThrough "#/components/schemas/marks" [_, _] _ :=
    .next _ _ _ _ _ rfl rfl rfl (.next _ _ _ _ _ rfl rfl rfl (.last _ _ rfl))
  obtain ⟨t', found, state, overlays⟩ := alias_chain_overlaid taggedTwice {} writableMarks _
    "#/components/schemas/tags" _ _ none none {} _ rfl leads (by decide) rfl rfl
  refine ⟨⟨_, rfl, rfl⟩, t', found, ?_, ?_, ?_, overlays.description, overlays.readOnly, ?_, ?_⟩
  · rw [state]
    rfl
  · rw [overlays.type]
    rfl
  · exact overlays.nullable.mpr (.inr ⟨_, List.mem_cons_of_mem _ (List.mem_cons_of_mem _
      (List.mem_singleton_self _)), rfl⟩)
  · rw [overlays.validation]
    rfl
  · rw [overlays.validation]
    rfl

end Catalog

end OpenApi
