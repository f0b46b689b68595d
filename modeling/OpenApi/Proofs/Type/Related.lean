import OpenApi.Proofs.Type.Resolve

set_option autoImplicit false

namespace OpenApi

inductive Schema.Contains (reference : String) : Schema → Prop
  | here (s : Schema) (refers : s.reference = some reference) : Contains reference s
  | inside (s child : Schema) (member : child ∈ s.children)
      (contains : Contains reference child) : Contains reference s

theorem Schema.contains_iff (reference : String) (s : Schema) : s.Contains reference ↔
    s.reference = some reference ∨ ∃ child ∈ s.children, child.Contains reference := by
  constructor
  · intro contains
    cases contains with
    | here _ refers => exact .inl refers
    | inside _ child member contains => exact .inr ⟨child, member, contains⟩
  · rintro (refers | ⟨child, member, contains⟩)
    · exact .here s refers
    · exact .inside s child member contains

namespace Catalog

variable {m m' : Type → Type} [Monad m] [Monad m'] [MonadLiftT Resolution m]
  [MonadLiftT Resolution m']

-- A relation between computations that is kept by sequences, by the synthesis of a type and by the
-- search for what a reference leads to.
structure Simulation (c : Catalog) (m m' : Type → Type) [Monad m] [Monad m']
    [MonadLiftT Resolution m] [MonadLiftT Resolution m'] where
  Related : {α : Type} → m α → m' α → Prop
  pure : ∀ {α : Type} (a : α), Related (pure a) (pure a)
  bind : ∀ {α β : Type} (x : m α) (x' : m' α) (f : α → m β) (f' : α → m' β),
    Related x x' → (∀ a, Related (f a) (f' a)) → Related (x >>= f) (x' >>= f')
  synthesize : ∀ (hint : Option String) (s : Schema) (kind : ComponentKind),
    Related (liftM (c.synthesize hint s kind)) (liftM (c.synthesize hint s kind))
  target : ∀ (reference : String) (f : Component → m ResolvedType)
      (f' : Component → m' ResolvedType),
    (∀ d, c.target reference = .ok d → Related (f d) (f' d)) →
    Related (liftM (liftM (c.target reference) : Resolution Component) >>= f)
      (liftM (liftM (c.target reference) : Resolution Component) >>= f')

section Parts

variable (c : Catalog) (sim : c.Simulation m m') (s : Schema) (hint : Option String)

theorem synthesize_or_related (kind : ComponentKind) (unnamed : m ResolvedType)
    (unnamed' : m' ResolvedType) (related : sim.Related unnamed unnamed') :
    sim.Related (c.synthesizeOr hint s kind unnamed) (c.synthesizeOr hint s kind unnamed') := by
  rw [synthesizeOr, synthesizeOr]
  refine sim.bind _ _ _ _ (sim.synthesize hint s kind) fun name => ?_
  cases name with
  | none => exact related
  | some name => exact sim.pure _

theorem composed_type_related (only : m ResolvedType) (only' : m' ResolvedType)
    (related : sim.Related only only') :
    sim.Related (c.composedType s only hint) (c.composedType s only' hint) := by
  have finish : ∀ (x : m ResolvedType) (x' : m' ResolvedType), sim.Related x x' → sim.Related
      (x >>= fun t => pure (t.orNull (s.allOf.any Schema.isNullMember)))
      (x' >>= fun t => pure (t.orNull (s.allOf.any Schema.isNullMember))) :=
    fun x x' related => sim.bind x x' _ _ related fun t => sim.pure _
  rw [composedType, composedType]
  dsimp only
  split
  · exact finish _ _ (sim.pure _)
  · split
    · exact finish _ _ related
    · exact finish _ _ (synthesize_or_related c sim s hint .record _ _ (sim.pure _))

theorem union_type_related (only : m ResolvedType) (only' : m' ResolvedType)
    (members : m (List ResolvedType)) (members' : m' (List ResolvedType))
    (onlyRelated : sim.Related only only') (membersRelated : sim.Related members members') :
    sim.Related (c.unionType s only members hint) (c.unionType s only' members' hint) := by
  have finish : ∀ (x : m ResolvedType) (x' : m' ResolvedType), sim.Related x x' → sim.Related
      (x >>= fun t => pure (t.orNull s.hasUnionNull))
      (x' >>= fun t => pure (t.orNull s.hasUnionNull)) :=
    fun x x' related => sim.bind x x' _ _ related fun t => sim.pure _
  rw [unionType, unionType]
  dsimp only
  split
  · exact finish _ _ (sim.pure _)
  · split
    · exact finish _ _ onlyRelated
    · refine finish _ _ (synthesize_or_related c sim s hint .union _ _ ?_)
      exact sim.bind _ _ _ _ membersRelated fun types => sim.pure _

variable [LawfulMonad m] [LawfulMonad m']

theorem map_related {α β : Type} (x : m α) (x' : m' α) (f : α → β)
    (related : sim.Related x x') : sim.Related (f <$> x) (f <$> x') := by
  rw [map_eq_pure_bind, map_eq_pure_bind]
  exact sim.bind x x' _ _ related fun a => sim.pure (f a)

theorem map_list_related {α β : Type} (f : β → m α) (f' : β → m' α) (items : List β)
    (each : ∀ item, sim.Related (f item) (f' item)) :
    sim.Related (items.mapM f) (items.mapM f') := by
  induction items with
  | nil =>
      rw [List.mapM_nil, List.mapM_nil]
      exact sim.pure []
  | cons item rest ih =>
      rw [List.mapM_cons, List.mapM_cons]
      refine sim.bind _ _ _ _ (each item) fun x => ?_
      exact sim.bind _ _ _ _ ih fun xs => sim.pure (x :: xs)

variable (item value : Option String → m ResolvedType)
  (item' value' : Option String → m' ResolvedType)
  (itemRelated : ∀ name, sim.Related (item name) (item' name))
  (valueRelated : ∀ name, sim.Related (value name) (value' name))

include itemRelated

theorem rest_type_related (items : Option (OrBool Schema)) :
    sim.Related (restType items item hint) (restType items item' hint) := by
  rw [restType, restType]
  split
  · exact map_related c sim _ _ _ (itemRelated _)
  · exact sim.pure none

include valueRelated

theorem type_of_related (type : JsonType) :
    sim.Related (c.typeOf s item value hint type) (c.typeOf s item' value' hint type) := by
  cases type with
  | array => exact sim.bind _ _ _ _ (itemRelated _) fun t => sim.pure _
  | object =>
      rw [typeOf, typeOf]
      split
      · exact map_related c sim _ _ _ (valueRelated _)
      · exact synthesize_or_related c sim s hint .record _ _ (sim.pure _)
  | string | integer | number | boolean | null => exact sim.pure _

theorem plain_type_related :
    sim.Related (c.plainType s item value hint) (c.plainType s item' value' hint) := by
  have typeRelated : ∀ hint type,
      sim.Related (c.typeOf s item value hint type) (c.typeOf s item' value' hint type) :=
    fun hint =>
      type_of_related c sim s hint item value item' value' itemRelated valueRelated
  rw [plainType, plainType]
  split
  · exact sim.pure _
  · exact typeRelated hint _
  · refine sim.bind _ _ _ _ ?_ fun types => sim.pure _
    exact map_list_related c sim _ _ _ (typeRelated none)

end Parts

section Schemas

variable (c : Catalog) (sim : c.Simulation m m') (enter : Component → m ResolvedType)
  (enter' : Component → m' ResolvedType)

theorem resolve_or_any_related (keyword : Option (OrBool Schema))
    (each : ∀ s ∈ OrBool.schemas keyword, ∀ hint,
      sim.Related (c.resolveWith enter s hint) (c.resolveWith enter' s hint))
    (hint : Option String) :
    sim.Related (c.resolveOrAny enter keyword hint) (c.resolveOrAny enter' keyword hint) := by
  match keyword with
  | none => exact sim.pure _
  | some (.bool _) => exact sim.pure _
  | some (.schema s) => exact each s (List.mem_singleton_self s) hint

theorem reference_related (reference : String)
    (entered : ∀ d, c.target reference = .ok d → d.kind = .alias →
      sim.Related (enter d) (enter' d)) :
    sim.Related (c.referenceType enter reference) (c.referenceType enter' reference) := by
  rw [referenceType, referenceType]
  refine sim.target reference _ _ fun d resolved => ?_
  by_cases named : d.kind.isNamed = true
  · rw [if_pos named, if_pos named]
    exact sim.pure _
  · rw [if_neg named, if_neg named]
    rw [ComponentKind.isNamed, bne_iff_ne, ne_eq, not_not] at named
    exact entered d resolved named

variable (schemas : List Schema) (each : ∀ s ∈ schemas, ∀ hint,
  sim.Related (c.resolveWith enter s hint) (c.resolveWith enter' s hint))

include each

theorem resolve_only_related (passesOver : Schema → Bool) (hint : Option String) :
    sim.Related (c.resolveOnly enter passesOver schemas hint)
      (c.resolveOnly enter' passesOver schemas hint) := by
  induction schemas with
  | nil => exact sim.pure _
  | cons s rest ih =>
      rw [List.forall_mem_cons] at each
      rw [resolveOnly, resolveOnly]
      split
      · exact ih each.2
      · exact each.1 hint

theorem resolve_members_related :
    sim.Related (c.resolveMembers enter schemas) (c.resolveMembers enter' schemas) := by
  induction schemas with
  | nil => exact sim.pure _
  | cons s rest ih =>
      rw [List.forall_mem_cons] at each
      rw [resolveMembers, resolveMembers]
      split
      · exact ih each.2
      · refine sim.bind _ _ _ _ (each.1 none) fun t => ?_
        exact sim.bind _ _ _ _ (ih each.2) fun ts => sim.pure _

theorem resolve_items_related (n : Nat) (hint : Option String) :
    sim.Related (c.resolveItems enter n schemas hint) (c.resolveItems enter' n schemas hint) := by
  induction schemas generalizing n with
  | nil => exact sim.pure _
  | cons s rest ih =>
      rw [List.forall_mem_cons] at each
      rw [resolveItems, resolveItems]
      refine sim.bind _ _ _ _ (each.1 _) fun t => ?_
      exact sim.bind _ _ _ _ (ih each.2 (n + 1)) fun ts => sim.pure _

end Schemas

section Whole

variable [LawfulMonad m] [LawfulMonad m'] (c : Catalog) (sim : c.Simulation m m')
  (enter : Component → m ResolvedType) (enter' : Component → m' ResolvedType)

theorem bare_type_related (s : Schema)
    (entered : ∀ reference d, s.reference = some reference → c.target reference = .ok d →
      d.kind = .alias → sim.Related (enter d) (enter' d))
    (each : ∀ s' ∈ s.children, ∀ hint,
      sim.Related (c.resolveWith enter s' hint) (c.resolveWith enter' s' hint))
    (hint : Option String) :
    sim.Related (c.bareType enter s hint) (c.bareType enter' s hint) := by
  have item := resolve_or_any_related c sim enter enter' s.items fun s' member =>
    each s' (s.child_of_items s' member)
  have value := resolve_or_any_related c sim enter enter' s.additionalProperties fun s' member =>
    each s' (s.child_of_additional s' member)
  have plain := plain_type_related c sim s hint _ _ _ _ item value
  have members : ∀ schemas ⊆ s.children, ∀ s' ∈ schemas, ∀ hint,
      sim.Related (c.resolveWith enter s' hint) (c.resolveWith enter' s' hint) :=
    fun schemas inside s' member => each s' (inside member)
  have union : ∀ schemas ⊆ s.children, sim.Related
      (c.unionType s (c.resolveOnly enter Schema.isNullOnly schemas hint)
        (c.resolveMembers enter schemas) hint)
      (c.unionType s (c.resolveOnly enter' Schema.isNullOnly schemas hint)
        (c.resolveMembers enter' schemas) hint) := fun schemas inside =>
    union_type_related c sim s hint _ _ _ _
      (resolve_only_related c sim enter enter' _ (members _ inside) _ hint)
      (resolve_members_related c sim enter enter' _ (members _ inside))
  rw [bareType, bareType]
  split
  · rename_i reference refers
    exact reference_related c sim enter enter' reference fun d => entered reference d refers
  · split
    · exact composed_type_related c sim s hint _ _
        (resolve_only_related c sim enter enter' _ (members _ s.child_of_all) _ hint)
    · split
      · exact union s.oneOf s.child_of_one
      · split
        · exact union s.anyOf s.child_of_any
        · split
          · refine sim.bind _ _ _ _ ?_ fun types => ?_
            · exact resolve_items_related c sim enter enter' _ (members _ s.child_of_tuple) 1 hint
            · refine sim.bind _ _ _ _ ?_ fun rest => sim.pure _
              exact rest_type_related c sim hint _ _ item s.items
          · split
            · exact synthesize_or_related c sim s hint .enumeration _ _ plain
            · exact plain

/-- Two resolutions of a schema are related if the aliases that its references lead to are entered in
related ways. -/
theorem resolve_with_related (s : Schema)
    (entered : ∀ reference d, s.Contains reference → c.target reference = .ok d →
      d.kind = .alias → sim.Related (enter d) (enter' d)) :
    ∀ hint, sim.Related (c.resolveWith enter s hint) (c.resolveWith enter' s hint) := by
  induction s using Schema.child_induction with
  | step s ih =>
      intro hint
      rw [resolve_with_eq, resolve_with_eq]
      refine sim.bind _ _ _ _ ?_ fun t => sim.pure _
      refine bare_type_related c sim enter enter' s ?_ ?_ hint
      · exact fun reference d refers => entered reference d (.here s refers)
      · intro child member
        exact ih child member fun reference d contains =>
          entered reference d (.inside s child member contains)

end Whole

end Catalog

end OpenApi
