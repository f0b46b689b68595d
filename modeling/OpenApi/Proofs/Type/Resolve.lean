import OpenApi.Proofs.Component.Catalog
import OpenApi.Proofs.Type.Names

set_option autoImplicit false

namespace OpenApi

def Schema.over (s : Schema) (t : ResolvedType) : ResolvedType :=
  (t.orNull (TypeFlags.ofSchema s).includesNull).annotated s

theorem Schema.over_type (s : Schema) (t : ResolvedType) : (s.over t).type = t.type := rfl

namespace Catalog

open Resolution

section Shape

variable {m : Type → Type} [Monad m] [MonadLiftT Resolution m]

-- The type that a reference stands for; `enter` resolves an alias.
def referenceType (c : Catalog) (enter : Component → m ResolvedType) (reference : String) :
    m ResolvedType := do
  let found ← (c.target reference : Resolution Component)
  if found.kind.isNamed then pure found.type else enter found

def bareType (c : Catalog) (enter : Component → m ResolvedType) (s : Schema)
    (hint : Option String) : m ResolvedType :=
  let item := fun name => resolveOrAny c enter s.items name
  let value := fun name => resolveOrAny c enter s.additionalProperties name
  match s.reference with
  | some reference => c.referenceType enter reference
  | none =>
    if !s.allOf.isEmpty then
      c.composedType s (resolveOnly c enter Schema.isNullMember s.allOf hint) hint
    else if !s.oneOf.isEmpty then
      c.unionType s (resolveOnly c enter Schema.isNullOnly s.oneOf hint)
        (resolveMembers c enter s.oneOf) hint
    else if !s.anyOf.isEmpty then
      c.unionType s (resolveOnly c enter Schema.isNullOnly s.anyOf hint)
        (resolveMembers c enter s.anyOf) hint
    else if !s.prefixItems.isEmpty then do
      let items' ← resolveItems c enter 1 s.prefixItems hint
      let rest ← restType s.items item hint
      pure { type := .tuple items' rest }
    else if s.isEnumerable then
      c.synthesizeOr hint s .enumeration (c.plainType s item value hint)
    else c.plainType s item value hint

theorem resolve_with_eq [LawfulMonad m] (c : Catalog) (enter : Component → m ResolvedType)
    (s : Schema) (hint : Option String) :
    c.resolveWith enter s hint = (do pure (s.over (← c.bareType enter s hint))) := by
  cases s with
  | mk reference =>
      rw [resolveWith, bareType]
      cases reference with
      | some reference =>
          dsimp only
          rw [referenceType, bind_assoc]
          congr
          funext found
          split <;> rfl
      | none =>
          dsimp only
          repeat' split
          all_goals first | rfl | (simp only [bind_assoc]; rfl)

end Shape

section Parts

variable (c : Catalog) (J : Schema → Prop) (s : Schema) (hint : Option String)

theorem synthesize_or_lawful (kind : ComponentKind) (unnamed : Resolution ResolvedType)
    (allowed : J s) (named : kind.isNamed = true) (otherwise : Lawful c J unnamed c.Knows) :
    Lawful c J (c.synthesizeOr hint s kind unnamed) c.Knows := by
  rw [synthesizeOr]
  refine lawful_bind c J (fun r name => ∀ n ∈ name, n ∈ r.names) _ _ _ ?_
    (lawful_synthesize c J hint s kind allowed named) fun name => ?_
  · exact fun name r r' grown known n present =>
      (r.extends_names r' grown).subset (known n present)
  · cases name with
    | none => exact lawful_weaken c J _ _ _ otherwise fun r t known _ => known
    | some name => exact lawful_pure c J _ _ fun r known => knows_registered c r name (known name rfl)

variable (item value : Option String → Resolution ResolvedType)
  (itemLawful : ∀ name, Lawful c J (item name) c.Knows)
  (valueLawful : ∀ name, Lawful c J (value name) c.Knows)

include itemLawful valueLawful

theorem type_of_lawful (allowed : J s) (type : JsonType) :
    Lawful c J (c.typeOf s item value hint type) c.Knows := by
  cases type with
  | array =>
      rw [typeOf]
      refine lawful_bind c J c.Knows _ _ _ (knows_lasting c) (itemLawful _) fun t => ?_
      exact lawful_pure c J _ _ fun _ known => known
  | object =>
      rw [typeOf]
      split
      · exact lawful_map c J c.Knows _ _ _ (knows_lasting c) (valueLawful _) fun _ _ known => known
      · exact synthesize_or_lawful c J s hint .record _ allowed rfl
          (lawful_pure c J _ _ fun r => knows_nothing c r _ rfl)
  | string | integer | number | boolean | null =>
      refine lawful_pure c J _ _ fun r => knows_nothing c r _ ?_
      split <;> rfl

theorem plain_type_lawful (allowed : J s) : Lawful c J (c.plainType s item value hint) c.Knows := by
  rw [plainType]
  split
  · exact lawful_pure c J _ _ fun r => knows_nothing c r _ rfl
  · exact type_of_lawful c J s hint item value itemLawful valueLawful allowed _
  · refine lawful_bind c J (fun r types => ∀ t ∈ types, c.Knows r t) _ _ _ ?_ ?_ fun types => ?_
    · exact fun types => lasting_all c.Knows types (knows_lasting c)
    · exact lawful_map_list c J c.Knows _ _ (knows_lasting c) fun type _ =>
        type_of_lawful c J s none item value itemLawful valueLawful allowed type
    · exact lawful_pure c J _ _ fun r known => knows_union c r types known

omit valueLawful

theorem rest_type_lawful (items : Option (OrBool Schema)) :
    Lawful c J (restType items item hint) fun r rest => ∀ t ∈ rest, c.Knows r t := by
  rw [restType]
  split
  · refine lawful_map c J c.Knows _ _ _ (knows_lasting c) (itemLawful _) ?_
    intro r t known other present
    obtain rfl := Option.some.inj present
    exact known
  · exact lawful_pure c J _ none fun _ _ absent => by cases absent

omit itemLawful

theorem composed_type_lawful (only : Resolution ResolvedType) (allowed : J s)
    (onlyLawful : Lawful c J only c.Knows) : Lawful c J (c.composedType s only hint) c.Knows := by
  have finish : ∀ m : Resolution ResolvedType, Lawful c J m c.Knows → Lawful c J
      (m >>= fun t => pure (t.orNull (s.allOf.any Schema.isNullMember))) c.Knows := by
    intro m lawful
    refine lawful_bind c J c.Knows _ m _ (knows_lasting c) lawful fun t => ?_
    exact lawful_pure c J _ _ fun r known =>
      knows_same_names c r t _ (ResolvedType.names_or_null t _) known
  rw [composedType]
  dsimp only
  split
  · exact finish _ (lawful_pure c J _ _ fun r => knows_nothing c r _ rfl)
  · split
    · exact finish _ onlyLawful
    · exact finish _ (synthesize_or_lawful c J s hint .record _ allowed rfl
        (lawful_pure c J _ _ fun r => knows_nothing c r _ rfl))

theorem union_type_lawful (only : Resolution ResolvedType)
    (members : Resolution (List ResolvedType)) (allowed : J s)
    (onlyLawful : Lawful c J only c.Knows)
    (membersLawful : Lawful c J members fun r types => ∀ t ∈ types, c.Knows r t) :
    Lawful c J (c.unionType s only members hint) c.Knows := by
  have finish : ∀ m : Resolution ResolvedType, Lawful c J m c.Knows →
      Lawful c J (m >>= fun t => pure (t.orNull s.hasUnionNull)) c.Knows := by
    intro m lawful
    refine lawful_bind c J c.Knows _ m _ (knows_lasting c) lawful fun t => ?_
    exact lawful_pure c J _ _ fun r known =>
      knows_same_names c r t _ (ResolvedType.names_or_null t _) known
  rw [unionType]
  dsimp only
  split
  · exact finish _ (lawful_pure c J _ _ fun r => knows_nothing c r _ rfl)
  · split
    · exact finish _ onlyLawful
    · refine finish _ (synthesize_or_lawful c J s hint .union _ allowed rfl ?_)
      refine lawful_bind c J _ _ members _ ?_ membersLawful fun types => ?_
      · exact fun types => lasting_all c.Knows types (knows_lasting c)
      · exact lawful_pure c J _ _ fun r known => knows_union c r types known

end Parts

section Schemas

variable (c : Catalog) (J : Schema → Prop) (enter : Component → Resolution ResolvedType)

theorem resolve_or_any_lawful (keyword : Option (OrBool Schema))
    (each : ∀ s ∈ OrBool.schemas keyword, ∀ hint, Lawful c J (c.resolveWith enter s hint) c.Knows)
    (hint : Option String) : Lawful c J (c.resolveOrAny enter keyword hint) c.Knows := by
  match keyword with
  | none => exact lawful_pure c J _ _ fun r => knows_nothing c r _ rfl
  | some (.bool _) => exact lawful_pure c J _ _ fun r => knows_nothing c r _ rfl
  | some (.schema s) => exact each s (List.mem_singleton_self s) hint

variable (schemas : List Schema)
  (each : ∀ s ∈ schemas, ∀ hint, Lawful c J (c.resolveWith enter s hint) c.Knows)

include each

theorem resolve_only_lawful (passesOver : Schema → Bool) (hint : Option String) :
    Lawful c J (c.resolveOnly enter passesOver schemas hint) c.Knows := by
  induction schemas with
  | nil => exact lawful_pure c J _ _ fun r => knows_nothing c r _ rfl
  | cons s rest ih =>
      rw [List.forall_mem_cons] at each
      rw [resolveOnly]
      split
      · exact ih each.2
      · exact each.1 hint

theorem resolve_members_lawful :
    Lawful c J (c.resolveMembers enter schemas) fun r types => ∀ t ∈ types, c.Knows r t := by
  induction schemas with
  | nil => exact lawful_pure c J _ [] fun _ _ member => by cases member
  | cons s rest ih =>
      rw [List.forall_mem_cons] at each
      rw [resolveMembers]
      split
      · exact ih each.2
      · exact lawful_cons c J c.Knows _ _ (knows_lasting c) (each.1 none) (ih each.2)

theorem resolve_items_lawful (n : Nat) (hint : Option String) :
    Lawful c J (c.resolveItems enter n schemas hint) fun r types => ∀ t ∈ types, c.Knows r t := by
  induction schemas generalizing n with
  | nil => exact lawful_pure c J _ [] fun _ _ member => by cases member
  | cons s rest ih =>
      rw [List.forall_mem_cons] at each
      rw [resolveItems]
      exact lawful_cons c J c.Knows _ _ (knows_lasting c) (each.1 _) (ih each.2 (n + 1))

end Schemas

section Whole

variable (c : Catalog) (J : Schema → Prop)

theorem reference_lawful (enter : Component → Resolution ResolvedType)
    (entered : ∀ d ∈ c.components, Lawful c J (enter d) c.Knows) (reference : String) :
    Lawful c J (c.referenceType enter reference) c.Knows := by
  rw [referenceType]
  refine lawful_bind_lift c J c.Knows _ _ fun found resolved => ?_
  have member := target_mem c reference found resolved
  split
  · rename_i named
    exact lawful_pure c J _ _ fun r => knows_component c r found member named
  · exact entered found member

theorem bare_type_lawful (enter : Component → Resolution ResolvedType) (s : Schema) (allowed : J s)
    (entered : ∀ d ∈ c.components, Lawful c J (enter d) c.Knows)
    (each : ∀ s' ∈ s.children, ∀ hint, Lawful c J (c.resolveWith enter s' hint) c.Knows)
    (hint : Option String) : Lawful c J (c.bareType enter s hint) c.Knows := by
  have item : ∀ name, Lawful c J (c.resolveOrAny enter s.items name) c.Knows :=
    resolve_or_any_lawful c J enter s.items fun s' member =>
      each s' (s.child_of_items s' member)
  have value : ∀ name, Lawful c J (c.resolveOrAny enter s.additionalProperties name) c.Knows :=
    resolve_or_any_lawful c J enter s.additionalProperties fun s' member =>
      each s' (s.child_of_additional s' member)
  have plain : Lawful c J (c.plainType s (c.resolveOrAny enter s.items)
      (c.resolveOrAny enter s.additionalProperties) hint) c.Knows :=
    plain_type_lawful c J s hint _ _ item value allowed
  have union : ∀ members : List Schema, members ⊆ s.children → Lawful c J
      (c.unionType s (c.resolveOnly enter Schema.isNullOnly members hint)
        (c.resolveMembers enter members) hint) c.Knows := fun members inside =>
    union_type_lawful c J s hint _ _ allowed
      (resolve_only_lawful c J enter members (fun s' member => each s' (inside member)) _ hint)
      (resolve_members_lawful c J enter members fun s' member => each s' (inside member))
  rw [bareType]
  split
  · rename_i reference _
    exact reference_lawful c J enter entered reference
  · split
    · exact composed_type_lawful c J s hint _ allowed (resolve_only_lawful c J enter s.allOf
        (fun s' member => each s' (s.child_of_all s' member)) _ hint)
    · split
      · exact union s.oneOf (s.child_of_one)
      · split
        · exact union s.anyOf (s.child_of_any)
        · split
          · refine lawful_bind c J (fun r types => ∀ t ∈ types, c.Knows r t) _ _ _ ?_ ?_
              fun types => ?_
            · exact fun types => lasting_all c.Knows types (knows_lasting c)
            · exact resolve_items_lawful c J enter s.prefixItems
                (fun s' member => each s' (s.child_of_tuple s' member)) 1 hint
            · refine lawful_bind c J (fun r rest => ∀ t ∈ rest, c.Knows r t) _ _ _ ?_
                (rest_type_lawful c J hint _ item s.items) fun rest => ?_
              · exact fun rest r r' grown known t present =>
                  knows_lasting c t r r' grown (known t present)
              · exact lawful_pure c J _ _ fun r restKnown itemsKnown =>
                  knows_tuple c r types rest itemsKnown restKnown
          · split
            · exact synthesize_or_lawful c J s hint .enumeration _ allowed rfl plain
            · exact plain

variable (hereditary : ∀ s, J s → ∀ child ∈ s.children, J child)

include hereditary

theorem resolve_with_lawful (enter : Component → Resolution ResolvedType)
    (entered : ∀ d ∈ c.components, Lawful c J (enter d) c.Knows) (s : Schema) :
    J s → ∀ hint, Lawful c J (c.resolveWith enter s hint) c.Knows := by
  induction s using Schema.child_induction with
  | step s ih =>
      intro allowed hint
      rw [resolve_with_eq]
      refine lawful_bind c J c.Knows _ _ _ (knows_lasting c) ?_ fun t => ?_
      · exact bare_type_lawful c J enter s allowed entered
          (fun child member => ih child member (hereditary s allowed child member)) hint
      · refine lawful_pure c J _ _ fun r known => knows_same_names c r t _ ?_ known
        rw [ResolvedType.names_of_type, Schema.over_type, ← ResolvedType.names_of_type]

variable (components : ∀ d ∈ c.components, J d.schema)

include components

-- Each alias is entered with less depth left, whatever the trail.
theorem enter_alias_lawful (depth : Nat) :
    ∀ trail, ∀ d ∈ c.components, Lawful c J (c.enterAlias depth trail d) c.Knows := by
  induction depth with
  | zero => exact fun trail d _ => lawful_throw c J _ _
  | succ depth ih =>
      intro trail d member
      rw [enterAlias]
      split
      · exact lawful_throw c J _ _
      · exact resolve_with_lawful c J hereditary _ (ih _) d.schema (components d member) _

theorem resolve_lawful (s : Schema) (allowed : J s) (hint : Option String) :
    Lawful c J (c.resolve s hint) c.Knows :=
  resolve_with_lawful c J hereditary _ (enter_alias_lawful c J hereditary components _ []) s allowed
    hint

theorem resolve_rest_lawful (s : Schema) (allowed : J s) (hint : Option String) :
    Lawful c J (c.resolveRest s hint) fun r rest => ∀ t ∈ rest, c.Knows r t := by
  rw [resolveRest]
  refine rest_type_lawful c J hint _ (fun name => ?_) s.items
  refine resolve_or_any_lawful c J _ s.items (fun s' member => ?_) name
  exact resolve_with_lawful c J hereditary _ (enter_alias_lawful c J hereditary components _ []) s'
    (hereditary s allowed s' (s.child_of_items s' member))

end Whole

end Catalog

end OpenApi
