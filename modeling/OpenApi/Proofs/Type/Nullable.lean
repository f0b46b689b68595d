import OpenApi.Proofs.Type.Alias

set_option autoImplicit false

namespace OpenApi

namespace Resolution

variable {α β : Type}

def Answers (m : Resolution α) (P : α → Prop) : Prop := ∀ r a, answer m r = .ok a → P a

theorem answers_all (m : Resolution α) : Answers m fun _ => True := fun _ _ _ => trivial

theorem answers_pure (a : α) (P : α → Prop) (holds : P a) : Answers (pure a) P := by
  intro r a' found
  cases found
  exact holds

theorem answers_throw (e : Error) (P : α → Prop) : Answers (throw e) P := by
  intro r a found
  cases found

theorem answers_bind (m : Resolution α) (f : α → Resolution β) (P : α → Prop) (Q : β → Prop)
    (first : Answers m P) (second : ∀ a, P a → Answers (f a) Q) : Answers (m >>= f) Q := by
  intro r b found
  rw [answer_bind] at found
  cases firstFound : answer m r with
  | error e =>
      rw [firstFound] at found
      cases found
  | ok a =>
      rw [firstFound] at found
      exact second a (first r a firstFound) (after m r) b found

theorem answers_bind_lift (x : Except Error α) (f : α → Resolution β) (Q : β → Prop)
    (second : ∀ a, x = .ok a → Answers (f a) Q) : Answers (liftM x >>= f) Q := by
  cases x with
  | error e => exact answers_throw e Q
  | ok a => exact second a rfl

theorem answers_map (m : Resolution α) (f : α → β) (Q : β → Prop)
    (each : Answers m fun a => Q (f a)) : Answers (f <$> m) Q := by
  rw [map_eq_pure_bind]
  exact answers_bind m _ _ Q each fun a holds => answers_pure (f a) Q holds

end Resolution

namespace Catalog

open Resolution

mutual

inductive AdmitsNull (c : Catalog) : Schema → Prop
  | own (s : Schema) (flags : (TypeFlags.ofSchema s).includesNull = true) : AdmitsNull c s
  | added (s : Schema) (adds : AddsNull c s) : AdmitsNull c s

inductive AddsNull (c : Catalog) : Schema → Prop
  | component (s : Schema) (reference : String) (d : Component)
      (refers : s.reference = some reference) (resolved : c.target reference = .ok d)
      (named : d.kind.isNamed = true) (nullable : d.type.nullable = true) : AddsNull c s
  | alias (s : Schema) (reference : String) (d : Component)
      (refers : s.reference = some reference) (resolved : c.target reference = .ok d)
      (unnamed : d.kind.isNamed = false) (admits : AdmitsNull c d.schema) : AddsNull c s
  | nullMember (s m : Schema) (inline : s.reference = none) (member : m ∈ s.allOf)
      (isNull : m.isNullMember = true) : AddsNull c s
  | onlyMember (s m : Schema) (inline : s.reference = none)
      (only : s.allOf.filter (!·.isNullMember) = [m]) (bare : s.properties = [])
      (admits : AdmitsNull c m) : AddsNull c s
  | unionNull (s : Schema) (inline : s.reference = none) (plain : s.allOf = [])
      (listed : s.hasUnionNull = true) : AddsNull c s
  | onlyAlternative (s m : Schema) (inline : s.reference = none) (plain : s.allOf = [])
      (only : s.unionMembers.filter (!·.isNullOnly) = [m]) (undeclared : s.discriminator = none)
      (admits : AdmitsNull c m) : AddsNull c s

end

section Predicates

variable (c : Catalog) (s : Schema)

theorem admits_null_iff :
    c.AdmitsNull s ↔ (TypeFlags.ofSchema s).includesNull = true ∨ c.AddsNull s := by
  constructor
  · intro admits
    cases admits with
    | own _ flags => exact .inl flags
    | added _ adds => exact .inr adds
  · rintro (flags | adds)
    · exact .own s flags
    · exact .added s adds

theorem reference_adds_null (reference : String) (d : Component)
    (refers : s.reference = some reference) (resolved : c.target reference = .ok d) :
    c.AddsNull s ↔
      if d.kind.isNamed then d.type.nullable = true else c.AdmitsNull d.schema := by
  constructor
  · intro adds
    cases adds with
    | component _ reference' d' refers' resolved' named nullable =>
        cases refers.symm.trans refers'
        cases resolved.symm.trans resolved'
        simpa [named] using nullable
    | «alias» _ reference' d' refers' resolved' unnamed admits =>
        cases refers.symm.trans refers'
        cases resolved.symm.trans resolved'
        simpa [unnamed] using admits
    | nullMember _ _ inline => simp [refers] at inline
    | onlyMember _ _ inline => simp [refers] at inline
    | unionNull _ inline => simp [refers] at inline
    | onlyAlternative _ _ inline => simp [refers] at inline
  · intro admits
    by_cases named : d.kind.isNamed = true
    · rw [if_pos named] at admits
      exact .component s reference d refers resolved named admits
    · rw [if_neg named] at admits
      exact .alias s reference d refers resolved (by simpa using named) admits

variable (inline : s.reference = none)

include inline

theorem composition_adds_null (composed : s.allOf ≠ []) :
    c.AddsNull s ↔ s.allOf.any Schema.isNullMember = true
      ∨ s.properties = [] ∧ ∃ m, s.allOf.filter (!·.isNullMember) = [m] ∧ c.AdmitsNull m := by
  constructor
  · intro adds
    cases adds with
    | component _ _ _ refers => simp [inline] at refers
    | «alias» _ _ _ refers => simp [inline] at refers
    | nullMember _ m _ member isNull => exact .inl (List.any_eq_true.mpr ⟨m, member, isNull⟩)
    | onlyMember _ m _ only bare admits => exact .inr ⟨bare, m, only, admits⟩
    | unionNull _ _ plain => exact absurd plain composed
    | onlyAlternative _ _ _ plain => exact absurd plain composed
  · rintro (isNull | ⟨bare, m, only, admits⟩)
    · obtain ⟨m, member, isNull⟩ := List.any_eq_true.mp isNull
      exact .nullMember s m inline member isNull
    · exact .onlyMember s m inline only bare admits

theorem union_adds_null (plain : s.allOf = []) :
    c.AddsNull s ↔ s.hasUnionNull = true ∨ s.discriminator = none
      ∧ ∃ m, s.unionMembers.filter (!·.isNullOnly) = [m] ∧ c.AdmitsNull m := by
  constructor
  · intro adds
    cases adds with
    | component _ _ _ refers => simp [inline] at refers
    | «alias» _ _ _ refers => simp [inline] at refers
    | nullMember _ _ _ member => simp [plain] at member
    | onlyMember _ _ _ only => simp [plain] at only
    | unionNull _ _ _ listed => exact .inl listed
    | onlyAlternative _ m _ _ only undeclared admits => exact .inr ⟨undeclared, m, only, admits⟩
  · rintro (listed | ⟨undeclared, m, only, admits⟩)
    · exact .unionNull s inline plain listed
    · exact .onlyAlternative s m inline plain only undeclared admits

theorem plain_adds_no_null (plain : s.allOf = []) (noUnion : s.unionMembers = []) :
    ¬ c.AddsNull s := by
  rw [union_adds_null c s inline plain]
  simp [Schema.hasUnionNull, noUnion]

end Predicates

section Parts

variable (c : Catalog) (s : Schema) (hint : Option String)

theorem synthesize_or_no_null (kind : ComponentKind) (unnamed : Resolution ResolvedType)
    (otherwise : Answers unnamed (·.nullable = false)) :
    Answers (c.synthesizeOr hint s kind unnamed) (·.nullable = false) := by
  rw [synthesizeOr]
  refine answers_bind _ _ _ _ (answers_all _) fun name _ => ?_
  cases name with
  | none => exact otherwise
  | some name => exact answers_pure _ _ rfl

theorem type_of_no_null (item value : Option String → Resolution ResolvedType) (type : JsonType) :
    Answers (c.typeOf s item value hint type) (·.nullable = false) := by
  cases type with
  | array =>
      rw [typeOf]
      exact answers_bind _ _ _ _ (answers_all _) fun t _ => answers_pure _ _ rfl
  | object =>
      rw [typeOf]
      split
      · exact answers_map _ _ _ fun _ _ _ => rfl
      · exact synthesize_or_no_null c s hint .record _ (answers_pure _ _ rfl)
  | string | integer | number | boolean | null =>
      refine answers_pure _ _ ?_
      split <;> rfl

theorem plain_type_no_null (item value : Option String → Resolution ResolvedType) :
    Answers (c.plainType s item value hint) (·.nullable = false) := by
  rw [plainType]
  split
  · exact answers_pure _ _ rfl
  · exact type_of_no_null c s hint item value _
  · exact answers_bind _ _ _ _ (answers_all _) fun types _ => answers_pure _ _ rfl

theorem no_null_not (m : Resolution ResolvedType) (P : Prop) (noNull : Answers m (·.nullable = false))
    (never : ¬ P) : Answers m fun t => t.nullable = true ↔ P := by
  intro r t found
  simp [noNull r t found, never]

-- Null that members add comes on top of the type that the others have.
theorem or_null_answers (m : Resolution ResolvedType) (P : Prop) (nullable : Bool)
    (first : Answers m fun t => t.nullable = true ↔ P) :
    Answers (m >>= fun t => pure (t.orNull nullable)) fun t =>
      t.nullable = true ↔ nullable = true ∨ P := by
  refine answers_bind _ _ _ _ first fun t isP => answers_pure _ _ ?_
  rw [← isP]
  simp [ResolvedType.orNull, or_comm]

theorem filter_single (members : List Schema) (passesOver : Schema → Bool)
    (one : (members.filter (!passesOver ·)).length = 1) :
    ∃ m ∈ members, members.filter (!passesOver ·) = [m] := by
  obtain ⟨m, only⟩ := List.length_eq_one_iff.mp one
  have member : m ∈ members.filter (!passesOver ·) := by simp [only]
  exact ⟨m, (List.mem_filter.mp member).1, only⟩

theorem resolve_only_first {μ : Type → Type} [Monad μ] [MonadLiftT Resolution μ]
    (enter : Component → μ ResolvedType) (passesOver : Schema → Bool) (members rest : List Schema)
    (m : Schema) (first : members.filter (!passesOver ·) = m :: rest) :
    c.resolveOnly enter passesOver members hint = c.resolveWith enter m hint := by
  induction members with
  | nil => simp at first
  | cons s others ih =>
      rw [resolveOnly]
      by_cases passed : passesOver s = true
      · rw [if_pos passed]
        exact ih (by simpa [passed] using first)
      · rw [if_neg passed]
        have same : s = m := by simp [passed] at first; exact first.1
        rw [same]

end Parts

section Whole

variable (c : Catalog) (enter : Component → Resolution ResolvedType) (s : Schema)
  (hint : Option String)

def Decided (c : Catalog) (enter : Component → Resolution ResolvedType) (s : Schema) : Prop :=
  ∀ hint, Answers (c.resolveWith enter s hint) fun t => t.nullable = true ↔ c.AdmitsNull s

theorem composed_type_null (composed : s.allOf ≠ []) (inline : s.reference = none)
    (each : ∀ m ∈ s.allOf, c.Decided enter m) :
    Answers (c.composedType s (c.resolveOnly enter Schema.isNullMember s.allOf hint) hint)
      fun t => t.nullable = true ↔ c.AddsNull s := by
  rw [composition_adds_null c s inline composed, composedType]
  dsimp only
  by_cases none' : (s.allOf.filter (!·.isNullMember)).length = 0
  · rw [if_pos none']
    refine or_null_answers _ _ _ (no_null_not _ _ (answers_pure _ _ rfl) ?_)
    rintro ⟨_, m, only, _⟩
    simp [only] at none'
  · rw [if_neg none']
    by_cases one : (s.allOf.filter (!·.isNullMember)).length = 1 ∧ s.properties.isEmpty = true
    · rw [if_pos one]
      obtain ⟨m, member, only⟩ := filter_single s.allOf Schema.isNullMember one.1
      have bare : s.properties = [] := by simpa using one.2
      rw [resolve_only_first c hint enter _ s.allOf [] m only]
      refine or_null_answers _ _ _ fun r t found => ?_
      have decided : t.nullable = true ↔ c.AdmitsNull m := each m member hint r t found
      simp [decided, only, bare]
    · rw [if_neg one]
      refine or_null_answers _ _ _ (no_null_not _ _ ?_ ?_)
      · exact synthesize_or_no_null c s hint .record _ (answers_pure _ _ rfl)
      · rintro ⟨bare, m, only, _⟩
        exact one ⟨by simp [only], by simp [bare]⟩

theorem union_type_null (members : List Schema) (plain : s.allOf = []) (inline : s.reference = none)
    (isUnion : s.unionMembers = members) (each : ∀ m ∈ members, c.Decided enter m) :
    Answers (c.unionType s (c.resolveOnly enter Schema.isNullOnly members hint)
      (c.resolveMembers enter members) hint) fun t => t.nullable = true ↔ c.AddsNull s := by
  rw [union_adds_null c s inline plain, unionType, isUnion]
  dsimp only
  by_cases none' : (members.filter (!·.isNullOnly)).length = 0
  · rw [if_pos none']
    refine or_null_answers _ _ _ (no_null_not _ _ (answers_pure _ _ rfl) ?_)
    rintro ⟨_, m, only, _⟩
    simp [only] at none'
  · rw [if_neg none']
    by_cases one : (members.filter (!·.isNullOnly)).length = 1 ∧ s.discriminator.isNone = true
    · rw [if_pos one]
      obtain ⟨m, member, only⟩ := filter_single members Schema.isNullOnly one.1
      have undeclared : s.discriminator = none := by simpa using one.2
      rw [resolve_only_first c hint enter _ members [] m only]
      refine or_null_answers _ _ _ fun r t found => ?_
      have decided : t.nullable = true ↔ c.AdmitsNull m := each m member hint r t found
      simp [decided, only, undeclared]
    · rw [if_neg one]
      refine or_null_answers _ _ _ (no_null_not _ _ (synthesize_or_no_null c s hint .union _ ?_) ?_)
      · exact answers_bind _ _ _ _ (answers_all _) fun types _ => answers_pure _ _ rfl
      · rintro ⟨undeclared, m, only, _⟩
        exact one ⟨by simp [only], by simp [undeclared]⟩

-- What is entered is an alias, and it admits null as its schema does.
variable (entered : ∀ d ∈ c.components, d.kind.isNamed = false →
  Answers (enter d) fun t => t.nullable = true ↔ c.AdmitsNull d.schema)

include entered

theorem reference_type_null (reference : String) (refers : s.reference = some reference) :
    Answers (c.referenceType enter reference) fun t => t.nullable = true ↔ c.AddsNull s := by
  rw [referenceType]
  refine answers_bind_lift _ _ _ fun d resolved => ?_
  rw [reference_adds_null c s reference d refers resolved]
  by_cases named : d.kind.isNamed = true
  · simp only [named, if_true]
    exact answers_pure _ _ Iff.rfl
  · simp only [named, Bool.false_eq_true, if_false]
    exact entered d (c.target_mem reference d resolved) (by simpa using named)

theorem bare_type_null (each : ∀ child ∈ s.children, c.Decided enter child) :
    Answers (c.bareType enter s hint) fun t => t.nullable = true ↔ c.AddsNull s := by
  rw [bareType]
  cases refers : s.reference with
  | some reference => exact reference_type_null c enter s entered reference refers
  | none =>
      by_cases composed : s.allOf = []
      · have plainNull : s.unionMembers = [] → ¬ c.AddsNull s :=
          plain_adds_no_null c s refers composed
        have noNull : Answers (c.plainType s (c.resolveOrAny enter s.items)
            (c.resolveOrAny enter s.additionalProperties) hint) (·.nullable = false) :=
          plain_type_no_null c s hint _ _
        by_cases one : s.oneOf = []
        · by_cases any : s.anyOf = []
          · have noUnion : s.unionMembers = [] := by simp [Schema.unionMembers, one, any]
            refine no_null_not _ _ ?_ (plainNull noUnion)
            simp only [composed, one, any, List.isEmpty_nil, Bool.not_true, Bool.false_eq_true,
              if_false]
            split
            · refine answers_bind _ _ _ _ (answers_all _) fun items _ => ?_
              exact answers_bind _ _ _ _ (answers_all _) fun rest _ => answers_pure _ _ rfl
            · split
              · exact synthesize_or_no_null c s hint .enumeration _ noNull
              · exact noNull
          · have isUnion : s.unionMembers = s.anyOf := by simp [Schema.unionMembers, one]
            have union := union_type_null c enter s hint s.anyOf composed refers isUnion
              fun m member => each m (s.child_of_any m member)
            simpa [composed, one, any] using union
        · have isUnion : s.unionMembers = s.oneOf := by simp [Schema.unionMembers, one]
          have union := union_type_null c enter s hint s.oneOf composed refers isUnion
            fun m member => each m (s.child_of_one m member)
          simpa [composed, one] using union
      · have composition := composed_type_null c enter s hint composed refers
          fun m member => each m (s.child_of_all m member)
        simpa [composed] using composition

theorem resolve_with_null : c.Decided enter s := by
  induction s using Schema.child_induction with
  | step s ih =>
      intro hint
      rw [resolve_with_eq]
      refine answers_bind _ _ _ _ (bare_type_null c enter s hint entered ih) fun t adds => ?_
      refine answers_pure _ _ ?_
      rw [admits_null_iff, ← adds]
      simp [Schema.over, ResolvedType.annotated, ResolvedType.orNull, or_comm]

end Whole

section Resolved

variable (c : Catalog)

theorem enter_alias_null (depth : Nat) (trail : List String) (d : Component) :
    Answers (c.enterAlias depth trail d) fun t => t.nullable = true ↔ c.AdmitsNull d.schema := by
  induction depth generalizing trail d with
  | zero => exact answers_throw _ _
  | succ depth ih =>
      rw [enterAlias]
      split
      · exact answers_throw _ _
      · exact resolve_with_null c _ d.schema (fun d' _ _ => ih _ d') _

theorem resolve_null (s : Schema) (hint : Option String) :
    Answers (c.resolve s hint) fun t => t.nullable = true ↔ c.AdmitsNull s :=
  resolve_with_null c _ s (fun d _ _ => enter_alias_null c _ [] d) hint

theorem component_type_null (d : Component) : d.type.nullable = true ↔
    (TypeFlags.ofSchema d.schema).includesNull = true
      ∨ d.kind = .union ∧ d.schema.hasUnionNull = true := by
  simp [Component.type]

theorem reference_null (reference : String) (d : Component) (resolved : c.target reference = .ok d) :
    c.AdmitsNull { reference := some reference } ↔
      if d.kind.isNamed then d.type.nullable = true else c.AdmitsNull d.schema := by
  have noFlags : (TypeFlags.ofSchema { reference := some reference }).includesNull = false := rfl
  rw [admits_null_iff, reference_adds_null c _ reference d rfl resolved]
  simp [noFlags]

end Resolved

theorem plain_component_kind (schemas : List (String × Schema)) (s : Schema) (plain : s.allOf = []) :
    s.componentKind schemas = s.kind := by
  simp [Schema.componentKind, Schema.extendsHierarchy, plain]

theorem plain_kind_inline (s : Schema) (named : s.kind.isNamed = true) : s.reference = none := by
  cases refers : s.reference with
  | none => rfl
  | some reference => simp [Schema.kind, refers, ComponentKind.isNamed] at named

theorem literal_kind_no_union (s : Schema) : s.literalKind? ≠ some .union := by
  rw [Schema.literalKind?]
  grind

theorem object_kind_no_union (s : Schema) : s.objectKind ≠ .union := by
  rw [Schema.objectKind]
  grind

theorem plain_kind_no_union (s : Schema) (plain : s.allOf = []) (noUnion : s.unionMembers = []) :
    s.kind ≠ .union := by
  rw [Schema.kind]
  cases literal : s.literalKind? with
  | none =>
      have object := object_kind_no_union s
      grind
  | some k =>
      have different := literal_kind_no_union s
      grind

theorem plain_named_adds_null (c : Catalog) (s : Schema) (plain : s.allOf = [])
    (named : s.kind.isNamed = true) (simple : s.prefixItems = [] ∨ s.unionMembers = []) :
    s.kind = .union ∧ s.hasUnionNull = true ↔ c.AddsNull s := by
  have inline := plain_kind_inline s named
  by_cases noUnion : s.unionMembers = []
  · have noNull := plain_adds_no_null c s inline plain noUnion
    simp [plain_kind_no_union s plain noUnion, noNull]
  · have noItems : s.prefixItems = [] := simple.resolve_right noUnion
    have isUnionKind : s.kind = s.unionKind := by simp [Schema.kind, inline, noItems, noUnion]
    have several : 2 ≤ (s.unionMembers.filter fun m => !m.isNullOnly).length
        ∨ s.discriminator.isSome = true
          ∧ 1 ≤ (s.unionMembers.filter fun m => !m.isNullOnly).length := by
      by_contra few
      rw [isUnionKind, Schema.unionKind, if_neg few] at named
      simp [ComponentKind.isNamed] at named
    have isUnion : s.kind = .union := by rw [isUnionKind, Schema.unionKind, if_pos several]
    rw [union_adds_null c s inline plain]
    constructor
    · exact fun listed => .inl listed.2
    · rintro (listed | ⟨undeclared, m, only, _⟩)
      · exact ⟨isUnion, listed⟩
      · simp [undeclared, only] at several

def markedPair : Document where
  version := .v30
  contents := { components := { schemas := [
    ("Cat", { properties := [("name", { type := some (.single "string") })] }),
    ("Dog", { properties := [("age", { type := some (.single "integer") })] }),
    ("Pair", { allOf := [
      { reference := some "#/components/schemas/Cat" },
      { reference := some "#/components/schemas/Dog" },
      { nullable := some true }] }),
    ("Pet", { oneOf := [
      { reference := some "#/components/schemas/Cat" },
      { reference := some "#/components/schemas/Dog" },
      { type := some (.single "null") }] })] } }

/-- A reference to a component and the component's schema at an inline position agree on null exactly
if the component is an alias, or admits null by its own keywords, or adds no other null than that of
a union. So they agree on every component without `allOf` that is not a tuple and a union at once. -/
theorem reference_nullable_iff (document : Document) (config : Config) (reference : String)
    (d : Component) (hint : Option String) (name : String) (r r' : Registry) (t t' : ResolvedType) :
    let c := ofDocument document config
    c.target reference = .ok d →
    answer (c.resolve { reference := some reference } hint) r = .ok t →
    answer (c.resolve d.schema (some name)) r' = .ok t' →
    (t.nullable = t'.nullable ↔ d.kind = .alias
        ∨ (TypeFlags.ofSchema d.schema).includesNull = true
        ∨ (d.kind = .union ∧ d.schema.hasUnionNull = true ↔ c.AddsNull d.schema))
      ∧ (d.schema.allOf = [] → d.schema.prefixItems = [] ∨ d.schema.unionMembers = [] →
          t.nullable = t'.nullable) := by
  intro c resolved outer inner
  have inReference := (resolve_null c _ hint r t outer).trans (reference_null c reference d resolved)
  have inPlace := (resolve_null c _ _ r' t' inner).trans (admits_null_iff c d.schema)
  have agree : t.nullable = t'.nullable ↔ d.kind = .alias
      ∨ (TypeFlags.ofSchema d.schema).includesNull = true
      ∨ (d.kind = .union ∧ d.schema.hasUnionNull = true ↔ c.AddsNull d.schema) := by
    rw [Bool.eq_iff_iff, inReference, inPlace]
    by_cases isAlias : d.kind = .alias
    · simp [isAlias, ComponentKind.isNamed, admits_null_iff]
    · have named : d.kind.isNamed = true := bne_iff_ne.mpr isAlias
      rw [if_pos named, component_type_null]
      by_cases flagged : (TypeFlags.ofSchema d.schema).includesNull = true <;>
        simp [isAlias, flagged]
  refine ⟨agree, fun plain simple => agree.mpr ?_⟩
  have source := component_source document config d (c.target_mem reference d resolved)
  have isKind : d.kind = d.schema.kind := by
    rw [source.2, plain_component_kind _ d.schema plain]
  by_cases isAlias : d.kind = .alias
  · exact .inl isAlias
  · have named : d.schema.kind.isNamed = true := isKind ▸ bne_iff_ne.mpr isAlias
    have adds := plain_named_adds_null c d.schema plain named simple
    rw [isKind]
    exact .inr (.inr adds)

theorem marked_pair_references :
    let c := ofDocument markedPair {}
    let toPet := "#/components/schemas/Pet"
    let toPair := "#/components/schemas/Pair"
    (∃ d t t', c.target toPet = .ok d
        ∧ answer (c.resolve { reference := some toPet } none) {} = .ok t
        ∧ answer (c.resolve d.schema (some "Own")) {} = .ok t'
        ∧ t.nullable = true ∧ t.nullable = t'.nullable)
      ∧ ∃ d t t', c.target toPair = .ok d
        ∧ answer (c.resolve { reference := some toPair } none) {} = .ok t
        ∧ answer (c.resolve d.schema (some "Own")) {} = .ok t'
        ∧ ¬ (d.kind = .union ∧ d.schema.hasUnionNull = true ↔ c.AddsNull d.schema) := by
  refine ⟨⟨_, _, _, rfl, rfl, rfl, rfl, ?_⟩, _, _, _, rfl, rfl, rfl, ?_⟩
  · have agree := reference_nullable_iff markedPair {} "#/components/schemas/Pet" _ none "Own"
      {} {} _ _ rfl rfl rfl
    exact agree.2 rfl (.inl rfl)
  · intro same
    have agree := reference_nullable_iff markedPair {} "#/components/schemas/Pair" _ none "Own"
      {} {} _ _ rfl rfl rfl
    exact absurd (agree.1.mpr (.inr (.inr same))) (by decide)

-- The pair is nullable where it stands inline, but not where it is referred to.
theorem marked_pair_null_lost :
    let c := ofDocument markedPair {}
    let toPair := "#/components/schemas/Pair"
    ∃ d t t', c.target toPair = .ok d
      ∧ answer (c.resolve { reference := some toPair } none) {} = .ok t
      ∧ answer (c.resolve d.schema (some "Own")) {} = .ok t'
      ∧ t.nullable = false ∧ t'.nullable = true :=
  ⟨_, _, _, rfl, rfl, rfl, rfl, rfl⟩

end Catalog

end OpenApi
