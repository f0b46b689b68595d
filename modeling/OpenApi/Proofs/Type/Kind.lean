import OpenApi.Proofs.Component.Variant
import OpenApi.Proofs.Type.Steps
import OpenApi.Proofs.Type.Wrapper

set_option autoImplicit false

namespace OpenApi

namespace Catalog

open Resolution

section Formed

variable (c : Catalog)

def FormedSince (r r' : Registry) : Prop :=
  ∀ t ∈ r'.types, t ∈ r.types ∨ t.schema.SynthesizedAs t.kind

theorem synthesized_formed (r r' : Registry) (hint : Option String) (s : Schema)
    (kind : ComponentKind) (asks : Asks AnySchema AnyName hint s kind)
    (before : FormedSince r r') : FormedSince r (c.synthesized hint s kind r') := by
  intro t member
  rcases c.synthesized_mem hint s kind r' t member with old | ⟨rfl, rfl⟩
  · exact before t old
  · rcases c.synthesized_mem_named hint t.schema t.kind r' t member with old | ⟨_, name, isName, _⟩
    · exact before t old
    · exact .inr (asks.formed name isName)

theorem resolve_formed (s : Schema) (hint : Option String) (r : Registry) :
    FormedSince r (after (c.resolve s hint) r) := by
  have closed : Closed AnySchema AnyName := any_name_closed AnySchema fun _ _ _ _ _ => trivial
  have steps := resolve_with_steps c AnySchema AnyName (c.enterAlias c.components.length []) closed s
    (fun _ => trivial) hint fun _ _ => trivial
  have synthesized := fun hint s kind r' => synthesized_formed c r r' hint s kind
  refine steps_keep c AnySchema AnyName _ (FormedSince r) _ steps synthesized ?_ r fun _ => .inl
  exact enter_alias_keep c AnySchema AnyName _ closed (fun _ _ => ⟨trivial, trivial⟩) synthesized _ []

end Formed

section Named

variable (c : Catalog) (enter : Component → Resolution ResolvedType) (s : Schema)
  (hint : Option String)

theorem plain_bare_type (plain : s.IsPlain) : c.bareType enter s hint =
    let unnamed := c.plainType s (c.resolveOrAny enter s.items)
      (c.resolveOrAny enter s.additionalProperties) hint
    if s.isEnumerable then c.synthesizeOr hint s .enumeration unnamed else unnamed := by
  obtain ⟨noOne, noAny⟩ := s.no_union_iff.mp plain.noUnion
  rw [bareType, plain.inline]
  simp only [plain.uncomposed, noOne, noAny, plain.noTuple, List.isEmpty_nil, Bool.not_true,
    Bool.false_eq_true, if_false]

theorem united_bare_type (inline : s.reference = none) (uncomposed : s.allOf = [])
    (united : s.unionMembers ≠ []) : c.bareType enter s hint =
      c.unionType s (c.resolveOnly enter Schema.isNullOnly s.unionMembers hint)
        (c.resolveMembers enter s.unionMembers) hint := by
  rw [bareType, inline, uncomposed]
  by_cases one : s.oneOf = []
  · have any : s.anyOf ≠ [] := fun none => united (s.no_union_iff.mpr ⟨one, none⟩)
    simp [Schema.unionMembers, one, any]
  · simp [Schema.unionMembers, one]

theorem bare_type_formed (kind : ComponentKind) (form : s.SynthesizedAs kind) :
    ∃ nullable unnamed,
      c.bareType enter s hint = (·.orNull nullable) <$> c.synthesizeOr hint s kind unnamed := by
  have withoutNull (m : Resolution ResolvedType) : m = (·.orNull false) <$> m := by
    rw [funext ResolvedType.or_null_false]
    exact (id_map m).symm
  cases form with
  | composition inline composed several =>
      have some : s.allOf ≠ [] := Schema.nonempty_of_filter _ _ composed
      refine ⟨s.allOf.any Schema.isNullMember, pure .any, ?_⟩
      rw [bareType, inline]
      dsimp only
      rw [if_pos (by simpa using some), composedType, if_neg (by simpa using composed),
        if_neg (by simpa using several), map_eq_pure_bind]
  | union inline uncomposed united several =>
      have some : s.unionMembers ≠ [] := Schema.nonempty_of_filter _ _ united
      refine ⟨s.hasUnionNull, do
        let members ← c.resolveMembers enter s.unionMembers
        pure { type := .union members }, ?_⟩
      rw [united_bare_type c enter s hint inline uncomposed some, unionType,
        if_neg (by simpa using united), if_neg (by simpa using several), map_eq_pure_bind]
  | enumeration plain enumerable =>
      refine ⟨false, c.plainType s (c.resolveOrAny enter s.items)
        (c.resolveOrAny enter s.additionalProperties) hint, ?_⟩
      rw [← withoutNull, plain_bare_type c enter s hint plain]
      exact if_pos enumerable
  | object plain isObject declares =>
      have single : (TypeFlags.ofSchema s).single? = some .object := by
        rw [TypeFlags.single?, isObject]
      refine ⟨false, pure (.mapOf .any), ?_⟩
      rw [← withoutNull, plain_bare_type c enter s hint plain]
      dsimp only
      rw [if_neg (by simp [Schema.isEnumerable, single]), plainType, isObject]
      dsimp only
      rw [typeOf, if_neg (by simpa using declares)]

theorem synthesize_or_registers (name : String) (kind : ComponentKind)
    (unnamed : Resolution ResolvedType) (enabled : c.config.synthesizeInlineTypes = true)
    (called : Naming.typeName name ≠ "") (r : Registry) :
    after (c.synthesizeOr (some name) s kind unnamed) r
      = (Registry.register c.typeNames (Naming.typeName name) s kind r).2 := by
  have given : c.synthesize (some name) s kind
      = some <$> modifyGet (Registry.register c.typeNames (Naming.typeName name) s kind) := by
    rw [synthesize, Option.map_some]
    dsimp only
    rw [if_neg (by simpa [enabled] using called)]
  rw [synthesizeOr]
  change after (c.synthesize (some name) s kind >>= _) r = _
  rw [given]
  rfl

end Named

/-- Whatever is synthesized while a schema is resolved is of the kind that its form makes of it, and
of the same kind as a component would be, but for bases of hierarchies, exactly if its forms do not
mix. At a position with a name every schema of a form is registered itself. -/
theorem inline_kinds_agree_iff (c : Catalog) (s : Schema) (hint : Option String) (r : Registry) :
    (∀ t ∈ (after (c.resolve s hint) r).types, t ∉ r.types →
        t.schema.SynthesizedAs t.kind ∧ (t.kind = t.schema.kind.inlined ↔ ¬ t.schema.IsMixed))
      ∧ ∀ name kind, hint = some name → c.config.synthesizeInlineTypes = true →
        Naming.typeName name ≠ "" → s.SynthesizedAs kind →
        after (c.resolve s hint) r
          = (Registry.register c.typeNames (Naming.typeName name) s kind r).2 := by
  constructor
  · intro t member fresh
    have form := (resolve_formed c s hint r t member).resolve_left fresh
    exact ⟨form, t.schema.synthesized_agrees_iff t.kind form⟩
  · rintro name kind rfl enabled called form
    obtain ⟨nullable, unnamed, bare⟩ :=
      bare_type_formed c (c.enterAlias c.components.length []) s (some name) kind form
    rw [resolve, resolve_with_eq, bare, ← map_eq_pure_bind, after_map, after_map]
    exact synthesize_or_registers c s name kind unnamed enabled called r

def composedChoice : Schema where
  allOf := [{ properties := [("id", { type := some (.single "integer") })] },
    { properties := [("name", { type := some (.single "string") })] }]
  oneOf := [{ properties := [("cat", { type := some (.single "string") })] },
    { properties := [("dog", { type := some (.single "string") })] }]

def declaredChoice : Schema where
  discriminator := some { propertyName := "kind" }
  oneOf := composedChoice.oneOf

theorem declared_choice_agrees :
    let c := ofDocument twoPets {}
    let t : SynthesizedType := ⟨"Choice", declaredChoice, .union⟩
    (after (c.resolve declaredChoice (some "choice")) {}).types = [t]
      ∧ t.kind = t.schema.kind.inlined ∧ ¬ t.schema.IsMixed := by
  have form : declaredChoice.SynthesizedAs .union :=
    .union rfl rfl (by decide) (by decide)
  have agrees := inline_kinds_agree_iff (ofDocument twoPets {}) declaredChoice (some "choice") {}
  have registered := agrees.2 "choice" .union rfl rfl (by decide) form
  have types : (after ((ofDocument twoPets {}).resolve declaredChoice (some "choice")) {}).types
      = [⟨"Choice", declaredChoice, .union⟩] := by
    rw [registered]
    rfl
  have member : ⟨"Choice", declaredChoice, .union⟩
      ∈ (after ((ofDocument twoPets {}).resolve declaredChoice (some "choice")) {}).types := by
    rw [types]
    exact List.mem_singleton_self _
  have decided := agrees.1 _ member List.not_mem_nil
  exact ⟨types, rfl, decided.2.mp rfl⟩

-- As a component the schema is the union, inline it is synthesized as the composition.
theorem composed_choice_kinds_differ :
    let c := ofDocument twoPets {}
    (after (c.resolve composedChoice (some "choice")) {}).types
        = [⟨"Choice", composedChoice, .record⟩]
      ∧ composedChoice.kind = .union :=
  ⟨rfl, rfl⟩

end Catalog

end OpenApi
