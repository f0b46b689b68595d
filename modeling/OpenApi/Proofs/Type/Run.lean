import OpenApi.Proofs.Schema.Same
import OpenApi.Proofs.Type.Alias

set_option autoImplicit false

namespace OpenApi

structure KeyedSchema where
  schema : Schema
  keyed : schema.isKeyed = true

inductive Call where
  | resolve (s : KeyedSchema) (hint : Option String)
  | resolveRest (s : KeyedSchema) (hint : Option String)
  | synthesize (hint : Option String) (s : KeyedSchema) (kind : ComponentKind)
  | takePending

namespace Call

def isSynthesis : Call → Bool
  | .synthesize .. => true
  | _ => false

end Call

namespace Catalog

open Resolution

def call (c : Catalog) (r : Registry) : Call → Registry
  | .resolve s hint => after (c.resolve s.schema hint) r
  | .resolveRest s hint => after (c.resolveRest s.schema hint) r
  | .synthesize hint s kind => c.synthesized hint s.schema kind r
  | .takePending => after Resolution.takePending r

def run (c : Catalog) (r : Registry) (calls : List Call) : Registry := calls.foldl c.call r

structure Sound (c : Catalog) (r : Registry) : Prop where
  named : r.WellNamed c.typeNames
  keyed : ∀ t ∈ r.types, t.schema.isKeyed = true

theorem sound_empty (c : Catalog) : c.Sound {} where
  named := Registry.well_named_empty c.typeNames
  keyed t member := by cases member

section Run

variable (c : Catalog) (components : ∀ d ∈ c.components, d.schema.isKeyed = true)

include components

theorem resolve_keyed (s : KeyedSchema) (hint : Option String) :
    Lawful c (·.isKeyed = true) (c.resolve s.schema hint) c.Knows :=
  resolve_lawful c _ (fun s keyed child member => s.keyed_child child keyed member) components
    s.schema s.keyed hint

theorem resolve_rest_keyed (s : KeyedSchema) (hint : Option String) :
    Lawful c (·.isKeyed = true) (c.resolveRest s.schema hint)
      fun r rest => ∀ t ∈ rest, c.Knows r t :=
  resolve_rest_lawful c _ (fun s keyed child member => s.keyed_child child keyed member) components
    s.schema s.keyed hint

theorem call_cases (r : Registry) (call : Call) : (c.call r call).types = r.types
    ∨ (∃ hint s kind, call = .synthesize hint s kind)
    ∨ Registers c (·.isKeyed = true) r (c.call r call) := by
  cases call with
  | resolve s hint => exact .inr (.inr ((resolve_keyed c components s hint).registers r))
  | resolveRest s hint => exact .inr (.inr ((resolve_rest_keyed c components s hint).registers r))
  | synthesize hint s kind => exact .inr (.inl ⟨hint, s, kind, rfl⟩)
  | takePending => exact .inl (pending_taken_types r)

theorem call_extends (r : Registry) (call : Call) : r.Extends (c.call r call) := by
  rcases call_cases c components r call with same | ⟨hint, s, kind, rfl⟩ | registers
  · rw [Registry.Extends, same]
  · exact c.synthesized_extends hint s.schema kind r
  · exact registers_extends c _ r _ registers

theorem call_sound (r : Registry) (call : Call) (sound : c.Sound r) : c.Sound (c.call r call) := by
  rcases call_cases c components r call with same | ⟨hint, s, kind, rfl⟩ | registers
  · have sameNames : (c.call r call).names = r.names := by rw [Registry.names, same, Registry.names]
    constructor
    · exact ⟨sameNames ▸ sound.named.distinct, sameNames ▸ sound.named.free⟩
    · exact same ▸ sound.keyed
  · constructor
    · exact c.synthesized_well_named hint s.schema kind r sound.named
    · intro t member
      rcases c.synthesized_mem hint s.schema kind r t member with old | ⟨isSchema, _⟩
      · exact sound.keyed t old
      · rw [isSchema]
        exact s.keyed
  · constructor
    · exact registers_well_named c _ r _ registers sound.named
    · intro t member
      rcases registers_mem c _ r _ registers t member with old | ⟨keyed, _⟩
      · exact sound.keyed t old
      · exact keyed

theorem call_runs (r : Registry) (call : Call) (other : call ≠ .takePending) :
    ∃ inner : List Call, (∀ k ∈ inner, k.isSynthesis = true) ∧ c.call r call = c.run r inner := by
  have grown : ∀ r', Registers c (·.isKeyed = true) r r' →
      ∃ inner : List Call, (∀ k ∈ inner, k.isSynthesis = true) ∧ r' = c.run r inner := by
    intro r' registers
    induction registers with
    | none => exact ⟨[], by simp, rfl⟩
    | next r' hint s kind _ keyed _ ih =>
        obtain ⟨inner, syntheses, rfl⟩ := ih
        refine ⟨inner ++ [.synthesize hint ⟨s, keyed⟩ kind], ?_, ?_⟩
        · intro k member
          rcases List.mem_append.mp member with early | last
          · exact syntheses k early
          · rw [List.mem_singleton.mp last]
            rfl
        · rw [run, run, List.foldl_append]
          rfl
  cases call with
  | resolve s hint => exact grown _ ((resolve_keyed c components s hint).registers r)
  | resolveRest s hint => exact grown _ ((resolve_rest_keyed c components s hint).registers r)
  | synthesize hint s kind => exact ⟨[.synthesize hint s kind], by simp [Call.isSynthesis], rfl⟩
  | takePending => exact absurd rfl other

theorem run_extends (calls : List Call) (r : Registry) : r.Extends (c.run r calls) := by
  induction calls generalizing r with
  | nil => exact r.extends_refl
  | cons first rest ih =>
      exact r.extends_trans _ _ (call_extends c components r first) (ih (c.call r first))

theorem run_sound (calls : List Call) (r : Registry) (sound : c.Sound r) :
    c.Sound (c.run r calls) := by
  induction calls generalizing r with
  | nil => exact sound
  | cons first rest ih => exact ih _ (call_sound c components r first sound)

theorem handed_keyed (r : Registry) (sound : c.Sound r) (hint : Option String) (s : KeyedSchema)
    (kind : ComponentKind) (name : String)
    (handed : answer (c.synthesize hint s.schema kind) r = .ok (some name)) :
    ∃ t, (c.synthesized hint s.schema kind r).stored? name = some t
      ∧ t.schema.isKeyed = true ∧ t.schema.same s.schema = true := by
  have after := call_sound c components r (.synthesize hint s kind) sound
  obtain ⟨t, stored, equal⟩ := c.synthesized_stored hint s.schema kind r name handed
  have keyed := after.keyed t (Registry.stored_mem _ name t stored)
  rcases equal with isSchema | same
  · exact ⟨t, stored, keyed, isSchema ▸ s.schema.same_refl s.keyed⟩
  · exact ⟨t, stored, keyed, same⟩

theorem handed_twice (r : Registry) (sound : c.Sound r) (between : List Call)
    (hint hint' : Option String) (s s' : KeyedSchema) (kind kind' : ComponentKind) (name : String)
    (first : answer (c.synthesize hint s.schema kind) r = .ok (some name))
    (second : answer (c.synthesize hint' s'.schema kind')
      (c.run (c.synthesized hint s.schema kind r) between) = .ok (some name)) :
    s.schema.same s'.schema = true := by
  let r₁ := c.synthesized hint s.schema kind r
  let r₂ := c.run r₁ between
  let r₃ := c.synthesized hint' s'.schema kind' r₂
  have sound₁ : c.Sound r₁ := call_sound c components r (.synthesize hint s kind) sound
  have sound₂ : c.Sound r₂ := run_sound c components between r₁ sound₁
  obtain ⟨t, stored, keyed, same⟩ := handed_keyed c components r sound hint s kind name first
  obtain ⟨t', stored', _, same'⟩ := handed_keyed c components r₂ sound₂ hint' s' kind' name second
  have grown : r₁.Extends r₃ := r₁.extends_trans r₂ r₃ (run_extends c components between r₁)
    (c.synthesized_extends hint' s'.schema kind' r₂)
  have kept : r₃.stored? name = some t := r₁.stored_extends r₃ name t grown stored
  obtain rfl : t = t' := Option.some.inj (kept.symm.trans stored')
  have back := t.schema.same_symm s.schema keyed s.keyed same
  exact Schema.same_trans _ _ _ back same'

theorem resolve_again (r : Registry) (sound : c.Sound r) (between : List Call) (s : KeyedSchema)
    (hint : Option String) :
    let r' := c.run (after (c.resolve s.schema hint) r) between
    answer (c.resolve s.schema hint) r' = answer (c.resolve s.schema hint) r
      ∧ after (c.resolve s.schema hint) r' = r' := by
  intro r'
  have firstSound := call_sound c components r (.resolve s hint) sound
  have laterSound := run_sound c components between _ firstSound
  exact (resolve_keyed c components s hint).repeats Schema.same_refl r r' laterSound.named
    (run_extends c components between _)

-- The references agree because both enter the same alias, and entering it is lawful.
theorem alias_again (r : Registry) (sound : c.Sound r) (between : List Call) (s s' : KeyedSchema)
    (hint hint' : Option String) (d : Component) (toAlias : c.RefersToAlias s.schema d)
    (toAlias' : c.RefersToAlias s'.schema d) :
    let r' := c.run (after (c.resolve s.schema hint) r) between
    ∃ common : Except Error ResolvedType,
      answer (c.resolve s.schema hint) r = common.map s.schema.over
        ∧ answer (c.resolve s'.schema hint') r' = common.map s'.schema.over := by
  intro r'
  let enter := c.enterAlias c.components.length []
  have first : c.resolve s.schema hint = s.schema.over <$> enter d :=
    alias_reference_eq c s.schema d toAlias enter hint
  have second : c.resolve s'.schema hint' = s'.schema.over <$> enter d :=
    alias_reference_eq c s'.schema d toAlias' enter hint'
  have member : d ∈ c.components := by
    obtain ⟨reference, _, resolved, _⟩ := toAlias
    exact c.target_mem reference d resolved
  have lawful : Lawful c (·.isKeyed = true) (enter d) c.Knows :=
    enter_alias_lawful c _ (fun s keyed child member => s.keyed_child child keyed member) components
      c.components.length [] d member
  have firstSound := call_sound c components r (.resolve s hint) sound
  have laterSound : c.Sound r' := run_sound c components between _ firstSound
  have grown : (after (enter d) r).Extends r' := by
    have left : after (c.resolve s.schema hint) r = after (enter d) r := by rw [first, after_map]
    rw [← left]
    exact run_extends c components between _
  have again : answer (enter d) r' = answer (enter d) r :=
    (lawful.repeats Schema.same_refl r r' laterSound.named grown).1
  refine ⟨answer (enter d) r, ?_, ?_⟩
  · rw [first, answer_map]
  · rw [second, answer_map, again]

end Run

def twoPets : Document where
  version := .v31
  contents := { components := { schemas := [
    ("pet", { properties := [("name", { type := some (.single "string") })] }),
    ("Pet", { properties := [("id", { type := some (.single "integer") })] })] } }

def inlineOwner : KeyedSchema :=
  ⟨{ properties := [("owner", { type := some (.single "string") })] }, by decide⟩

def inlineTag : KeyedSchema :=
  ⟨{ properties := [("tag", { type := some (.single "string") })] }, by decide⟩

/-- Names are unique in every state of a resolver: components and synthesized types all have names
of their own, and every type stays what it is. A name is handed out twice only for equal schemas.
What a call registers it registers like calls that synthesize, so this holds amid a call as well. -/
theorem resolver_names_unique (document : Document) (config : Config)
    (keyed : document.isKeyed = true) (calls : List Call) :
    let c := ofDocument document config
    let r := c.run {} calls
    c.typeNames.Nodup
      ∧ r.names.Nodup
      ∧ (∀ name ∈ r.names, name ∉ c.typeNames)
      ∧ (∀ t ∈ r.types, ∀ later, (c.run r later).stored? t.name = some t)
      ∧ (∀ (s s' : KeyedSchema) hint hint' kind kind' name between,
          answer (c.synthesize hint s.schema kind) r = .ok (some name) →
          answer (c.synthesize hint' s'.schema kind')
            (c.run (c.synthesized hint s.schema kind r) between) = .ok (some name) →
          s.schema.same s'.schema = true)
      ∧ ∀ call, call ≠ .takePending → ∃ inner : List Call,
          (∀ k ∈ inner, k.isSynthesis = true) ∧ c.call r call = c.run r inner := by
  intro c r
  have components := (regular_of_document document config keyed).keyed
  have sound : c.Sound r := run_sound c components calls {} (sound_empty c)
  refine ⟨type_names_distinct document config, sound.named.distinct, sound.named.free, ?_, ?_, ?_⟩
  · intro t member later
    have grown := run_extends c components later r
    exact r.stored_extends _ t.name t grown (r.stored_of_mem c.typeNames t sound.named member)
  · intro s s' hint hint' kind kind' name between
    exact handed_twice c components r sound between hint hint' s s' kind kind' name
  · exact call_runs c components r

theorem two_pets_names :
    let c := ofDocument twoPets {}
    let r := c.run {} [.resolve inlineOwner (some "pet"), .resolve inlineTag (some "pet")]
    c.typeNames = ["Pet", "Pet2"] ∧ r.names = ["Pet3", "Pet4"]
      ∧ ∀ name ∈ r.names, name ∉ c.typeNames :=
  ⟨by decide, by decide, (resolver_names_unique twoPets {} (by decide) _).2.2.1⟩

/-- Resolution is stable in every state of a resolver: what was resolved once is resolved to the same
later, or fails in the same way, and nothing is registered again. All references to one alias are
resolved to the same, but for what they add themselves, and amid other aliases to nothing else. -/
theorem resolution_stable (document : Document) (config : Config)
    (keyed : document.isKeyed = true) (calls : List Call) :
    let c := ofDocument document config
    let r := c.run {} calls
    (∀ (s : KeyedSchema) hint between,
        let r' := c.run (after (c.resolve s.schema hint) r) between
        answer (c.resolve s.schema hint) r' = answer (c.resolve s.schema hint) r
          ∧ after (c.resolve s.schema hint) r' = r')
      ∧ (∀ (s s' : KeyedSchema) hint hint' d between,
          c.RefersToAlias s.schema d → c.RefersToAlias s'.schema d →
          let r' := c.run (after (c.resolve s.schema hint) r) between
          ∃ common : Except Error ResolvedType,
            answer (c.resolve s.schema hint) r = common.map s.schema.over
              ∧ answer (c.resolve s'.schema hint') r' = common.map s'.schema.over)
      ∧ ∀ (s : Schema) hint depth trail t, depth ≤ c.components.length →
          answer (c.resolveWith (c.enterAlias depth trail) s hint) r = .ok t →
          answer (c.resolve s hint) r = .ok t
            ∧ after (c.resolve s hint) r = after (c.resolveWith (c.enterAlias depth trail) s hint) r := by
  intro c r
  have components := (regular_of_document document config keyed).keyed
  have sound : c.Sound r := run_sound c components calls {} (sound_empty c)
  refine ⟨?_, ?_, ?_⟩
  · exact fun s hint between => resolve_again c components r sound between s hint
  · intro s s' hint hint' d between
    exact alias_again c components r sound between s s' hint hint' d
  · intro s hint depth trail t within
    exact resolve_refines c s hint depth trail within r t

theorem two_pets_stable :
    let c := ofDocument twoPets {}
    let again := c.resolve inlineOwner.schema (some "pet")
    let r := c.run (after again {}) [.resolve inlineTag (some "pet"), .takePending]
    r.names = ["Pet3", "Pet4"] ∧ answer again r = answer again {} ∧ after again r = r :=
  ⟨by decide, (resolution_stable twoPets {} (by decide) []).1 inlineOwner (some "pet") _⟩

end Catalog

end OpenApi
