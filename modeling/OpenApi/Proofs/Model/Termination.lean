import Mathlib.Data.Set.Card
import Mathlib.Algebra.Order.BigOperators.Group.List
import OpenApi.Proofs.Model.Steps
import OpenApi.Proofs.Schema.Same

set_option autoImplicit false

namespace OpenApi

open Catalog Resolution

namespace Catalog

section Entering

variable (c : Catalog)

-- Entering the component registers nothing, however the registry has grown.
def Settled (r : Registry) (d : Component) : Prop :=
  ∀ r', r.Extends r' → r'.WellNamed c.typeNames →
    after (c.enterAlias c.components.length [] d) r' = r'

def unsettled (r : Registry) : Set Component := {d | d ∈ c.components ∧ ¬ c.Settled r d}

theorem settled_extends (r r' : Registry) (d : Component) (grown : r.Extends r')
    (settled : c.Settled r d) : c.Settled r' d :=
  fun r'' further named => settled r'' (r.extends_trans r' r'' grown further) named

theorem unsettled_finite (r : Registry) : (c.unsettled r).Finite :=
  (List.finite_toSet c.components).subset fun _ unsettled => unsettled.1

theorem unsettled_extends (r r' : Registry) (grown : r.Extends r') :
    c.unsettled r' ⊆ c.unsettled r := fun d unsettled =>
  ⟨unsettled.1, fun settled => unsettled.2 (c.settled_extends r r' d grown settled)⟩

def Advances (J : Schema → Prop) (r r' : Registry) : Prop :=
  Registers c J r r' ∨ ∃ d ∈ c.components, ¬ c.Settled r d ∧ c.Settled r' d

theorem fewer_unsettled (r r' : Registry) (grown : r.Extends r') (d : Component)
    (member : d ∈ c.components) (before : ¬ c.Settled r d) (settled : c.Settled r' d) :
    (c.unsettled r').ncard < (c.unsettled r).ncard := by
  refine Set.ncard_lt_ncard ⟨c.unsettled_extends r r' grown, fun all => ?_⟩ (c.unsettled_finite r)
  exact (all ⟨member, before⟩).2 settled

variable (components : ∀ d ∈ c.components, d.schema.isKeyed = true)

include components

theorem entered_settled (d : Component) (member : d ∈ c.components) (r : Registry) :
    c.Settled (after (c.enterAlias c.components.length [] d) r) d := by
  intro r' grown named
  have lawful := enter_alias_lawful c (·.isKeyed = true)
    (fun s keyed child isChild => s.keyed_child child keyed isChild) components
    c.components.length [] d member
  exact (lawful.repeats Schema.same_refl r r' named grown).2

theorem steps_advance {α : Type} (J : Schema → Prop) (m : Resolution α)
    (steps : c.Synthesizes J AnyName m) (r : Registry) (named : r.WellNamed c.typeNames) :
    c.Advances J r (after m r) := by
  have grows {β : Type} (m : Resolution β) (steps : c.Synthesizes J AnyName m) (r : Registry) :
      Registers c AnySchema r (after m r) :=
    steps_register c J AnyName _ AnySchema m steps (fun _ _ => trivial)
      (enter_alias_registers c AnySchema (fun _ _ _ _ _ => trivial) (fun _ _ => trivial) _ []) r
  induction steps generalizing r with
  | lift x => exact .inl .none
  | synthesize hint s kind asks =>
      exact .inl (.next r hint s kind .none asks.allowed asks.named)
  | enter d member =>
      by_cases settled : c.Settled r d
      · rw [settled r r.extends_refl named]
        exact .inl .none
      · exact .inr ⟨d, member, settled, entered_settled c components d member r⟩
  | bind m f first second ihFirst ihSecond =>
      rw [after_bind]
      cases found : answer m r with
      | error e => exact ihFirst r named
      | ok a =>
          have firstGrows := grows m first r
          have secondGrows := grows (f a) (second r a found) (after m r)
          rcases ihFirst r named with registers | ⟨d, member, before, settled⟩
          · have namedAfter := registers_well_named c AnySchema r _ firstGrows named
            rcases ihSecond r a found (after m r) namedAfter with more | ⟨d, member, before, settled⟩
            · exact .inl (registers_trans c J r _ _ registers more)
            · refine .inr ⟨d, member, fun early => before ?_, settled⟩
              exact c.settled_extends r _ d (registers_extends c AnySchema r _ firstGrows) early
          · refine .inr ⟨d, member, before, ?_⟩
            exact c.settled_extends _ _ d (registers_extends c AnySchema _ _ secondGrows) settled

end Entering

section Simple

variable (c : Catalog)

def SimpleInside (s : Schema) : Prop := ∀ p ∈ s.insides, c.composesSimply p = true

def Simple (s : Schema) : Prop := c.composesSimply s = true ∧ c.SimpleInside s

def SimpleBelow (n : Nat) (s : Schema) : Prop := c.Simple s ∧ sizeOf s < n

theorem simple_inside_closed : PartClosed c.SimpleInside :=
  fun s inside p part _ q within => inside q (s.part_insides p part within)

theorem simple_closed : PartClosed c.Simple := by
  intro s simple p part isInline
  refine ⟨?_, c.simple_inside_closed s simple.2 p part isInline⟩
  rcases s.part_cases p part with position | ⟨member, present⟩
  · exact simple.2 p (s.position_inside p position)
  · obtain ⟨_, members⟩ := (c.composes_simply_iff s).mp simple.1
    exact c.composes_simply_of_none p ((members p member present).2 isInline)

theorem simple_below_closed (n : Nat) : PartClosed (c.SimpleBelow n) := by
  intro s below p part isInline
  have smaller := s.child_smaller p (s.part_child p part)
  exact ⟨c.simple_closed s below.1 p part isInline, Nat.lt_trans smaller below.2⟩

theorem simple_of_inside (s p : Schema) (simple : c.SimpleInside s) (inside : p ∈ s.insides) :
    c.Simple p :=
  ⟨simple p inside, fun q within => simple q (s.inside_insides p inside within)⟩

-- A simple schema takes over no component, so all that it resolves is smaller.
theorem declares_below (n : Nat) (name : String) (s : Schema) (below : c.SimpleBelow (n + 1) s) :
    c.Declares (c.SimpleBelow n) AnyName AnyName name none s := by
  have inside (p : Schema) (within : p ∈ s.insides) : c.SimpleBelow n p :=
    ⟨c.simple_of_inside s p below.1.2 within,
      Nat.lt_of_lt_of_le (s.inside_smaller p within) (Nat.lt_succ_iff.mp below.2)⟩
  constructor
  · exact fun p position => inside p (s.position_inside p position)
  · exact fun flat => simple_flatten_within c _ s flat inside below.1.1
  · trivial
  · exact fun _ _ _ _ => trivial

theorem declares_simple (components : ∀ d ∈ c.components, c.SimpleInside d.schema)
    (name : String) (source : Option String) (s : Schema) (simple : c.SimpleInside s) :
    c.Declares c.Simple AnyName AnyName name source s := by
  constructor
  · exact fun p position => c.simple_of_inside s p simple (s.position_inside p position)
  · refine fun flat => flatten_within c c.Simple (fun d member p inside => ?_) source s ?_ flat
    · exact c.simple_of_inside d.schema p (components d member) inside
    · exact fun p inside => c.simple_of_inside s p simple inside
  · trivial
  · exact fun _ _ _ _ => trivial

def composesBelowSimply : Bool :=
  (c.components.all fun d => d.schema.insides.all c.composesSimply)
    && c.document.partSchemas.all fun s => (s :: s.insides).all c.composesSimply

theorem composes_below_iff : c.composesBelowSimply = true ↔
    (∀ d ∈ c.components, c.SimpleInside d.schema) ∧ ∀ s ∈ c.document.partSchemas, c.Simple s := by
  simp [composesBelowSimply, SimpleInside, Simple]

end Simple

end Catalog

namespace Api

def Ends (c : Catalog) (api : Api) (r : Registry) : Prop :=
  ∃ rounds, answer (addRounds c rounds api) r ≠ .ok none

section Rounds

variable (c : Catalog) (api : Api) (r : Registry)

theorem rounds_step (rounds : Nat) : answer (addRounds c (rounds + 1) api) r =
    if r.pending.isEmpty then .ok (some api)
    else answer (do addRounds c rounds (← api.addSynthesized c r.pending))
      (after Resolution.takePending r) := by
  rw [addRounds, answer_bind]
  change answer (if r.pending.isEmpty then pure (some api) else _) _ = _
  by_cases nothing : r.pending.isEmpty = true
  · rw [if_pos nothing, if_pos nothing]
    rfl
  · rw [if_neg nothing, if_neg nothing]

theorem rounds_more (rounds : Nat) (enough : answer (addRounds c rounds api) r ≠ .ok none) :
    answer (addRounds c (rounds + 1) api) r = answer (addRounds c rounds api) r := by
  induction rounds generalizing api r with
  | zero =>
      rw [rounds_step]
      have here : answer (addRounds c 0 api) r
          = .ok (if r.pending.isEmpty then some api else none) := rfl
      rw [here] at enough ⊢
      by_cases nothing : r.pending.isEmpty = true
      · rw [if_pos nothing, if_pos nothing]
      · simp [nothing] at enough
  | succ rounds ih =>
      rw [rounds_step] at enough
      rw [rounds_step, rounds_step]
      by_cases nothing : r.pending.isEmpty = true
      · rw [if_pos nothing, if_pos nothing]
      · rw [if_neg nothing] at enough
        rw [if_neg nothing, if_neg nothing]
        rw [answer_bind] at enough ⊢
        rw [answer_bind]
        cases added : answer (api.addSynthesized c r.pending) (after Resolution.takePending r) with
        | error e => rfl
        | ok api' =>
            rw [added] at enough
            exact ih api' _ enough

theorem rounds_stable (rounds more : Nat) (further : rounds ≤ more)
    (enough : answer (addRounds c rounds api) r ≠ .ok none) :
    answer (addRounds c more api) r = answer (addRounds c rounds api) r := by
  induction more, further using Nat.le_induction with
  | base => rfl
  | succ more _ ih =>
      rw [← ih] at enough
      exact (rounds_more c api r more enough).trans ih

theorem rounds_agree (rounds others : Nat) (enough : answer (addRounds c rounds api) r ≠ .ok none)
    (enoughOthers : answer (addRounds c others api) r ≠ .ok none) :
    answer (addRounds c others api) r = answer (addRounds c rounds api) r := by
  rcases Nat.le_total rounds others with further | further
  · exact rounds_stable c api r rounds others further enough
  · exact (rounds_stable c api r others rounds further enoughOthers).symm

theorem ends_nothing (nothing : r.pending = []) : Ends c api r := by
  refine ⟨1, ?_⟩
  rw [rounds_step, nothing]
  simp

theorem ends_step (next : ∀ api',
      Ends c api' (after (api.addSynthesized c r.pending) (after Resolution.takePending r))) :
    Ends c api r := by
  cases added : answer (api.addSynthesized c r.pending) (after Resolution.takePending r) with
  | error e =>
      refine ⟨1, ?_⟩
      rw [rounds_step, answer_bind, added]
      split <;> simp
  | ok api' =>
      obtain ⟨rounds, enough⟩ := next api'
      refine ⟨rounds + 1, ?_⟩
      rw [rounds_step, answer_bind, added]
      split
      · simp
      · exact enough

end Rounds

structure Ready (c : Catalog) (r : Registry) : Prop where
  named : r.WellNamed c.typeNames
  simple : ∀ t ∈ r.pending, c.SimpleInside t.schema

-- What a computation leaves that synthesizes schemas of `J`: unless a component was entered for the
-- first time, nothing else is pending.
structure Progress (c : Catalog) (J : Schema → Prop) (r r' : Registry) : Prop where
  ready : Ready c r'
  fewer : (c.unsettled r').ncard ≤ (c.unsettled r).ncard
  pending : (∀ t ∈ r'.pending, J t.schema) ∨ (c.unsettled r').ncard < (c.unsettled r).ncard

section Termination

variable (c : Catalog) (keyed : ∀ d ∈ c.components, d.schema.isKeyed = true)
  (simple : ∀ d ∈ c.components, c.SimpleInside d.schema)

theorem registers_pending (J : Schema → Prop) (r r' : Registry) (grown : Registers c J r r')
    (t : SynthesizedType) (member : t ∈ r'.pending) : t ∈ r.pending ∨ J t.schema := by
  induction grown with
  | none => exact .inl member
  | next r' hint s kind _ allowed _ ih =>
      rcases c.synthesized_cases hint s kind r' with same | ⟨base, registered⟩
      · exact ih (same ▸ member)
      · rw [registered] at member
        have step := Registry.register_registered c.typeNames base s kind r'
        generalize Registry.register c.typeNames base s kind r' = outcome at step member
        cases step with
        | reused => exact ih member
        | added =>
            rcases List.mem_append.mp member with old | new
            · exact ih old
            · rw [List.mem_singleton.mp new]
              exact .inr allowed

include keyed simple

theorem steps_progress {α : Type} (J : Schema → Prop) (weaker : ∀ s, J s → c.SimpleInside s)
    (m : Resolution α) (steps : c.Synthesizes J AnyName m) (r : Registry)
    (named : r.WellNamed c.typeNames) (nothing : r.pending = []) :
    Progress c J r (after m r) := by
  have grown : Registers c c.SimpleInside r (after m r) :=
    steps_register c J AnyName _ c.SimpleInside m steps weaker
      (enter_alias_registers c _ c.simple_inside_closed simple _ []) r
  have extended := registers_extends c _ r _ grown
  have pending {I : Schema → Prop} (registers : Registers c I r (after m r)) :
      ∀ t ∈ (after m r).pending, I t.schema := by
    intro t member
    rcases registers_pending c I r _ registers t member with old | allowed
    · rw [nothing] at old
      cases old
    · exact allowed
  constructor
  · exact ⟨registers_well_named c _ r _ grown named, pending grown⟩
  · exact Set.ncard_le_ncard (c.unsettled_extends r _ extended) (c.unsettled_finite r)
  · rcases steps_advance c keyed J m steps r named with registers | ⟨d, member, before, settled⟩
    · exact .inl (pending registers)
    · exact .inr (c.fewer_unsettled r _ extended d member before settled)

theorem round_progress (J : Schema → Prop) (closed : PartClosed J)
    (weaker : ∀ s, J s → c.SimpleInside s) (api : Api) (r : Registry)
    (named : r.WellNamed c.typeNames)
    (declares : ∀ t ∈ r.pending, c.Declares J AnyName AnyName t.name none t.schema) :
    Progress c J r (after (api.addSynthesized c r.pending) (after Resolution.takePending r)) := by
  have grown : r.Extends (after Resolution.takePending r) := by
    rw [Registry.Extends, pending_taken_types]
  have fewer : (c.unsettled (after Resolution.takePending r)).ncard ≤ (c.unsettled r).ncard :=
    Set.ncard_le_ncard (c.unsettled_extends r _ grown) (c.unsettled_finite r)
  have made := steps_progress c keyed simple J weaker _
    (synthesized_steps c J AnyName AnyName (any_name_closed J closed) any_starts r.pending declares
      api) (after Resolution.takePending r)
    (pending_taken_named c.typeNames r named) rfl
  exact ⟨made.ready, Nat.le_trans made.fewer fewer,
    made.pending.imp_right fun entered => Nat.lt_of_lt_of_le entered fewer⟩

theorem ends_below (unsettled n : Nat)
    (later : ∀ api r, Ready c r → (c.unsettled r).ncard < unsettled → Ends c api r) (api : Api)
    (r : Registry) (ready : Ready c r) (within : (c.unsettled r).ncard ≤ unsettled)
    (below : ∀ t ∈ r.pending, c.SimpleBelow n t.schema) : Ends c api r := by
  induction n generalizing api r with
  | zero =>
      refine ends_nothing c api r (List.eq_nil_iff_forall_not_mem.mpr fun t member => ?_)
      exact Nat.not_lt_zero _ (below t member).2
  | succ n ih =>
      refine ends_step c api r fun api' => ?_
      have made := round_progress c keyed simple (c.SimpleBelow n) (c.simple_below_closed n)
        (fun s allowed => allowed.1.2) api r ready.named
        fun t member => c.declares_below n t.name t.schema (below t member)
      -- what is pending gets smaller, unless a component is entered for the first time
      rcases made.pending with smaller | entered
      · exact ih api' _ made.ready (Nat.le_trans made.fewer within) smaller
      · exact later api' _ made.ready (Nat.lt_of_lt_of_le entered within)

theorem ends_ready (api : Api) (r : Registry) (ready : Ready c r) : Ends c api r := by
  generalize bound : (c.unsettled r).ncard = unsettled
  induction unsettled using Nat.strong_induction_on generalizing api r with
  | h unsettled ih =>
      refine ends_step c api r fun api' => ?_
      have made := round_progress c keyed simple c.Simple c.simple_closed
        (fun s allowed => allowed.2) api r ready.named
        fun t member => c.declares_simple simple t.name none t.schema (ready.simple t member)
      have later (api : Api) (r : Registry) (ready : Ready c r)
          (fewer : (c.unsettled r).ncard < unsettled) : Ends c api r :=
        ih _ fewer api r ready rfl
      -- one round leaves only simple types, or a component less to be entered
      rcases made.pending with allSimple | entered
      · generalize after (api.addSynthesized c r.pending) (after Resolution.takePending r) = r'
          at made allSimple
        let sizes := r'.pending.map fun t => sizeOf t.schema
        refine ends_below c keyed simple unsettled (sizes.sum + 1) later api' r' made.ready
          (bound ▸ made.fewer) fun t member => ⟨allSimple t member, ?_⟩
        exact Nat.lt_succ_of_le (List.le_sum_of_mem (List.mem_map_of_mem member))
      · exact later api' _ made.ready (bound ▸ entered)

end Termination

def prepared (c : Catalog) : Resolution Api := do
  let api : Api := {
    title := c.document.title
    version := c.document.apiVersion
    «namespace» := c.config.namespace }
  let api ← api.addComponents c c.components
  api.addOperations c

theorem resolution_eq (c : Catalog) (rounds : Nat) :
    resolution c rounds = prepared c >>= addRounds c rounds := by
  rw [resolution, prepared, bind_assoc]

theorem prepared_ready (c : Catalog) (keyed : ∀ d ∈ c.components, d.schema.isKeyed = true)
    (simple : c.composesBelowSimply = true) : Ready c (after (prepared c) {}) := by
  obtain ⟨components, parts⟩ := c.composes_below_iff.mp simple
  have closed := any_name_closed c.Simple c.simple_closed
  have steps : c.Synthesizes c.Simple AnyName (prepared c) := by
    refine steps_then c _ _ _ _ _ ?_ fun api =>
      operations_steps c _ _ _ closed any_starts parts c.document.any_names api
    refine components_steps c _ _ _ closed any_starts _ (fun d member => ?_) _
    exact c.declares_simple components d.typeName (some d.name) d.schema (components d member)
  exact (steps_progress c keyed components c.Simple (fun s allowed => allowed.2) _ steps {}
    (Registry.well_named_empty c.typeNames) rfl).ready

def ring : Document where
  version := .v31
  contents := { components := { schemas := [
    ("Node", { properties := [
      ("links", { reference := some "#/components/schemas/Links" }),
      ("copy", { allOf := [
        { reference := some "#/components/schemas/Node" },
        { properties := [
          ("origin", { properties := [
            ("node", { reference := some "#/components/schemas/Node" })] })] }] })] }),
    ("Links", { type := some (.single "array"), items := some (.schema {
      oneOf := [
        { reference := some "#/components/schemas/Node" },
        { properties := [
          ("more", { reference := some "#/components/schemas/Links" })] }] }) })] } }

/-- The pending types of a document come to an end, or its extraction fails, where each composition
below the top level of a component, or in a part of an operation, has no other reference than one to
its base. That holds however records, unions and aliases refer to one another. A run of the fixed
number of rounds that is not cut short has the same outcome. -/
theorem extraction_ends (document : Document) (config : Config) (keyed : document.isKeyed = true)
    (simple : (Catalog.ofDocument document config).composesBelowSimply = true) :
    ∃ rounds,
      (∀ more, rounds ≤ more →
        ofDocument? document config more = ofDocument? document config rounds)
      ∧ (ofDocument? document config roundLimit ≠ .ok none →
        ofDocument? document config roundLimit = ofDocument? document config rounds)
      ∧ ((∃ e, ofDocument? document config rounds = .error e)
        ∨ ∃ api, ofDocument? document config rounds = .ok (some api)
          ∧ (after (resolution (.ofDocument document config) rounds) {}).pending = []) := by
  let c := Catalog.ofDocument document config
  have regular := regular_of_document document config keyed
  have ready := prepared_ready c regular.keyed simple
  have whole (rounds : Nat) : ofDocument? document config rounds
      = answer (prepared c >>= addRounds c rounds) {} := by
    rw [← resolution_eq]
    rfl
  cases made : answer (prepared c) {} with
  | error e =>
      have failed (rounds : Nat) : ofDocument? document config rounds = .error e := by
        rw [whole, answer_bind, made]
      exact ⟨0, fun more _ => by rw [failed, failed], fun _ => by rw [failed, failed],
        .inl ⟨e, failed 0⟩⟩
  | ok api =>
      obtain ⟨rounds, enough⟩ := ends_ready c regular.keyed (c.composes_below_iff.mp simple).1 api _
        ready
      have same (n : Nat) : ofDocument? document config n
          = answer (addRounds c n api) (after (prepared c) {}) := by
        rw [whole, answer_bind, made]
      refine ⟨rounds, fun more further => ?_, fun ended => ?_, ?_⟩
      · rw [same, same]
        exact rounds_stable c api _ rounds more further enough
      · rw [same] at ended
        rw [same, same]
        exact rounds_agree c api _ rounds roundLimit enough ended
      · rw [← same] at enough
        cases outcome : ofDocument? document config rounds with
        | error e => exact .inl ⟨e, rfl⟩
        | ok result =>
            cases result with
            | none => exact absurd outcome enough
            | some api' =>
                have finished := resolution_ensures c regular rounds {} (some api') rfl outcome api' rfl
                exact .inr ⟨api', rfl, finished.1⟩

theorem ring_ends :
    (∃ api, ofDocument? ring {} 2 = .ok (some api)
        ∧ api.typeNames = ["Node", "NodeCopy", "LinksItemOption2", "NodeCopyOrigin", "LinksItem"])
      ∧ ∃ rounds, ∀ more, rounds ≤ more →
        ofDocument? ring {} more = ofDocument? ring {} rounds := by
  obtain ⟨rounds, stable, _⟩ := extraction_ends ring {} (by decide) (by decide)
  exact ⟨⟨_, rfl, by decide⟩, rounds, stable⟩

-- An inline record that takes over the record in which it stands has such an inline record itself.
def endless : Document where
  version := .v31
  contents := { components := { schemas := [
    ("Base", { properties := [("id", { type := some (.single "string") })] }),
    ("Node", { properties := [
      ("child", { allOf := [
        { reference := some "#/components/schemas/Base" },
        { reference := some "#/components/schemas/Node" }] })] })] } }

example : (Catalog.ofDocument endless {}).composesBelowSimply = false
    ∧ ofDocument? endless {} 4 = .ok none := ⟨by decide, rfl⟩

end Api

end OpenApi
