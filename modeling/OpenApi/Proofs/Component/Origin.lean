import OpenApi.Proofs.Component.Composition
import OpenApi.Proofs.Json.Assoc
import OpenApi.Proofs.Schema.Position

set_option autoImplicit false

namespace OpenApi

namespace Schema

theorem inside_child (s p : Schema) (inside : p ∈ s.insides) :
    ∃ child ∈ s.children, p = child ∨ p ∈ child.insides := by
  rcases (s.mem_insides p).mp inside with ⟨q, position, within⟩ | ⟨m, member, within⟩
  · exact ⟨q, s.position_child q position, within⟩
  · exact ⟨m, s.child_of_all m member, .inr within⟩

theorem inside_smaller (s p : Schema) (inside : p ∈ s.insides) : sizeOf p < sizeOf s := by
  induction s using Schema.child_induction with
  | step s ih =>
      obtain ⟨child, isChild, within⟩ := s.inside_child p inside
      have smaller := s.child_smaller child isChild
      rcases within with rfl | below
      · exact smaller
      · exact Nat.lt_trans (ih child isChild below) smaller

theorem position_inside (s p : Schema) (position : p ∈ s.positions) : p ∈ s.insides :=
  (s.mem_insides p).mpr (.inl ⟨p, position, .inl rfl⟩)

theorem part_insides (s p : Schema) (part : p ∈ s.parts) : p.insides ⊆ s.insides := by
  intro q inside
  rcases s.part_cases p part with position | ⟨member, _⟩
  · exact (s.mem_insides q).mpr (.inl ⟨p, position, .inr inside⟩)
  · exact (s.mem_insides q).mpr (.inr ⟨p, member, inside⟩)

theorem inside_insides (s p : Schema) (inside : p ∈ s.insides) : p.insides ⊆ s.insides := by
  induction s using Schema.child_induction with
  | step s ih =>
      rcases (s.mem_insides p).mp inside with ⟨q, position, rfl | within⟩ | ⟨m, member, within⟩
      · exact s.part_insides p (s.position_part p position)
      · have below := ih q (s.position_child q position) within
        exact List.Subset.trans below (s.part_insides q (s.position_part q position))
      · have below := ih m (s.child_of_all m member) within
        exact fun q inner => (s.mem_insides q).mpr (.inr ⟨m, member, below inner⟩)

def references (members : List Schema) : List String :=
  members.filterMap fun m => if m.isNullMember then none else m.reference

theorem references_cons (m : Schema) (rest : List Schema) : references (m :: rest)
    = (if m.isNullMember then none else m.reference).toList ++ references rest := by
  rw [references, references, List.filterMap_cons]
  cases (if m.isNullMember then none else m.reference) <;> rfl

end Schema

structure FlatRecord.Within (P : Schema → Prop) (flat : FlatRecord) : Prop where
  properties : ∀ property ∈ flat.properties, P property.2
  additional : ∀ s ∈ OrBool.schemas flat.additionalProperties, P s

namespace FlatRecord

variable (P : Schema → Prop)

theorem overlay_within (flat other : FlatRecord) (within : flat.Within P)
    (otherWithin : other.Within P) : (flat.overlay other).Within P where
  properties property member := by
    rcases Assoc.put_all_mem flat.properties other.properties property member with new | old
    · exact otherWithin.properties property new
    · exact within.properties property old
  additional s member := by
    cases declared : other.additionalProperties with
    | none =>
        rw [overlay, declared] at member
        exact within.additional s member
    | some keyword =>
        rw [overlay, declared] at member
        exact otherWithin.additional s (by rwa [declared])

theorem own_within (s : Schema) (inside : ∀ p ∈ s.insides, P p) : (own s).Within P where
  properties property member :=
    inside _ (s.position_inside _ (s.property_position property member))
  additional p member := inside p (s.position_inside p (s.additional_position p member))

end FlatRecord

namespace Catalog

variable (c : Catalog) (P : Schema → Prop)

section Flatten

variable (mixin : Component → Except Error FlatRecord) (mayInherit : Bool)

theorem members_within (members : List Schema) (flat flat' : FlatRecord) (within : flat.Within P)
    (inline : ∀ m ∈ members, m.isNullMember = false → m.reference = none → ∀ all,
      c.flattenWith mixin false m = .ok all → all.Within P)
    (mixins : ∀ m ∈ members, m.isNullMember = false → ∀ reference, m.reference = some reference →
      ∀ d, c.target reference = .ok d → ∀ all, mixin d = .ok all → all.Within P)
    (made : c.flattenMembers mixin mayInherit flat members = .ok flat') : flat'.Within P := by
  induction members generalizing flat with
  | nil =>
      cases made
      exact within
  | cons m rest ih =>
      rw [flatten_members_cons] at made
      obtain ⟨next, taken, made⟩ := ok_of_bind _ _ _ made
      rw [List.forall_mem_cons] at inline mixins
      refine ih next ?_ inline.2 mixins.2 made
      have step := member_taken_in c mixin mayInherit flat next m taken
      cases step with
      | null => exact within
      | inline all present isInline flattened =>
          exact flat.overlay_within P all within (inline.1 present isInline all flattened)
      | base => exact ⟨within.properties, within.additional⟩
      | mixin reference d all present refers resolved mixed =>
          exact flat.overlay_within P all within
            (mixins.1 present reference refers d resolved all mixed)

theorem flatten_with_within (s : Schema) (flat : FlatRecord) (inside : ∀ p ∈ s.insides, P p)
    (mixins : ∀ reference ∈ s.composedFrom, ∀ d, c.target reference = .ok d →
      ∀ all, mixin d = .ok all → all.Within P)
    (made : c.flattenWith mixin mayInherit s = .ok flat) : flat.Within P := by
  induction s using Schema.child_induction generalizing mayInherit flat with
  | step s ih =>
      rw [flatten_with_eq] at made
      obtain ⟨composed, taken, made⟩ := ok_of_bind _ _ _ made
      cases made
      refine composed.overlay_within P _ ?_ (FlatRecord.own_within P s inside)
      refine members_within c P mixin mayInherit s.allOf {} composed
        ⟨List.forall_mem_nil _, List.forall_mem_nil _⟩ ?_ ?_ taken
      · intro m member present isInline all flattened
        refine ih m (s.child_of_all m member) false all ?_ ?_ flattened
        · exact fun p within => inside p (s.part_insides m (s.member_part m member present) within)
        · exact fun reference nested =>
            mixins reference (s.composed_by_member m reference member present (.inr ⟨isInline, nested⟩))
      · exact fun m member present reference refers =>
          mixins reference (s.composed_by_member m reference member present (.inl refers))

end Flatten

theorem component_found_mem (name : String) (d : Component) (found : c.component name = .ok d) :
    d ∈ c.components := by
  rw [component] at found
  split at found
  · rename_i isComponent
    cases found
    exact (component_mem c name d isComponent).1
  · cases found

theorem own_of_flatten (name : Option String) (s : Schema) (flat : FlatRecord)
    (made : c.flatten name s = .ok flat) : c.flattenOwn name s = .ok flat := by
  rw [flatten] at made
  obtain ⟨own, flattened, made⟩ := ok_of_bind _ _ _ made
  split at made
  · obtain ⟨_, _, made⟩ := ok_of_bind _ _ _ made
    cases made
    exact flattened
  · cases made
    exact flattened

section Entered

variable (inside : ∀ d ∈ c.components, ∀ p ∈ d.schema.insides, P p)

include inside

theorem enter_record_within (depth : Nat) (trail : List String) (cycle : String → Cycle)
    (d : Component) (member : d ∈ c.components) (flat : FlatRecord)
    (made : c.enterRecord depth trail cycle d = .ok flat) : flat.Within P := by
  induction depth generalizing trail cycle d flat with
  | zero => cases made
  | succ depth ih =>
      rw [enterRecord] at made
      split at made
      · cases made
      · obtain ⟨own, flattened, made⟩ := ok_of_bind _ _ _ made
        have ownWithin : own.Within P :=
          flatten_with_within c P _ true d.schema own (inside d member)
            (fun reference _ d' resolved all => ih _ _ d' (target_mem c reference d' resolved) all)
            flattened
        cases isBase : own.base with
        | none =>
            rw [isBase] at made
            cases made
            exact ownWithin
        | some base =>
            rw [isBase] at made
            obtain ⟨d', found, made⟩ := ok_of_bind _ _ _ made
            obtain ⟨inherited, entered, made⟩ := ok_of_bind _ _ _ made
            cases made
            have isComponent := component_found_mem c base d' found
            exact inherited.overlay_within P own (ih _ _ d' isComponent inherited entered) ownWithin

theorem flatten_within (name : Option String) (s : Schema) (within : ∀ p ∈ s.insides, P p)
    (flat : FlatRecord) (made : c.flatten name s = .ok flat) : flat.Within P := by
  have taken := own_of_flatten c name s flat made
  refine flatten_with_within c P _ true s flat within ?_ taken
  intro reference _ d resolved all entered
  exact enter_record_within c P inside _ _ _ d (target_mem c reference d resolved) all entered

end Entered

-- The schema is composed of inline members that are not composed from any component, and of one
-- reference at most, which leads to a component that is generated with properties.
def composesSimply (s : Schema) : Bool :=
  decide ((Schema.references s.allOf).length ≤ 1)
    && s.allOf.all fun m => m.isNullMember ||
      match m.reference with
      | some reference => (c.target reference).toOption.any (·.kind.isRecordLike)
      | none => m.composedFrom.isEmpty

section Simple

theorem composes_simply_iff (s : Schema) : c.composesSimply s = true ↔
    (Schema.references s.allOf).length ≤ 1 ∧ ∀ m ∈ s.allOf, m.isNullMember = false →
      (∀ reference, m.reference = some reference →
        ∃ d, c.target reference = .ok d ∧ d.kind.isRecordLike = true)
        ∧ (m.reference = none → m.composedFrom = []) := by
  rw [composesSimply, Bool.and_eq_true, decide_eq_true_eq, List.all_eq_true]
  refine and_congr_right fun _ => forall_congr' fun m => imp_congr_right fun _ => ?_
  cases m.isNullMember with
  | true => simp
  | false =>
      cases m.reference with
      | none => simp
      | some reference => cases found : c.target reference <;> simp [Except.toOption, found]

theorem composes_simply_of_none (s : Schema) (alone : s.composedFrom = []) :
    c.composesSimply s = true := by
  have direct (m : Schema) (member : m ∈ s.allOf) (present : m.isNullMember = false)
      (reference : String) (refers : m.reference = some reference
        ∨ m.reference = none ∧ reference ∈ m.composedFrom) : False := by
    have composed := s.composed_by_member m reference member present refers
    rw [alone] at composed
    cases composed
  rw [composes_simply_iff]
  constructor
  · have nothing : Schema.references s.allOf = [] := by
      refine List.filterMap_eq_nil_iff.mpr fun m member => ?_
      by_cases isNull : m.isNullMember = true
      · rw [if_pos isNull]
      · rw [if_neg isNull]
        refine Option.eq_none_iff_forall_ne_some.mpr fun reference refers => ?_
        exact direct m member (by simpa using isNull) reference (.inl refers)
    simp [nothing]
  · intro m member present
    refine ⟨fun reference refers => (direct m member present reference (.inl refers)).elim, ?_⟩
    refine fun isInline => List.eq_nil_iff_forall_not_mem.mpr fun reference nested => ?_
    exact direct m member present reference (.inr ⟨isInline, nested⟩)

-- The only reference finds the base free and becomes the base, so nothing is taken over.
theorem simple_members_within (mixin : Component → Except Error FlatRecord) (members : List Schema)
    (flat flat' : FlatRecord) (within : flat.Within P)
    (inline : ∀ m ∈ members, m.isNullMember = false → m.reference = none → ∀ all,
      c.flattenWith mixin false m = .ok all → all.Within P)
    (recordLike : ∀ m ∈ members, m.isNullMember = false → ∀ reference, m.reference = some reference →
      ∃ d, c.target reference = .ok d ∧ d.kind.isRecordLike = true)
    (few : (Schema.references members).length ≤ if flat.base = none then 1 else 0)
    (made : c.flattenMembers mixin true flat members = .ok flat') : flat'.Within P := by
  induction members generalizing flat with
  | nil =>
      cases made
      exact within
  | cons m rest ih =>
      rw [flatten_members_cons] at made
      obtain ⟨next, taken, made⟩ := ok_of_bind _ _ _ made
      rw [List.forall_mem_cons] at inline recordLike
      have step := member_taken_in c mixin true flat next m taken
      rw [Schema.references_cons] at few
      cases step with
      | null isNull => exact ih flat within inline.2 recordLike.2 (by simpa [isNull] using few) made
      | inline all present isInline flattened =>
          have allWithin := inline.1 present isInline all flattened
          refine ih (flat.overlay all) (flat.overlay_within P all within allWithin) inline.2
            recordLike.2 ?_ made
          simpa [present, isInline, FlatRecord.overlay] using few
      | base reference d present refers _ _ free =>
          refine ih { flat with base := some d.name } ⟨within.properties, within.additional⟩ inline.2
            recordLike.2 ?_ made
          simp [present, refers, free] at few
          simp [few]
      | mixin reference d all present refers resolved _ other =>
          obtain ⟨d', resolved', isRecord⟩ := recordLike.1 present reference refers
          cases resolved.symm.trans resolved'
          by_cases free : flat.base = none
          · exact absurd ⟨rfl, free, isRecord⟩ other
          · simp [present, refers, free] at few

theorem simple_flatten_within (s : Schema) (flat : FlatRecord) (inside : ∀ p ∈ s.insides, P p)
    (simple : c.composesSimply s = true) (made : c.flatten none s = .ok flat) : flat.Within P := by
  obtain ⟨few, members⟩ := (c.composes_simply_iff s).mp simple
  have own := own_of_flatten c none s flat made
  rw [flattenOwn, flatten_with_eq] at own
  obtain ⟨composed, taken, same⟩ := ok_of_bind _ _ _ own
  cases same
  refine composed.overlay_within P _ ?_ (FlatRecord.own_within P s inside)
  refine simple_members_within c P _ s.allOf {} composed
    ⟨List.forall_mem_nil _, List.forall_mem_nil _⟩ ?_ ?_ few taken
  · intro m member present isInline all flattened
    refine flatten_with_within c P _ false m all ?_ ?_ flattened
    · exact fun p within => inside p (s.part_insides m (s.member_part m member present) within)
    · rw [(members m member present).2 isInline]
      exact List.forall_mem_nil _
  · exact fun m member present => (members m member present).1

end Simple

end Catalog

end OpenApi
