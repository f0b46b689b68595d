import OpenApi.Proofs.Component.Composition
import OpenApi.Proofs.Json.Assoc

set_option autoImplicit false

namespace OpenApi

namespace Schema

-- The schema without what makes it stand for null, so that it is taken in for what it has besides.
def unmarked (m : Schema) : Schema :=
  { m with
    nullable := none
    constValue := none
    extra := m.extra.filter (·.1 != "x-nullable") }

inductive Unmarks (m : Schema) : Schema → Schema → Prop
  | member (s : Schema) (before after : List Schema) (members : s.allOf = before ++ m :: after) :
      Unmarks m s { s with allOf := before ++ m.unmarked :: after }
  | inline (s inner inner' : Schema) (before after : List Schema)
      (members : s.allOf = before ++ inner :: after) (present : inner.isNullMember = false)
      (inline : inner.reference = none) (below : Unmarks m inner inner') :
      Unmarks m s { s with allOf := before ++ inner' :: after }

variable (m : Schema)

structure IsBare (m : Schema) : Prop where
  reference : m.reference = none
  type : m.type = none
  enumValues : m.enumValues = none
  properties : m.properties = []
  composition : m.isComposition = false

theorem marker_bare (marker : m.isNullableMarker = true) : m.IsBare := by
  simp only [isNullableMarker, Bool.and_eq_true, Option.isNone_iff_eq_none, List.isEmpty_iff,
    Bool.not_eq_true'] at marker
  obtain ⟨⟨⟨⟨⟨⟨_, reference⟩, type⟩, properties⟩, composition⟩, _⟩, enumValues⟩ := marker
  exact ⟨reference, type, enumValues, properties, composition⟩

theorem bare_members (bare : m.IsBare) : m.allOf = [] := by
  have composition := bare.composition
  simp only [isComposition, Bool.or_eq_false_iff, Bool.not_eq_false', List.isEmpty_iff] at composition
  exact composition.1.1

theorem marker_null (marker : m.isNullableMarker = true) : m.isNullMember = true := by
  rw [isNullMember, marker, Bool.or_true]

theorem unmarked_present (bare : m.IsBare) : m.unmarked.isNullMember = false := by
  have absent : m.unmarked.extension? "x-nullable" = none := by
    rw [extension?, List.lookup_eq_none_iff]
    intro entry member
    have other := (List.mem_filter.mp member).2
    rw [bne_iff_ne] at other ⊢
    exact other.symm
  have notMarked : m.unmarked.isMarkedNullable = false := by
    rw [isMarkedNullable, absent]
    rfl
  have notNull : m.unmarked.isNullOnly = false := by
    simp [isNullOnly, unmarked, bare.type, bare.enumValues]
  rw [isNullMember, isNullableMarker, notMarked, notNull]
  rfl

theorem unmarks_entered (s s' : Schema) (unmarks : m.Unmarks s s') :
    s'.reference = s.reference ∧ s'.isNullMember = s.isNullMember := by
  have composed (before after : List Schema) (t t' : Schema)
      (members : s.allOf = before ++ t :: after) :
      { s with allOf := before ++ t' :: after }.isNullMember = s.isNullMember := by
    have filled (x : Schema) : (before ++ x :: after).isEmpty = false := by
      cases before <;> rfl
    simp [isNullMember, isNullOnly, isNullableMarker, isComposition, isMarkedNullable, extension?,
      members, filled]
  cases unmarks with
  | member _ before after members => exact ⟨rfl, composed before after m m.unmarked members⟩
  | inline _ inner inner' before after members =>
      exact ⟨rfl, composed before after inner inner' members⟩

end Schema

inductive Alike {α β : Type} (R : α → β → Prop) : Except Error α → Except Error β → Prop
  | ok (a : α) (b : β) (related : R a b) : Alike R (.ok a) (.ok b)
  | error (e : Error) : Alike R (.error e) (.error e)

theorem alike_bind {α β γ δ : Type} {R : α → β → Prop} {S : γ → δ → Prop} {x : Except Error α}
    {y : Except Error β} {f : α → Except Error γ} {g : β → Except Error δ} (first : Alike R x y)
    (next : ∀ a b, R a b → Alike S (f a) (g b)) : Alike S (x >>= f) (y >>= g) := by
  cases first with
  | ok a b related => exact next a b related
  | error e => exact .error e

theorem alike_again {α β γ : Type} {R : β → γ → Prop} (x : Except Error α)
    (f : α → Except Error β) (g : α → Except Error γ) (next : ∀ a, Alike R (f a) (g a)) :
    Alike R (x >>= f) (x >>= g) := by
  cases x with
  | ok a => exact next a
  | error e => exact .error e

theorem alike_eq {α : Type} {R : α → α → Prop} {x y : Except Error α} (alike : Alike R x y)
    (same : ∀ a b, R a b → a = b) : x = y := by
  cases alike with
  | ok a b related => rw [same a b related]
  | error e => rfl

namespace FlatRecord

theorem mem_add_names (names more : List String) (name : String) :
    name ∈ addNames names more ↔ name ∈ names ∨ name ∈ more := by
  induction more generalizing names with
  | nil => simp [addNames]
  | cons first rest ih => rw [addNames, ih, mem_added, List.mem_cons, or_assoc]

structure Gains (m : Schema) (flat all : FlatRecord) : Prop where
  base : all.base = flat.base
  properties : all.properties = flat.properties
  required : ∀ name, name ∈ all.required ↔ name ∈ flat.required ∨ name ∈ m.required
  order : m.required = [] → all.required = flat.required
  additional : all.additionalProperties = flat.additionalProperties
    ∨ m.additionalProperties.isSome = true ∧ all.additionalProperties = m.additionalProperties

variable (m : Schema) (flat all : FlatRecord)

theorem gains_own (bare : m.properties = []) :
    Gains m flat (flat.overlay (overlay {} (own m))) where
  base := rfl
  properties := by simp [overlay, own, bare]
  required name := by simp [overlay, own, mem_add_names]
  order none := by simp [overlay, own, none, addNames]
  additional := by
    cases declared : m.additionalProperties with
    | none => exact .inl (by simp [overlay, own, declared])
    | some keyword => exact .inr ⟨rfl, by simp [overlay, own, declared]⟩

theorem gains_overlay (other : FlatRecord) (gains : Gains m flat all) :
    Gains m (flat.overlay other) (all.overlay other) where
  base := gains.base
  properties := by rw [overlay, overlay, gains.properties]
  required name := by
    simp only [overlay, mem_add_names, gains.required]
    tauto
  order none := by rw [overlay, overlay, gains.order none]
  additional := by
    cases declared : other.additionalProperties with
    | none => simpa [overlay, declared] using gains.additional
    | some keyword => exact .inl (by simp [overlay, declared])

theorem gains_under (other : FlatRecord) (gains : Gains m flat all) :
    Gains m (other.overlay flat) (other.overlay all) where
  base := rfl
  properties := by rw [overlay, overlay, gains.properties]
  required name := by
    simp only [overlay, mem_add_names, gains.required]
    tauto
  order none := by rw [overlay, overlay, gains.order none]
  additional := by
    rcases gains.additional with same | ⟨declared, taken⟩
    · exact .inl (by rw [overlay, overlay, same])
    · obtain ⟨keyword, isKeyword⟩ := Option.isSome_iff_exists.mp declared
      exact .inr ⟨declared, by simp [overlay, taken, isKeyword]⟩

theorem gains_nothing (required : m.required = []) (additional : m.additionalProperties = none)
    (gains : Gains m flat all) : flat = all := by
  have sameRequired := gains.order required
  have sameAdditional : all.additionalProperties = flat.additionalProperties :=
    gains.additional.resolve_right fun ⟨declared, _⟩ => by simp [additional] at declared
  obtain ⟨base, properties, required, additional⟩ := all
  obtain ⟨base', properties', required', additional'⟩ := flat
  cases gains.base
  cases gains.properties
  cases sameRequired
  cases sameAdditional
  rfl

end FlatRecord

namespace Catalog

variable (c : Catalog)

section Flatten

variable (mixin : Component → Except Error FlatRecord) (mayInherit : Bool) (m : Schema)

theorem flatten_members_append (flat : FlatRecord) (before after : List Schema) :
    c.flattenMembers mixin mayInherit flat (before ++ after)
      = (c.flattenMembers mixin mayInherit flat before >>= fun next =>
          c.flattenMembers mixin mayInherit next after) := by
  induction before generalizing flat with
  | nil => rfl
  | cons first rest ih =>
      rw [List.cons_append, flatten_members_cons, flatten_members_cons, bind_assoc]
      exact bind_congr fun next => ih next

theorem marker_passed_over (marker : m.isNullableMarker = true) (flat : FlatRecord) :
    flattenMember c mixin mayInherit flat m = .ok flat :=
  if_pos (m.marker_null marker)

theorem inline_taken_in (flat : FlatRecord) (present : m.isNullMember = false)
    (inline : m.reference = none) : flattenMember c mixin mayInherit flat m
      = (do .ok (flat.overlay (← c.flattenWith mixin false m))) := by
  rw [flattenMember, present, inline]
  rfl

theorem unmarked_flattened :
    c.flattenWith mixin mayInherit m.unmarked = c.flattenWith mixin mayInherit m := by
  rw [flatten_with_eq, flatten_with_eq]
  rfl

theorem marker_flattened (bare : m.IsBare) :
    c.flattenWith mixin false m = .ok (FlatRecord.overlay {} (.own m)) := by
  rw [flatten_with_eq, m.bare_members bare]
  rfl

theorem unmarked_taken_in (bare : m.IsBare) (flat : FlatRecord) :
    flattenMember c mixin mayInherit flat m.unmarked
      = .ok (flat.overlay (.overlay {} (.own m))) := by
  rw [inline_taken_in c mixin mayInherit m.unmarked flat (m.unmarked_present bare) bare.reference,
    unmarked_flattened, marker_flattened c mixin m bare]
  rfl

theorem member_gains (flat all : FlatRecord) (t : Schema) (gains : flat.Gains m all) :
    Alike (FlatRecord.Gains m) (flattenMember c mixin mayInherit flat t)
      (flattenMember c mixin mayInherit all t) := by
  rw [flattenMember, flattenMember]
  by_cases isNull : t.isNullMember = true
  · rw [if_pos isNull, if_pos isNull]
    exact .ok flat all gains
  · rw [if_neg isNull, if_neg isNull]
    cases t.reference with
    | none =>
        exact alike_again _ _ _ fun other =>
          .ok _ _ (FlatRecord.gains_overlay m flat all other gains)
    | some reference =>
        refine alike_again _ _ _ fun d => ?_
        rw [gains.base]
        split
        · exact .ok _ _ { gains with base := rfl }
        · exact alike_again _ _ _ fun other =>
            .ok _ _ (FlatRecord.gains_overlay m flat all other gains)

theorem members_gain (members : List Schema) (flat all : FlatRecord) (gains : flat.Gains m all) :
    Alike (FlatRecord.Gains m) (c.flattenMembers mixin mayInherit flat members)
      (c.flattenMembers mixin mayInherit all members) := by
  induction members generalizing flat all with
  | nil => exact .ok flat all gains
  | cons t rest ih =>
      rw [flatten_members_cons, flatten_members_cons]
      exact alike_bind (member_gains c mixin mayInherit m flat all t gains) ih

theorem replaced_gains (s t t' : Schema) (before after : List Schema)
    (members : s.allOf = before ++ t :: after)
    (replaced : ∀ flat, Alike (FlatRecord.Gains m) (flattenMember c mixin mayInherit flat t)
      (flattenMember c mixin mayInherit flat t')) :
    Alike (FlatRecord.Gains m) (c.flattenWith mixin mayInherit s)
      (c.flattenWith mixin mayInherit { s with allOf := before ++ t' :: after }) := by
  rw [flatten_with_eq, flatten_with_eq, members]
  refine alike_bind (R := FlatRecord.Gains m) ?_ fun flat all gains =>
    .ok _ _ (FlatRecord.gains_overlay m flat all (.own s) gains)
  rw [flatten_members_append, flatten_members_append]
  refine alike_again _ _ _ fun flat => ?_
  rw [flatten_members_cons, flatten_members_cons]
  exact alike_bind (replaced flat) (members_gain c mixin mayInherit m after)

theorem flatten_with_gains (marker : m.isNullableMarker = true) (s s' : Schema)
    (unmarks : m.Unmarks s s') : Alike (FlatRecord.Gains m) (c.flattenWith mixin mayInherit s)
      (c.flattenWith mixin mayInherit s') := by
  have bare := m.marker_bare marker
  induction unmarks generalizing mayInherit with
  | member s before after members =>
      refine replaced_gains c mixin mayInherit m s m m.unmarked before after members fun flat => ?_
      rw [marker_passed_over c mixin mayInherit m marker,
        unmarked_taken_in c mixin mayInherit m bare]
      exact .ok _ _ (FlatRecord.gains_own m flat bare.properties)
  | inline s inner inner' before after members present inline below ih =>
      -- above its own place the inline member around the marker gains what the marker has
      obtain ⟨sameReference, sameNull⟩ := m.unmarks_entered inner inner' below
      refine replaced_gains c mixin mayInherit m s inner inner' before after members fun flat => ?_
      rw [inline_taken_in c mixin mayInherit inner flat present inline,
        inline_taken_in c mixin mayInherit inner' flat (sameNull.trans present)
          (sameReference.trans inline)]
      exact alike_bind (ih false) fun other all gains =>
        .ok _ _ (FlatRecord.gains_under m other all flat gains)

theorem flatten_gains (marker : m.isNullableMarker = true) (name : Option String) (s s' : Schema)
    (unmarks : m.Unmarks s s') :
    Alike (FlatRecord.Gains m) (c.flatten name s) (c.flatten name s') := by
  rw [flatten, flatten]
  refine alike_bind (flatten_with_gains c _ true m marker s s' unmarks) fun flat all gains => ?_
  rw [gains.base]
  split
  · exact alike_again _ _ _ fun _ => .ok flat all gains
  · exact .ok flat all gains

theorem flatten_alone (flat : FlatRecord)
    (taken : ∀ mixin, flattenMember c mixin true {} m = .ok flat) :
    c.flatten none { allOf := [m] } = .ok flat := by
  rw [flatten, flattenOwn, flatten_with_eq, flatten_members_cons, taken]
  rfl

end Flatten

/-- A marker that is passed over has no properties and is composed of nothing. Unmarked it is taken
in like any other inline member, with what it has: this gives the same base and properties or the
same failure, and more only by what the marker requires and says about further properties. Nothing
is lost with a marker, in any schema and at any depth of inline members, just if it has neither. -/
theorem marker_lossless_iff (m : Schema) (marker : m.isNullableMarker = true) :
    m.reference = none ∧ m.properties = [] ∧ m.isComposition = false
      ∧ (m.unmarked.isNullMember = false ∧ m.unmarked.reference = none
        ∧ ∀ mixin, c.flattenWith mixin false m.unmarked = c.flattenWith mixin false m)
      ∧ (∀ name s s', m.Unmarks s s' →
          Alike (FlatRecord.Gains m) (c.flatten name s) (c.flatten name s'))
      ∧ ((∀ name s s', m.Unmarks s s' → c.flatten name s = c.flatten name s')
          ↔ m.required = [] ∧ m.additionalProperties = none) := by
  have bare := m.marker_bare marker
  have present := m.unmarked_present bare
  refine ⟨bare.reference, bare.properties, bare.composition,
    ⟨present, bare.reference, fun mixin => c.unmarked_flattened mixin false m⟩,
    c.flatten_gains m marker, fun lossless => ?_,
    fun ⟨required, additional⟩ name s s' unmarks => ?_⟩
  · have same := lossless none { allOf := [m] } { allOf := [m.unmarked] } (.member _ [] [] rfl)
    rw [c.flatten_alone m {} fun mixin => c.marker_passed_over mixin true m marker {},
      c.flatten_alone m.unmarked _ fun mixin => c.unmarked_taken_in mixin true m bare {}] at same
    have gains := FlatRecord.gains_own m {} bare.properties
    rw [← Except.ok.inj same] at gains
    refine ⟨List.eq_nil_iff_forall_not_mem.mpr fun required member => ?_, ?_⟩
    · simpa using (gains.required required).mpr (.inr member)
    · have additional := congrArg FlatRecord.additionalProperties (Except.ok.inj same)
      simpa [FlatRecord.overlay, FlatRecord.own] using additional.symm
  · exact alike_eq (c.flatten_gains m marker name s s' unmarks) fun flat all gains =>
      FlatRecord.gains_nothing m flat all required additional gains

def markedPet (m : Schema) : Schema where
  allOf := [{ properties := [("tag", { type := some (.single "string") })] }, m]
  properties := [("name", { type := some (.single "string") })]

def markedCatalog (m : Schema) : Catalog :=
  .ofDocument {
    version := .v31
    contents := { components := { schemas := [("Pet", markedPet m)] } } } {}

theorem bare_marker_lossless :
    let m : Schema := { nullable := some true, description := some "The pet or null." }
    m.isNullableMarker = true
      ∧ (markedPet m).kind = .record
      ∧ (markedCatalog m).flatten (some "Pet") (markedPet m)
        = (markedCatalog m).flatten (some "Pet") (markedPet m.unmarked) := by
  intro m
  have lossless := ((markedCatalog m).marker_lossless_iff m rfl).2.2.2.2.2.mpr ⟨rfl, rfl⟩
  exact ⟨rfl, rfl, lossless (some "Pet") _ _ (.member (markedPet m) [_] [] rfl)⟩

theorem marked_name_optional :
    let m : Schema := { nullable := some true, required := ["name"] }
    m.isNullableMarker = true
      ∧ (markedPet m).kind = .record
      ∧ m.Unmarks (markedPet m) (markedPet m.unmarked)
      ∧ ((markedCatalog m).flatten (some "Pet") (markedPet m)).map (·.required) = .ok []
      ∧ ((markedCatalog m).flatten (some "Pet") (markedPet m.unmarked)).map (·.required)
        = .ok ["name"] :=
  ⟨rfl, rfl, .member (markedPet _) [_] [] rfl, rfl, rfl⟩

end Catalog

end OpenApi
