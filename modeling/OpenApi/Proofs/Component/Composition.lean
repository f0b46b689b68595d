import Mathlib.Logic.Relation
import OpenApi.Proofs.Component.FlatRecord
import OpenApi.Proofs.Schema.Keyed

set_option autoImplicit false

namespace OpenApi

theorem error_of_bind {ε α β : Type} (x : Except ε α) (f : α → Except ε β) (e : ε)
    (failed : x >>= f = .error e) : x = .error e ∨ ∃ a, x = .ok a ∧ f a = .error e := by
  cases x with
  | error e' => exact .inl (congrArg Except.error (Except.error.inj failed))
  | ok a => exact .inr ⟨a, rfl, failed⟩

theorem bind_congr_ok {ε α β : Type} (x : Except ε α) (f g : α → Except ε β)
    (same : ∀ a, x = .ok a → f a = g a) : x >>= f = x >>= g := by
  cases x with
  | error e => rfl
  | ok a => exact same a rfl

namespace Schema

mutual

-- The references among the members of `allOf` and, at any depth, of its inline members. Members
-- that stand for null are left out.
def composedFrom : Schema → List String
  | { allOf, .. } => composedOf allOf
termination_by structural s => s

def composedOf : List Schema → List String
  | [] => []
  | m :: rest =>
    if m.isNullMember then composedOf rest
    else
      match m.reference with
      | some reference => reference :: composedOf rest
      | none => m.composedFrom ++ composedOf rest
termination_by structural members => members

end

theorem composed_from_eq (s : Schema) : s.composedFrom = composedOf s.allOf := by cases s; rfl

theorem mem_composed_of (members : List Schema) (reference : String) :
    reference ∈ composedOf members ↔ ∃ m ∈ members, m.isNullMember = false
      ∧ (m.reference = some reference ∨ m.reference = none ∧ reference ∈ m.composedFrom) := by
  induction members with
  | nil => simp [composedOf]
  | cons m rest ih =>
      rw [composedOf, List.exists_mem_cons_iff]
      by_cases isNull : m.isNullMember = true
      · simp [isNull, ih]
      · cases refers : m.reference with
        | some other => simp [isNull, ih, eq_comm (a := reference)]
        | none => simp [isNull, ih]

theorem composed_by_member (s m : Schema) (reference : String) (member : m ∈ s.allOf)
    (present : m.isNullMember = false) (refers : m.reference = some reference
      ∨ m.reference = none ∧ reference ∈ m.composedFrom) : reference ∈ s.composedFrom := by
  rw [composed_from_eq, mem_composed_of]
  exact ⟨m, member, present, refers⟩

end Schema

namespace Catalog

def Composes (c : Catalog) (a b : Component) : Prop :=
  ∃ reference ∈ a.schema.composedFrom, c.target reference = .ok b

def HasCycle (c : Catalog) (d : Component) : Prop :=
  ∃ b, Relation.ReflTransGen c.Composes d b ∧ Relation.TransGen c.Composes b b

def IsComposable (c : Catalog) : Prop :=
  ∀ d ∈ c.components, ∀ reference ∈ d.schema.composedFrom, (c.target reference).isOk = true

theorem cycle_before (c : Catalog) (a b : Component) (composes : c.Composes a b)
    (cycle : c.HasCycle b) : c.HasCycle a := by
  obtain ⟨d, path, around⟩ := cycle
  exact ⟨d, .head composes path, around⟩

theorem cycle_after (c : Catalog) (a : Component) (cycle : c.HasCycle a) :
    ∃ b, c.Composes a b ∧ c.HasCycle b := by
  obtain ⟨d, path, around⟩ := cycle
  cases path.cases_head with
  | inl same =>
      subst same
      obtain ⟨b, first, rest⟩ := Relation.TransGen.head'_iff.mp around
      exact ⟨b, first, a, rest, around⟩
  | inr step =>
      obtain ⟨b, first, rest⟩ := step
      exact ⟨b, first, d, rest, around⟩

section Flatten

variable (c : Catalog) (mixin : Component → Except Error FlatRecord) (mayInherit : Bool)

def flattenMember (flat : FlatRecord) (m : Schema) : Except Error FlatRecord :=
  if m.isNullMember then .ok flat
  else
    match m.reference with
    | none => do
      let inline ← c.flattenWith mixin false m
      .ok (flat.overlay inline)
    | some reference => do
      let found ← c.target reference
      if mayInherit && flat.base.isNone && found.kind.isRecordLike then
        .ok { flat with base := some found.name }
      else do
        let all ← mixin found
        .ok (flat.overlay all)

theorem flatten_members_cons (flat : FlatRecord) (m : Schema) (rest : List Schema) :
    c.flattenMembers mixin mayInherit flat (m :: rest)
      = (flattenMember c mixin mayInherit flat m >>= fun next =>
          c.flattenMembers mixin mayInherit next rest) := by
  rw [flattenMembers, flattenMember]
  by_cases isNull : m.isNullMember = true
  · simp only [isNull, if_true]
    rfl
  · simp only [isNull, Bool.false_eq_true, if_false]
    cases m.reference with
    | none =>
        simp only [bind_assoc]
        rfl
    | some reference =>
        simp only [bind_assoc]
        refine bind_congr fun found => ?_
        split
        · rfl
        · simp only [bind_assoc]
          rfl

theorem flatten_with_eq (s : Schema) : c.flattenWith mixin mayInherit s
    = (do .ok ((← c.flattenMembers mixin mayInherit {} s.allOf).overlay (.own s))) := by
  cases s
  rfl

inductive TakesIn (c : Catalog) (mixin : Component → Except Error FlatRecord) (mayInherit : Bool)
    (flat : FlatRecord) (m : Schema) : FlatRecord → Prop
  | null (isNull : m.isNullMember = true) : TakesIn c mixin mayInherit flat m flat
  | inline (all : FlatRecord) (present : m.isNullMember = false) (inline : m.reference = none)
      (flattened : c.flattenWith mixin false m = .ok all) :
      TakesIn c mixin mayInherit flat m (flat.overlay all)
  | base (reference : String) (d : Component) (present : m.isNullMember = false)
      (refers : m.reference = some reference) (resolved : c.target reference = .ok d)
      (inherits : mayInherit = true) (free : flat.base = none)
      (recordLike : d.kind.isRecordLike = true) :
      TakesIn c mixin mayInherit flat m { flat with base := some d.name }
  | mixin (reference : String) (d : Component) (all : FlatRecord) (present : m.isNullMember = false)
      (refers : m.reference = some reference) (resolved : c.target reference = .ok d)
      (mixed : mixin d = .ok all)
      (other : ¬ (mayInherit = true ∧ flat.base = none ∧ d.kind.isRecordLike = true)) :
      TakesIn c mixin mayInherit flat m (flat.overlay all)

theorem member_taken_in (flat next : FlatRecord) (m : Schema)
    (made : flattenMember c mixin mayInherit flat m = .ok next) :
    TakesIn c mixin mayInherit flat m next := by
  rw [flattenMember] at made
  by_cases isNull : m.isNullMember = true
  · rw [if_pos isNull] at made
    cases made
    exact .null isNull
  · rw [if_neg isNull] at made
    have present : m.isNullMember = false := by simpa using isNull
    cases refers : m.reference with
    | none =>
        rw [refers] at made
        obtain ⟨all, flattened, made⟩ := ok_of_bind _ _ _ made
        cases made
        exact .inline all present refers flattened
    | some reference =>
        rw [refers] at made
        obtain ⟨d, resolved, made⟩ := ok_of_bind _ _ _ made
        split at made
        · rename_i inherits
          cases made
          simp only [Bool.and_eq_true, Option.isNone_iff_eq_none] at inherits
          exact .base reference d present refers resolved inherits.1.1 inherits.1.2 inherits.2
        · rename_i other
          obtain ⟨all, mixed, made⟩ := ok_of_bind _ _ _ made
          cases made
          simp only [Bool.and_eq_true, Option.isNone_iff_eq_none, and_assoc] at other
          exact .mixin reference d all present refers resolved mixed other

theorem members_keep_base (members : List Schema) (flat flat' : FlatRecord)
    (settled : mayInherit = false ∨ flat.base ≠ none)
    (made : c.flattenMembers mixin mayInherit flat members = .ok flat') : flat'.base = flat.base := by
  induction members generalizing flat with
  | nil =>
      cases made
      rfl
  | cons m rest ih =>
      rw [flatten_members_cons] at made
      obtain ⟨next, taken, made⟩ := ok_of_bind _ _ _ made
      have step := member_taken_in c mixin mayInherit flat next m taken
      cases step with
      | null => exact ih flat settled made
      | inline all => exact ih (flat.overlay all) settled made
      | base _ _ _ _ _ inherits free => simp [inherits, free] at settled
      | mixin _ _ all => exact ih (flat.overlay all) settled made

theorem inline_no_base (m : Schema) (all : FlatRecord)
    (flattened : c.flattenWith mixin false m = .ok all) : all.base = none := by
  rw [flatten_with_eq] at flattened
  obtain ⟨members, composed, made⟩ := ok_of_bind _ _ _ flattened
  cases made
  exact members_keep_base c mixin false m.allOf {} members (.inl rfl) composed

theorem members_base (members : List Schema) (flat flat' : FlatRecord) (base : String)
    (made : c.flattenMembers mixin mayInherit flat members = .ok flat')
    (isBase : flat'.base = some base) : flat.base = some base
      ∨ ∃ reference ∈ Schema.composedOf members, ∃ d,
          c.target reference = .ok d ∧ d.name = base := by
  induction members generalizing flat with
  | nil =>
      cases made
      exact .inl isBase
  | cons m rest ih =>
      rw [flatten_members_cons] at made
      obtain ⟨next, taken, made⟩ := ok_of_bind _ _ _ made
      have later : ∀ reference, reference ∈ Schema.composedOf rest →
          reference ∈ Schema.composedOf (m :: rest) := by
        intro reference member
        rw [Schema.mem_composed_of] at member ⊢
        obtain ⟨m', inRest, refers⟩ := member
        exact ⟨m', List.mem_cons_of_mem m inRest, refers⟩
      have below := ih next made
      have step := member_taken_in c mixin mayInherit flat next m taken
      cases step with
      | null | inline | mixin =>
          rcases below with here | ⟨reference, member, target⟩
          · exact .inl here
          · exact .inr ⟨reference, later reference member, target⟩
      | base reference d present refers resolved =>
          rcases below with here | ⟨reference', member, target⟩
          · have direct : reference ∈ Schema.composedOf (m :: rest) :=
              (Schema.mem_composed_of _ _).mpr ⟨m, List.mem_cons_self, present, .inl refers⟩
            exact .inr ⟨reference, direct, d, resolved, Option.some.inj here⟩
          · exact .inr ⟨reference', later reference' member, target⟩

def BringsIn (c : Catalog) (mixin : Component → Except Error FlatRecord) (references : List String)
    (flat : FlatRecord) : Prop :=
  ∀ reference ∈ references, ∀ d, c.target reference = .ok d →
    (∃ all, mixin d = .ok all) ∨ flat.base = some d.name

theorem members_bring_in (members : List Schema) (flat flat' : FlatRecord)
    (each : ∀ m ∈ members, ∀ all, c.flattenWith mixin false m = .ok all →
      BringsIn c mixin m.composedFrom all)
    (made : c.flattenMembers mixin mayInherit flat members = .ok flat') :
    BringsIn c mixin (Schema.composedOf members) flat' := by
  induction members generalizing flat with
  | nil => exact fun _ absent => by cases absent
  | cons m rest ih =>
      rw [flatten_members_cons] at made
      obtain ⟨next, taken, made⟩ := ok_of_bind _ _ _ made
      rw [List.forall_mem_cons] at each
      intro reference member d resolved
      rw [Schema.mem_composed_of, List.exists_mem_cons_iff] at member
      rcases member with ⟨present, refers⟩ | later
      · have step := member_taken_in c mixin mayInherit flat next m taken
        cases step with
        | null isNull => simp [isNull] at present
        | inline all _ inline flattened =>
            rcases refers with refers | ⟨_, nested⟩
            · simp [inline] at refers
            · have brought := each.1 all flattened reference nested d resolved
              rw [inline_no_base c mixin m all flattened] at brought
              exact .inl (brought.resolve_right (by simp))
        | base reference' d' _ refers' resolved' =>
            rcases refers with refers | ⟨inline, _⟩
            · cases refers.symm.trans refers'
              cases resolved.symm.trans resolved'
              exact .inr (members_keep_base c mixin mayInherit rest _ flat' (.inr (by simp)) made)
            · simp [inline] at refers'
        | mixin reference' d' all _ refers' resolved' mixed =>
            rcases refers with refers | ⟨inline, _⟩
            · cases refers.symm.trans refers'
              cases resolved.symm.trans resolved'
              exact .inl ⟨all, mixed⟩
            · simp [inline] at refers'
      · exact ih next each.2 made reference ((Schema.mem_composed_of rest reference).mpr later) d
          resolved

theorem flatten_brings_in (s : Schema) (flat : FlatRecord)
    (made : c.flattenWith mixin mayInherit s = .ok flat) :
    BringsIn c mixin s.composedFrom flat := by
  induction s using Schema.child_induction generalizing mayInherit flat with
  | step s ih =>
      rw [flatten_with_eq] at made
      obtain ⟨members, composed, made⟩ := ok_of_bind _ _ _ made
      cases made
      rw [Schema.composed_from_eq]
      exact members_bring_in c mixin mayInherit s.allOf {} members
        (fun m member => ih m (s.child_of_all m member) false) composed

def FailsFor (c : Catalog) (mixin : Component → Except Error FlatRecord) (references : List String)
    (e : Error) : Prop :=
  ∃ reference ∈ references, c.target reference = .error e
    ∨ ∃ d, c.target reference = .ok d ∧ mixin d = .error e

theorem member_fails (flat : FlatRecord) (m : Schema) (e : Error)
    (inline : c.flattenWith mixin false m = .error e → FailsFor c mixin m.composedFrom e)
    (failed : flattenMember c mixin mayInherit flat m = .error e) :
    FailsFor c mixin (Schema.composedOf [m]) e := by
  rw [flattenMember] at failed
  by_cases isNull : m.isNullMember = true
  · rw [if_pos isNull] at failed
    cases failed
  · rw [if_neg isNull] at failed
    cases refers : m.reference with
    | none =>
        rw [refers] at failed
        rcases error_of_bind _ _ _ failed with below | ⟨_, _, failed⟩
        · simpa [Schema.composedOf, isNull, refers] using inline below
        · cases failed
    | some reference =>
        rw [refers] at failed
        have direct : reference ∈ Schema.composedOf [m] := by
          simp [Schema.composedOf, isNull, refers]
        rcases error_of_bind _ _ _ failed with missing | ⟨d, resolved, failed⟩
        · exact ⟨reference, direct, .inl missing⟩
        · split at failed
          · cases failed
          · rcases error_of_bind _ _ _ failed with mixed | ⟨_, _, failed⟩
            · exact ⟨reference, direct, .inr ⟨d, resolved, mixed⟩⟩
            · cases failed

theorem members_fail (members : List Schema) (flat : FlatRecord) (e : Error)
    (each : ∀ m ∈ members, c.flattenWith mixin false m = .error e →
      FailsFor c mixin m.composedFrom e)
    (failed : c.flattenMembers mixin mayInherit flat members = .error e) :
    FailsFor c mixin (Schema.composedOf members) e := by
  induction members generalizing flat with
  | nil => cases failed
  | cons m rest ih =>
      rw [flatten_members_cons] at failed
      rw [List.forall_mem_cons] at each
      have inside : ∀ part, part ⊆ m :: rest → FailsFor c mixin (Schema.composedOf part) e →
          FailsFor c mixin (Schema.composedOf (m :: rest)) e := by
        intro part within ⟨reference, member, fails⟩
        rw [Schema.mem_composed_of] at member
        obtain ⟨m', inPart, refers⟩ := member
        exact ⟨reference, (Schema.mem_composed_of _ _).mpr ⟨m', within inPart, refers⟩, fails⟩
      rcases error_of_bind _ _ _ failed with first | ⟨next, _, later⟩
      · exact inside [m] (by simp) (member_fails c mixin mayInherit flat m e each.1 first)
      · exact inside rest (List.subset_cons_self m rest) (ih next each.2 later)

theorem flatten_fails (s : Schema) (e : Error)
    (failed : c.flattenWith mixin mayInherit s = .error e) :
    FailsFor c mixin s.composedFrom e := by
  induction s using Schema.child_induction generalizing mayInherit with
  | step s ih =>
      rw [flatten_with_eq] at failed
      rw [Schema.composed_from_eq]
      rcases error_of_bind _ _ _ failed with composed | ⟨_, _, made⟩
      · exact members_fail c mixin mayInherit s.allOf {} e
          (fun m member => ih m (s.child_of_all m member) false) composed
      · cases made

theorem flatten_base_composed (s : Schema) (flat : FlatRecord) (base : String)
    (made : c.flattenWith mixin mayInherit s = .ok flat) (isBase : flat.base = some base) :
    ∃ reference ∈ s.composedFrom, ∃ d, c.target reference = .ok d ∧ d.name = base := by
  rw [flatten_with_eq] at made
  obtain ⟨members, composed, made⟩ := ok_of_bind _ _ _ made
  cases made
  rw [Schema.composed_from_eq]
  exact (members_base c mixin mayInherit s.allOf {} members base composed isBase).resolve_left
    (by simp)

theorem flatten_congr (mixin' : Component → Except Error FlatRecord) (s : Schema)
    (same : ∀ reference ∈ s.composedFrom, ∀ d, c.target reference = .ok d → mixin d = mixin' d) :
    c.flattenWith mixin mayInherit s = c.flattenWith mixin' mayInherit s := by
  induction s using Schema.child_induction generalizing mayInherit with
  | step s ih =>
      have members : ∀ (part : List Schema) (flat : FlatRecord), part ⊆ s.allOf →
          c.flattenMembers mixin mayInherit flat part
            = c.flattenMembers mixin' mayInherit flat part := by
        intro part
        induction part with
        | nil => exact fun _ _ => rfl
        | cons m rest ihRest =>
            intro flat within
            have member : m ∈ s.allOf := within List.mem_cons_self
            have step : flattenMember c mixin mayInherit flat m
                = flattenMember c mixin' mayInherit flat m := by
              by_cases isNull : m.isNullMember = true
              · simp [flattenMember, isNull]
              · have present : m.isNullMember = false := by simpa using isNull
                have direct := fun reference => s.composed_by_member m reference member present
                cases refers : m.reference with
                | some reference =>
                    simp only [flattenMember, isNull, refers]
                    refine bind_congr_ok _ _ _ fun d resolved => ?_
                    rw [same reference (direct reference (.inl refers)) d resolved]
                | none =>
                    have below := ih m (s.child_of_all m member) false fun reference nested =>
                      same reference (direct reference (.inr ⟨refers, nested⟩))
                    simp only [flattenMember, isNull, refers, below]
            rw [flatten_members_cons, flatten_members_cons, step]
            exact bind_congr fun next => ihRest next fun m' inRest =>
              within (List.mem_cons_of_mem m inRest)
      rw [flatten_with_eq, flatten_with_eq, members s.allOf {} (List.Subset.refl _)]

end Flatten

end Catalog

end OpenApi
