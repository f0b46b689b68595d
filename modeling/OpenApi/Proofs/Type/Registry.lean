import OpenApi.Proofs.Naming.Fresh
import OpenApi.Type.Registry

set_option autoImplicit false

namespace OpenApi.Registry

open Naming (candidate FirstFree first_free_exists first_free_mono taken_candidates
  unique_eq_candidate candidate_injective)

def stored? (r : Registry) (name : String) : Option SynthesizedType :=
  r.types.find? (·.name == name)

def Extends (r r' : Registry) : Prop := r.types <+: r'.types

structure WellNamed (reserved : List String) (r : Registry) : Prop where
  distinct : r.names.Nodup
  free : ∀ name ∈ r.names, name ∉ reserved

variable (reserved : List String) (base : String) (s : Schema) (kind : ComponentKind)

theorem extends_refl (r : Registry) : Extends r r := List.prefix_refl r.types

theorem extends_trans (r r' r'' : Registry) (first : Extends r r') (second : Extends r' r'') :
    Extends r r'' := List.IsPrefix.trans first second

theorem extends_names (r r' : Registry) (grown : Extends r r') : r.names <+: r'.names :=
  List.IsPrefix.map SynthesizedType.name grown

theorem used_extends (r r' : Registry) (grown : Extends r r') :
    reserved ++ r.names ⊆ reserved ++ r'.names :=
  List.append_subset.mpr ⟨List.subset_append_left _ _,
    List.subset_append_of_subset_right _ (extends_names r r' grown).subset⟩

theorem well_named_empty : WellNamed reserved {} := ⟨List.nodup_nil, by simp [names, types]⟩

theorem stored_name (r : Registry) (name : String) (t : SynthesizedType)
    (found : r.stored? name = some t) : t.name = name := by
  simpa using List.find?_some found

theorem stored_mem (r : Registry) (name : String) (t : SynthesizedType)
    (found : r.stored? name = some t) : t ∈ r.types := List.mem_of_find?_eq_some found

theorem stored_none_iff (r : Registry) (name : String) : r.stored? name = none ↔ name ∉ r.names := by
  simp [stored?, names]

theorem stored_of_mem (r : Registry) (t : SynthesizedType) (named : WellNamed reserved r)
    (member : t ∈ r.types) : r.stored? t.name = some t := by
  cases found : r.stored? t.name with
  | none => exact absurd (List.mem_map_of_mem member) ((stored_none_iff r t.name).mp found)
  | some other =>
      have same := stored_name r t.name other found
      rw [List.inj_on_of_nodup_map named.distinct (stored_mem r t.name other found) member same]

theorem stored_extends (r r' : Registry) (name : String) (t : SynthesizedType)
    (grown : Extends r r') (found : r.stored? name = some t) : r'.stored? name = some t := by
  obtain ⟨more, joined⟩ := grown
  rw [stored?, ← joined, List.find?_append, ← stored?, found, Option.some_or]

theorem stands_for_eq (r : Registry) (name : String) :
    r.standsFor s name = (r.stored? name).any (·.schema.same s) := rfl

theorem stands_for_extends (r r' : Registry) (name : String) (grown : Extends r r')
    (named : WellNamed reserved r') (used : name ∈ reserved ++ r.names) :
    r'.standsFor s name = r.standsFor s name := by
  rw [stands_for_eq, stands_for_eq]
  cases found : r.stored? name with
  | some t => rw [stored_extends r r' name t grown found]
  | none =>
      have isReserved : name ∈ reserved :=
        (List.mem_append.mp used).resolve_right ((stored_none_iff r name).mp found)
      rw [(stored_none_iff r' name).mpr fun member => named.free name member isReserved]

theorem reusable_eq (r : Registry) (k : Nat) (first : FirstFree base (reserved ++ r.names) k) :
    r.reusable? reserved base s
      = ((List.range k).map (candidate base)).find? (r.standsFor s) := by
  rw [reusable?, taken_candidates base _ k first]

-- The name that is handed out is the first candidate which stands for the schema, or the first
-- free one where none does.
inductive Registered (r : Registry) : String × Registry → Prop
  | reused (k j : Nat) (first : FirstFree base (reserved ++ r.names) k) (less : j < k)
      (before : ∀ i, i < j → r.standsFor s (candidate base i) = false)
      (here : r.standsFor s (candidate base j) = true) : Registered r (candidate base j, r)
  | added (k : Nat) (first : FirstFree base (reserved ++ r.names) k)
      (before : ∀ i, i < k → r.standsFor s (candidate base i) = false) :
      Registered r (candidate base k,
        { r with pending := r.pending ++ [⟨candidate base k, s, kind⟩] })

theorem register_reused (r : Registry) (k j : Nat)
    (first : FirstFree base (reserved ++ r.names) k) (less : j < k)
    (before : ∀ i, i < j → r.standsFor s (candidate base i) = false)
    (here : r.standsFor s (candidate base j) = true) :
    register reserved base s kind r = (candidate base j, r) := by
  have found : r.reusable? reserved base s = some (candidate base j) := by
    rw [reusable_eq reserved base s r k first, List.find?_map, Option.map_eq_some_iff]
    refine ⟨j, ?_, rfl⟩
    rw [List.find?_range_eq_some]
    exact ⟨here, List.mem_range.mpr less, fun i early => by simp [before i early]⟩
  rw [register, found]

theorem register_added (r : Registry) (k : Nat) (first : FirstFree base (reserved ++ r.names) k)
    (before : ∀ i, i < k → r.standsFor s (candidate base i) = false) :
    register reserved base s kind r
      = (candidate base k, { r with pending := r.pending ++ [⟨candidate base k, s, kind⟩] }) := by
  have missing : r.reusable? reserved base s = none := by
    rw [reusable_eq reserved base s r k first, List.find?_map, Option.map_eq_none_iff,
      List.find?_range_eq_none]
    exact fun i less => by simp [before i less]
  rw [register, missing]
  dsimp only
  rw [unique_eq_candidate base _ k first]

theorem register_registered (r : Registry) :
    Registered reserved base s kind r (register reserved base s kind r) := by
  obtain ⟨k, first⟩ := first_free_exists base (reserved ++ r.names)
  by_cases known : ∃ j, j < k ∧ r.standsFor s (candidate base j) = true
  · let j := Nat.find known
    have here := Nat.find_spec known
    have before : ∀ i, i < j → r.standsFor s (candidate base i) = false := by
      intro i less
      have unknown := Nat.find_min known less
      have early : i < k := Nat.lt_trans less here.1
      simpa [early] using unknown
    rw [register_reused reserved base s kind r k j first here.1 before here.2]
    exact .reused k j first here.1 before here.2
  · have before : ∀ i, i < k → r.standsFor s (candidate base i) = false := by
      intro i less
      by_contra unknown
      exact known ⟨i, less, by simpa using unknown⟩
    rw [register_added reserved base s kind r k first before]
    exact .added k first before

theorem types_added (r : Registry) (t : SynthesizedType) :
    types { r with pending := r.pending ++ [t] } = r.types ++ [t] := by
  simp [types]

theorem names_added (r : Registry) (t : SynthesizedType) :
    names { r with pending := r.pending ++ [t] } = r.names ++ [t.name] := by
  simp [names, types]

theorem register_extends (r : Registry) : Extends r (register reserved base s kind r).2 := by
  have step := register_registered reserved base s kind r
  generalize register reserved base s kind r = outcome at step ⊢
  cases step with
  | reused => exact extends_refl r
  | added => exact ⟨_, (types_added r _).symm⟩

theorem register_taken (r : Registry) : (register reserved base s kind r).2.taken = r.taken := by
  have step := register_registered reserved base s kind r
  generalize register reserved base s kind r = outcome at step ⊢
  cases step <;> rfl

theorem register_well_named (r : Registry) (named : WellNamed reserved r) :
    WellNamed reserved (register reserved base s kind r).2 := by
  have step := register_registered reserved base s kind r
  generalize register reserved base s kind r = outcome at step ⊢
  cases step with
  | reused => exact named
  | added k first _ =>
      have fresh := first.free
      rw [List.mem_append, not_or] at fresh
      constructor
      · rw [names_added]
        exact List.nodup_append.mpr ⟨named.distinct, by simp, by grind⟩
      · rw [names_added]
        intro name member
        rcases List.mem_append.mp member with old | new
        · exact named.free name old
        · rw [List.mem_singleton.mp new]
          exact fresh.1

theorem register_mem (r : Registry) (t : SynthesizedType)
    (member : t ∈ (register reserved base s kind r).2.types) :
    t ∈ r.types ∨ t.schema = s ∧ t.kind = kind := by
  have step := register_registered reserved base s kind r
  generalize register reserved base s kind r = outcome at step member
  cases step with
  | reused => exact .inl member
  | added k =>
      rw [types_added, List.mem_append, List.mem_singleton] at member
      rcases member with old | rfl
      · exact .inl old
      · exact .inr ⟨rfl, rfl⟩

theorem register_mem_named (r : Registry) (t : SynthesizedType)
    (member : t ∈ (register reserved base s kind r).2.types) :
    t ∈ r.types ∨ t.schema = s ∧ t.name = Naming.unique base (reserved ++ r.names) := by
  have step := register_registered reserved base s kind r
  generalize register reserved base s kind r = outcome at step member
  cases step with
  | reused => exact .inl member
  | added k first =>
      rw [types_added, List.mem_append, List.mem_singleton] at member
      rcases member with old | rfl
      · exact .inl old
      · exact .inr ⟨rfl, (unique_eq_candidate base _ k first).symm⟩

theorem register_stored (r : Registry) : ∃ t,
    (register reserved base s kind r).2.stored? (register reserved base s kind r).1 = some t ∧
      (t.schema = s ∨ t.schema.same s = true) := by
  have step := register_registered reserved base s kind r
  generalize register reserved base s kind r = outcome at step ⊢
  cases step with
  | reused k j _ _ _ here =>
      rw [stands_for_eq, Option.any_eq_true] at here
      obtain ⟨t, found, same⟩ := here
      exact ⟨t, found, .inr same⟩
  | added k first _ =>
      refine ⟨⟨candidate base k, s, kind⟩, ?_, .inl rfl⟩
      have missing : r.stored? (candidate base k) = none :=
        (stored_none_iff r _).mpr fun member => first.free (List.mem_append_right _ member)
      rw [stored?, types_added, List.find?_append, ← stored?, missing]
      simp

-- The candidates before the answer stay taken by other schemas, and the answer stands for the
-- schema, so the search ends at the same place however the registry has grown.
theorem register_repeats (r r' : Registry) (reflexive : s.same s = true)
    (named : WellNamed reserved r') (grown : Extends (register reserved base s kind r).2 r') :
    register reserved base s kind r' = ((register reserved base s kind r).1, r') := by
  obtain ⟨k', later⟩ := first_free_exists base (reserved ++ r'.names)
  have step := register_registered reserved base s kind r
  generalize register reserved base s kind r = outcome at step grown ⊢
  cases step with
  | reused k j first less before here =>
      have kept : ∀ i, i < k →
          r'.standsFor s (candidate base i) = r.standsFor s (candidate base i) := fun i early =>
        stands_for_extends reserved s r r' _ grown named (first.before i early)
      have bound : k ≤ k' :=
        first_free_mono base _ _ k k' (used_extends reserved r r' grown) first later
      apply register_reused reserved base s kind r' k' j later (by omega)
      · intro i early
        rw [kept i (by omega), before i early]
      · rw [kept j less, here]
  | added k first before =>
      have earlier : Extends r r' := extends_trans r _ r' ⟨_, (types_added r _).symm⟩ grown
      have names := (extends_names _ r' grown).subset
      rw [names_added] at names
      have fresh : candidate base k ∈ r'.names := names (by simp)
      have bound : k < k' := by
        have weak := first_free_mono base _ _ k k' (used_extends reserved r r' earlier) first later
        have different : k ≠ k' := fun same =>
          later.free (same ▸ List.mem_append_right _ fresh)
        omega
      have missing : r.stored? (candidate base k) = none :=
        (stored_none_iff r _).mpr fun member => first.free (List.mem_append_right _ member)
      apply register_reused reserved base s kind r' k' k later bound
      · intro i early
        rw [stands_for_extends reserved s r r' _ earlier named (first.before i early)]
        exact before i early
      · rw [stands_for_eq, stored_extends _ r' (candidate base k) ⟨candidate base k, s, kind⟩ grown]
        · exact reflexive
        · rw [stored?, types_added, List.find?_append, ← stored?, missing]
          simp

end OpenApi.Registry
