import Mathlib.Data.List.Forall2
import Mathlib.Data.List.Induction
import Mathlib.Data.List.Nodup
import Mathlib.Data.List.Perm.Subperm
import Mathlib.Data.String.Basic
import OpenApi.Json.Value

set_option autoImplicit false

namespace OpenApi

section Added

variable {α : Type} [BEq α] [LawfulBEq α] (xs : List α) (x : α)

theorem mem_added (y : α) : y ∈ (if xs.contains x then xs else xs ++ [x]) ↔ y ∈ xs ∨ y = x := by
  by_cases known : x ∈ xs
  · have same : y = x → y ∈ xs := fun same => same ▸ known
    simpa [known] using same
  · simp [known]

theorem added_distinct (distinct : xs.Nodup) :
    (if xs.contains x then xs else xs ++ [x]).Nodup := by
  by_cases known : x ∈ xs
  · simpa [known] using distinct
  · have apart : ∀ y ∈ xs, y ≠ x := fun y member => ne_of_mem_of_not_mem member known
    simpa [known, List.nodup_append, distinct] using apart

end Added

section Firsts

variable {α β : Type} [BEq α] [LawfulBEq α] [BEq β] [LawfulBEq β]

theorem firsts_concat (xs : List α) (x : α) :
    (xs ++ [x]).eraseDups = if xs.contains x then xs.eraseDups else xs.eraseDups ++ [x] := by
  rw [List.eraseDups_append]
  split <;> simp_all [List.removeAll, List.eraseDups_cons]

theorem firsts_distinct (xs : List α) : xs.eraseDups.Nodup := by
  induction xs using List.reverseRecOn with
  | nil => exact List.nodup_nil
  | append_singleton xs x ih =>
      have known : xs.contains x = xs.eraseDups.contains x := by simp [List.mem_eraseDups]
      rw [firsts_concat, known]
      exact added_distinct xs.eraseDups x ih

theorem firsts_filter_map (f : α → Option β)
    (injective : ∀ x x' y, f x = some y → f x' = some y → x = x') (xs : List α) :
    xs.eraseDups.filterMap f = (xs.filterMap f).eraseDups := by
  induction xs using List.reverseRecOn with
  | nil => rfl
  | append_singleton xs x ih =>
      rw [firsts_concat, List.filterMap_append]
      cases image : f x with
      | none => simp [image, apply_ite, ih]
      | some y =>
          have same : (xs.filterMap f).contains y = xs.contains x := by
            rw [Bool.eq_iff_iff, List.contains_iff_mem, List.contains_iff_mem, List.mem_filterMap]
            refine ⟨fun ⟨x', member, isImage⟩ => ?_, fun member => ⟨x, member, image⟩⟩
            exact injective x' x y isImage image ▸ member
          rw [List.filterMap_cons_some image, List.filterMap_nil, firsts_concat, same, ← ih]
          split
          · rfl
          · simp [image]

end Firsts

namespace Assoc

section Lookup

variable {κ α : Type}

theorem key_mem (entries : List (κ × α)) (entry : κ × α) (member : entry ∈ entries) :
    entry.1 ∈ keys entries := List.mem_map_of_mem member

variable [BEq κ] [LawfulBEq κ]

theorem lookup_of_mem (entries : List (κ × α)) (distinct : (keys entries).Nodup)
    (entry : κ × α) (member : entry ∈ entries) : entries.lookup entry.1 = some entry.2 := by
  induction entries with
  | nil => cases member
  | cons first rest ih =>
      obtain ⟨absent, restDistinct⟩ := List.nodup_cons.mp distinct
      rcases List.mem_cons.mp member with rfl | later
      · rw [List.lookup_cons, beq_self_eq_true]
      · have different : entry.1 ≠ first.1 := by
          intro same
          have present := key_mem rest entry later
          exact absent (by rwa [same] at present)
        rw [List.lookup_cons, beq_eq_false_iff_ne.mpr different]
        exact ih restDistinct later

theorem mem_of_lookup (entries : List (κ × α)) (key : κ) (a : α)
    (found : entries.lookup key = some a) : (key, a) ∈ entries := by
  induction entries with
  | nil => cases found
  | cons first rest ih =>
      rw [List.lookup_cons] at found
      by_cases here : key = first.1
      · subst here
        obtain rfl : first.2 = a := by simpa using found
        exact List.mem_cons_self
      · rw [beq_eq_false_iff_ne.mpr here] at found
        exact List.mem_cons_of_mem _ (ih found)

theorem lookup_of_key (entries : List (κ × α)) (key : κ) (member : key ∈ keys entries) :
    ∃ a, entries.lookup key = some a := by
  induction entries with
  | nil => cases member
  | cons first rest ih =>
      rw [List.lookup_cons]
      by_cases here : key = first.1
      · exact ⟨first.2, by simp [here]⟩
      · rw [beq_eq_false_iff_ne.mpr here]
        exact ih ((List.mem_cons.mp member).resolve_left here)

theorem lookup_absent (entries : List (κ × α)) (key : κ) (absent : key ∉ keys entries) :
    entries.lookup key = none := by
  rw [List.lookup_eq_none_iff]
  intro entry member
  have present := key_mem entries entry member
  exact bne_iff_ne.mpr fun same => absent (same ▸ present)

end Lookup

section Put

variable {κ α : Type} [BEq κ]

theorem put_mem (entries : List (κ × α)) (key : κ) (value : α) (entry : κ × α)
    (member : entry ∈ put entries key value) : entry = (key, value) ∨ entry ∈ entries := by
  induction entries with
  | nil => exact .inl (List.mem_singleton.mp member)
  | cons first rest ih =>
      rw [put] at member
      split at member
      · rcases List.mem_cons.mp member with new | later
        · exact .inl new
        · exact .inr (List.mem_cons_of_mem first later)
      · rcases List.mem_cons.mp member with rfl | later
        · exact .inr List.mem_cons_self
        · exact (ih later).imp_right (List.mem_cons_of_mem first)

variable [LawfulBEq κ]

theorem keys_put (entries : List (κ × α)) (key : κ) (value : α) : keys (put entries key value)
    = if (keys entries).contains key then keys entries else keys entries ++ [key] := by
  induction entries with
  | nil => rfl
  | cons first rest ih =>
      rcases first with ⟨old, a⟩
      by_cases same : old = key
      · subst same
        simp [put, keys]
      · have moved : keys (put ((old, a) :: rest) key value) = old :: keys (put rest key value) := by
          simp [put, same, keys]
        have absent : (keys ((old, a) :: rest)).contains key = (keys rest).contains key := by
          simp [keys, Ne.symm same]
        rw [moved, ih, absent]
        split <;> rfl

theorem lookup_put (entries : List (κ × α)) (key k : κ) (value : α) :
    (put entries key value).lookup k = if k == key then some value else entries.lookup k := by
  induction entries with
  | nil =>
      rw [put, List.lookup_cons]
      split <;> simp_all
  | cons first rest ih =>
      rcases first with ⟨old, a⟩
      by_cases same : old = key
      · subst same
        rw [put, if_pos (beq_self_eq_true old), List.lookup_cons, List.lookup_cons]
        split <;> simp_all
      · rw [put, if_neg (by simpa using same), List.lookup_cons, List.lookup_cons, ih]
        by_cases here : k = old
        · subst here
          simp [same]
        · simp [beq_eq_false_iff_ne.mpr here]

theorem put_keys (entries : List (κ × α)) (key k : κ) (value : α) :
    k ∈ keys (put entries key value) ↔ k ∈ keys entries ∨ k = key := by
  rw [keys_put]
  exact mem_added (keys entries) key k

theorem put_distinct (entries : List (κ × α)) (key : κ) (value : α)
    (distinct : (keys entries).Nodup) : (keys (put entries key value)).Nodup := by
  rw [keys_put]
  exact added_distinct (keys entries) key distinct

theorem put_absent (entries : List (κ × α)) (key : κ) (value : α) (absent : key ∉ keys entries) :
    put entries key value = entries ++ [(key, value)] := by
  induction entries with
  | nil => rfl
  | cons first rest ih =>
      have other : first.1 ≠ key := fun same => absent (List.mem_cons.mpr (.inl same.symm))
      have later : key ∉ keys rest := fun member => absent (List.mem_cons_of_mem first.1 member)
      rw [put, if_neg (by simpa using other), ih later, List.cons_append]

theorem put_again (entries : List (κ × α)) (key : κ) (old new : α) :
    put (put entries key old) key new = put entries key new := by
  induction entries with
  | nil => simp [put]
  | cons first rest ih =>
      by_cases same : first.1 = key
      · simp [put, same]
      · simp [put, same, ih]

theorem put_swap (entries : List (κ × α)) (key other : κ) (value a : α) (different : other ≠ key)
    (present : key ∈ keys entries) :
    put (put entries other a) key value = put (put entries key value) other a := by
  induction entries with
  | nil => cases present
  | cons first rest ih =>
      by_cases same : first.1 = key
      · simp [put, same, different.symm]
      · have later : key ∈ keys rest := (List.mem_cons.mp present).resolve_left (Ne.symm same)
        by_cases here : first.1 = other
        · simp [put, here, different]
        · simp [put, same, here, ih later]

end Put

section Table

variable {κ α β : Type} [BEq κ] [LawfulBEq κ] (key : β → κ) (f g : β → α) (xs : List β) (x : β)

theorem put_known (distinct : (xs.map key).Nodup) (member : x ∈ xs)
    (elsewhere : ∀ y ∈ xs, key y ≠ key x → f y = g y) :
    put (xs.map fun y => (key y, f y)) (key x) (g x) = xs.map fun y => (key y, g y) := by
  induction xs with
  | nil => cases member
  | cons first rest ih =>
      obtain ⟨fresh, distinctRest⟩ := List.nodup_cons.mp distinct
      simp only [List.map_cons, put]
      by_cases here : first = x
      · subst here
        have others : ∀ y ∈ rest, (key y, f y) = (key y, g y) := by
          intro y later
          have other : key y ≠ key first := fun same => fresh (same ▸ List.mem_map_of_mem later)
          rw [elsewhere y (List.mem_cons_of_mem first later) other]
        rw [if_pos (beq_self_eq_true _), List.map_congr_left others]
      · have later : x ∈ rest := (List.mem_cons.mp member).resolve_left (Ne.symm here)
        have other : key first ≠ key x := fun same => fresh (same ▸ List.mem_map_of_mem later)
        rw [if_neg (by simpa using other), elsewhere first List.mem_cons_self other,
          ih distinctRest later fun y inRest => elsewhere y (List.mem_cons_of_mem first inRest)]

theorem put_new (absent : key x ∉ xs.map key) (elsewhere : ∀ y ∈ xs, f y = g y) :
    put (xs.map fun y => (key y, f y)) (key x) (g x) = (xs ++ [x]).map fun y => (key y, g y) := by
  have names : keys (xs.map fun y => (key y, f y)) = xs.map key := by simp [keys]
  have same : ∀ y ∈ xs, (key y, f y) = (key y, g y) := fun y member => by rw [elsewhere y member]
  rw [put_absent _ _ _ (names ▸ absent), List.map_congr_left same, List.map_append,
    List.map_singleton]

end Table

section PutAll

variable {κ α : Type} [BEq κ]

def putAll (entries more : List (κ × α)) : List (κ × α) :=
  more.foldl (fun acc (key, value) => put acc key value) entries

theorem put_all_mem (entries more : List (κ × α)) (entry : κ × α)
    (member : entry ∈ putAll entries more) : entry ∈ more ∨ entry ∈ entries := by
  induction more generalizing entries with
  | nil => exact .inr member
  | cons first rest ih =>
      rcases ih (put entries first.1 first.2) member with later | early
      · exact .inl (List.mem_cons_of_mem first later)
      · rcases put_mem entries first.1 first.2 entry early with rfl | old
        · exact .inl List.mem_cons_self
        · exact .inr old

variable [LawfulBEq κ]

theorem put_all_distinct (entries more : List (κ × α)) (distinct : (keys entries).Nodup) :
    (keys (putAll entries more)).Nodup := by
  induction more generalizing entries with
  | nil => exact distinct
  | cons first rest ih => exact ih _ (put_distinct entries first.1 first.2 distinct)

theorem put_all_keys (entries more : List (κ × α)) (k : κ) :
    k ∈ keys (putAll entries more) ↔ k ∈ keys entries ∨ k ∈ keys more := by
  induction more generalizing entries with
  | nil => simp [putAll, keys]
  | cons first rest ih =>
      have step : putAll entries (first :: rest) = putAll (put entries first.1 first.2) rest := rfl
      have split : k ∈ keys (first :: rest) ↔ k = first.1 ∨ k ∈ keys rest := List.mem_cons
      rw [step, ih, put_keys, split, or_assoc]

theorem lookup_put_all (entries more : List (κ × α)) (distinct : (keys more).Nodup) (k : κ) :
    (putAll entries more).lookup k = (more.lookup k).or (entries.lookup k) := by
  induction more generalizing entries with
  | nil => rfl
  | cons first rest ih =>
      obtain ⟨absent, restDistinct⟩ := List.nodup_cons.mp distinct
      have step : putAll entries (first :: rest) = putAll (put entries first.1 first.2) rest := rfl
      rw [step, ih _ restDistinct, lookup_put, List.lookup_cons]
      by_cases here : k = first.1
      · subst here
        have nowhere : rest.lookup first.1 = none := lookup_absent rest first.1 absent
        simp [nowhere]
      · simp [beq_eq_false_iff_ne.mpr here]

theorem put_all_swap (entries more : List (κ × α)) (key : κ) (value : α) (absent : key ∉ keys more)
    (present : key ∈ keys entries) :
    put (putAll entries more) key value = putAll (put entries key value) more := by
  induction more generalizing entries with
  | nil => rfl
  | cons first rest ih =>
      obtain ⟨different, restAbsent⟩ := not_or.mp (mt List.mem_cons.mpr absent)
      have kept : key ∈ keys (put entries first.1 first.2) := (put_keys ..).mpr (.inl present)
      calc put (putAll entries (first :: rest)) key value
        _ = putAll (put (put entries first.1 first.2) key value) rest := ih _ restAbsent kept
        _ = putAll (put (put entries key value) first.1 first.2) rest := by
          rw [put_swap entries key first.1 value first.2 (Ne.symm different) present]

theorem put_all_put (entries more : List (κ × α)) (key : κ) (value : α)
    (distinct : (keys more).Nodup) :
    putAll entries (put more key value) = put (putAll entries more) key value := by
  induction more generalizing entries with
  | nil => rfl
  | cons first rest ih =>
      obtain ⟨absent, restDistinct⟩ := List.nodup_cons.mp distinct
      by_cases same : first.1 = key
      · subst same
        have present : first.1 ∈ keys (put entries first.1 first.2) :=
          (put_keys ..).mpr (.inr rfl)
        calc putAll entries (put (first :: rest) first.1 value)
          _ = putAll (put entries first.1 value) rest := by simp [put, putAll]
          _ = putAll (put (put entries first.1 first.2) first.1 value) rest := by rw [put_again]
          _ = put (putAll (put entries first.1 first.2) rest) first.1 value :=
            (put_all_swap _ rest first.1 value absent present).symm
      · have later : put (first :: rest) key value = first :: put rest key value := by
          simp [put, same]
        rw [later]
        exact ih (put entries first.1 first.2) restDistinct

theorem put_all_put_all (entries middle more : List (κ × α)) (distinct : (keys middle).Nodup) :
    putAll entries (putAll middle more) = putAll (putAll entries middle) more := by
  induction more generalizing middle with
  | nil => rfl
  | cons first rest ih =>
      calc putAll entries (putAll (put middle first.1 first.2) rest)
        _ = putAll (putAll entries (put middle first.1 first.2)) rest :=
          ih _ (put_distinct middle first.1 first.2 distinct)
        _ = putAll (put (putAll entries middle) first.1 first.2) rest := by
          rw [put_all_put entries middle first.1 first.2 distinct]

end PutAll

section OfList

variable {κ α : Type} [BEq κ]

theorem of_list_concat (entries : List (κ × α)) (entry : κ × α) :
    ofList (entries ++ [entry]) = put (ofList entries) entry.1 entry.2 := by
  rw [ofList, List.foldl_append]
  rfl

theorem of_list_mem (entries : List (κ × α)) (entry : κ × α) (member : entry ∈ ofList entries) :
    entry ∈ entries :=
  (put_all_mem [] entries entry member).resolve_right List.not_mem_nil

variable [LawfulBEq κ]

theorem of_list_distinct (entries : List (κ × α)) : (keys (ofList entries)).Nodup :=
  put_all_distinct [] entries List.nodup_nil

theorem of_list_keys (entries : List (κ × α)) : keys (ofList entries) = (keys entries).eraseDups := by
  induction entries using List.reverseRecOn with
  | nil => rfl
  | append_singleton entries entry ih =>
      have added : keys (entries ++ [entry]) = keys entries ++ [entry.1] := List.map_append
      have known : (keys entries).eraseDups.contains entry.1 = (keys entries).contains entry.1 := by
        simp [List.mem_eraseDups]
      rw [of_list_concat, keys_put, ih, added, firsts_concat, known]

theorem of_list_last (entries : List (κ × α)) (entry : κ × α) (member : entry ∈ ofList entries) :
    ∃ before after, entries = before ++ entry :: after ∧ entry.1 ∉ keys after := by
  induction entries using List.reverseRecOn generalizing entry with
  | nil => cases member
  | append_singleton entries new ih =>
      have distinct := of_list_distinct (entries ++ [new])
      have found := lookup_of_mem _ distinct entry member
      rw [of_list_concat, lookup_put] at found
      by_cases here : entry.1 = new.1
      · rw [if_pos (beq_iff_eq.mpr here)] at found
        obtain rfl : entry = new := Prod.ext here (Option.some.inj found).symm
        exact ⟨entries, [], rfl, List.not_mem_nil⟩
      · rw [if_neg (mt beq_iff_eq.mp here)] at found
        obtain ⟨before, after, split, absent⟩ := ih entry (mem_of_lookup _ _ _ found)
        refine ⟨before, after ++ [new], by rw [split, List.append_assoc, List.cons_append], ?_⟩
        rw [keys, List.map_append, List.mem_append]
        exact not_or.mpr ⟨absent, mt List.mem_singleton.mp here⟩

end OfList

section PutSorted

variable {α : Type}

def Ascending (entries : List (String × α)) : Prop := (keys entries).Pairwise (· < ·)

theorem ascending_distinct (entries : List (String × α)) (ascending : Ascending entries) :
    (keys entries).Nodup := ascending.imp fun less => ne_of_lt less

theorem put_sorted_mem (entries : List (String × α)) (key : String) (value : α)
    (entry : String × α) (member : entry ∈ putSorted entries key value) :
    entry = (key, value) ∨ entry ∈ entries := by
  induction entries with
  | nil => exact .inl (List.mem_singleton.mp member)
  | cons first rest ih =>
      rw [putSorted] at member
      split at member
      · exact (List.mem_cons.mp member).imp_right (List.mem_cons_of_mem first)
      · split at member
        · exact List.mem_cons.mp member
        · rcases List.mem_cons.mp member with rfl | later
          · exact .inr List.mem_cons_self
          · exact (ih later).imp_right (List.mem_cons_of_mem first)

theorem put_sorted_ascending (entries : List (String × α)) (key : String) (value : α)
    (ascending : Ascending entries) : Ascending (putSorted entries key value) := by
  induction entries with
  | nil => exact List.pairwise_singleton _ key
  | cons first rest ih =>
      obtain ⟨below, restAscending⟩ := List.pairwise_cons.mp ascending
      rw [putSorted]
      split
      · rename_i same
        obtain rfl := eq_of_beq same
        exact List.pairwise_cons.mpr ⟨below, restAscending⟩
      · rename_i different
        split
        · rename_i less
          refine List.pairwise_cons.mpr ⟨fun k member => ?_, ascending⟩
          rcases List.mem_cons.mp member with rfl | later
          · exact less
          · exact lt_trans less (below k later)
        · rename_i notLess
          refine List.pairwise_cons.mpr ⟨fun k member => ?_, ih restAscending⟩
          obtain ⟨entry, inRest, rfl⟩ := List.mem_map.mp member
          rcases put_sorted_mem rest key value entry inRest with rfl | old
          · exact lt_of_le_of_ne (le_of_not_gt notLess) fun same =>
              different (beq_iff_eq.mpr same.symm)
          · exact below entry.1 (key_mem rest entry old)

end PutSorted

section Matches

variable {α : Type}

-- There are as many entries in both lists, and each entry of the first is related to the entry of
-- the second that has the same key.
def Matches (R : α → α → Prop) (xs ys : List (String × α)) : Prop :=
  xs.length = ys.length ∧ ∀ x ∈ xs, ∃ b, ys.lookup x.1 = some b ∧ R x.2 b

theorem matches_refl (R : α → α → Prop) (xs : List (String × α)) (distinct : (keys xs).Nodup)
    (each : ∀ x ∈ xs, R x.2 x.2) : Matches R xs xs :=
  ⟨rfl, fun x member => ⟨x.2, lookup_of_mem xs distinct x member, each x member⟩⟩

theorem matches_symm (R S : α → α → Prop) (xs ys : List (String × α))
    (xsDistinct : (keys xs).Nodup) (ysDistinct : (keys ys).Nodup)
    (each : ∀ x ∈ xs, ∀ y ∈ ys, R x.2 y.2 → S y.2 x.2) (matched : Matches R xs ys) :
    Matches S ys xs := by
  obtain ⟨sizes, partners⟩ := matched
  refine ⟨sizes.symm, fun y member => ?_⟩
  have covered : keys xs ⊆ keys ys := by
    intro key present
    obtain ⟨x, inXs, rfl⟩ := List.mem_map.mp present
    obtain ⟨b, found, _⟩ := partners x inXs
    have partner := mem_of_lookup ys x.1 b found
    exact key_mem ys (x.1, b) partner
  have all : (keys xs).Perm (keys ys) :=
    (List.subperm_of_subset xsDistinct covered).perm_of_length_le (by simp [keys, sizes])
  obtain ⟨a, found⟩ := lookup_of_key xs y.1 (all.mem_iff.mpr (key_mem ys y member))
  have inXs := mem_of_lookup xs y.1 a found
  obtain ⟨b, partner, related⟩ := partners _ inXs
  have same : y.2 = b :=
    Option.some.inj ((lookup_of_mem ys ysDistinct y member).symm.trans partner)
  exact ⟨a, found, each _ inXs y member (same ▸ related)⟩

theorem matches_trans (R S T : α → α → Prop) (xs ys zs : List (String × α))
    (each : ∀ x ∈ xs, ∀ y ∈ ys, ∀ z ∈ zs, R x.2 y.2 → S y.2 z.2 → T x.2 z.2)
    (first : Matches R xs ys) (second : Matches S ys zs) : Matches T xs zs := by
  refine ⟨first.1.trans second.1, fun x member => ?_⟩
  obtain ⟨b, found, left⟩ := first.2 x member
  have inYs := mem_of_lookup ys x.1 b found
  obtain ⟨d, next, right⟩ := second.2 _ inYs
  exact ⟨d, next, each x member _ inYs _ (mem_of_lookup zs x.1 d next) left right⟩

end Matches

section Items

variable {α : Type}

theorem items_symm (R S : α → α → Prop) (xs ys : List α) (matched : List.Forall₂ R xs ys)
    (each : ∀ x ∈ xs, ∀ y ∈ ys, R x y → S y x) : List.Forall₂ S ys xs := by
  induction matched with
  | nil => exact .nil
  | cons related _ ih =>
      exact .cons (each _ (by simp) _ (by simp) related)
        (ih fun x inXs y inYs => each x (by simp [inXs]) y (by simp [inYs]))

theorem items_trans (R S T : α → α → Prop) (xs ys zs : List α) (first : List.Forall₂ R xs ys)
    (second : List.Forall₂ S ys zs)
    (each : ∀ x ∈ xs, ∀ y ∈ ys, ∀ z ∈ zs, R x y → S y z → T x z) : List.Forall₂ T xs zs := by
  induction first generalizing zs with
  | nil =>
      cases second
      exact .nil
  | cons left _ ih =>
      cases second with
      | cons right rest =>
          exact .cons (each _ (by simp) _ (by simp) _ (by simp) left right)
            (ih _ rest fun x inXs y inYs z inZs =>
              each x (by simp [inXs]) y (by simp [inYs]) z (by simp [inZs]))

end Items

end Assoc

end OpenApi
