import OpenApi.Proofs.Decimal.Same
import OpenApi.Proofs.Json.Assoc

set_option autoImplicit false

namespace OpenApi.Value

def children : Value → List Value
  | .arr items => items
  | .obj fields => fields.map (·.2)
  | _ => []

theorem child_smaller (v child : Value) (member : child ∈ v.children) : sizeOf child < sizeOf v := by
  cases v with
  | arr items =>
      have inItems : child ∈ items := member
      have := List.sizeOf_lt_of_mem inItems
      simp only [arr.sizeOf_spec]
      omega
  | obj fields =>
      obtain ⟨field, inFields, rfl⟩ := List.mem_map.mp member
      have := List.sizeOf_lt_of_mem inFields
      have : sizeOf field = 1 + sizeOf field.1 + sizeOf field.2 := by cases field; rfl
      simp only [obj.sizeOf_spec]
      omega
  | null | bool | num | str => cases member

@[elab_as_elim]
theorem child_induction {P : Value → Prop} (step : ∀ v, (∀ child ∈ v.children, P child) → P v)
    (v : Value) : P v :=
  step v fun child member =>
    have := child_smaller v child member
    child_induction step child
termination_by sizeOf v

mutual

def isKeyed : Value → Bool
  | .arr items => itemsKeyed items
  | .obj fields => decide (Assoc.keys fields).Nodup && fieldsKeyed fields
  | _ => true
termination_by structural v => v

def itemsKeyed : List Value → Bool
  | [] => true
  | v :: rest => v.isKeyed && itemsKeyed rest
termination_by structural items => items

def fieldsKeyed : List (String × Value) → Bool
  | [] => true
  | (_, v) :: rest => v.isKeyed && fieldsKeyed rest
termination_by structural fields => fields

end

theorem items_keyed_iff (items : List Value) :
    itemsKeyed items = true ↔ ∀ v ∈ items, v.isKeyed = true := by
  induction items with
  | nil => simp [itemsKeyed]
  | cons v rest ih => simp [itemsKeyed, ih]

theorem fields_keyed_iff (fields : List (String × Value)) :
    fieldsKeyed fields = true ↔ ∀ field ∈ fields, field.2.isKeyed = true := by
  induction fields with
  | nil => simp [fieldsKeyed]
  | cons field rest ih =>
      rcases field with ⟨name, v⟩
      rw [fieldsKeyed, Bool.and_eq_true, ih, List.forall_mem_cons]

theorem keyed_arr_iff (items : List Value) :
    (arr items).isKeyed = true ↔ ∀ v ∈ items, v.isKeyed = true := by
  rw [isKeyed, items_keyed_iff]

theorem keyed_obj_iff (fields : List (String × Value)) : (obj fields).isKeyed = true ↔
    (Assoc.keys fields).Nodup ∧ ∀ field ∈ fields, field.2.isKeyed = true := by
  rw [isKeyed, Bool.and_eq_true, decide_eq_true_iff, fields_keyed_iff]

theorem keyed_child (v child : Value) (keyed : v.isKeyed = true) (member : child ∈ v.children) :
    child.isKeyed = true := by
  cases v with
  | arr items => exact (keyed_arr_iff items).mp keyed child member
  | obj fields =>
      obtain ⟨field, inFields, rfl⟩ := List.mem_map.mp member
      exact ((keyed_obj_iff fields).mp keyed).2 field inFields
  | null | bool | num | str => cases member

theorem same_items_iff (xs ys : List Value) :
    sameItems xs ys = true ↔ List.Forall₂ (fun x y => x.same y = true) xs ys := by
  induction xs generalizing ys with
  | nil => cases ys <;> simp [sameItems]
  | cons x xs ih => cases ys <;> simp [sameItems, ih]

theorem same_fields_iff (xs ys : List (String × Value)) : sameFields xs ys = true ↔
    ∀ x ∈ xs, ∃ b, ys.lookup x.1 = some b ∧ x.2.same b = true := by
  induction xs with
  | nil => simp [sameFields]
  | cons x xs ih =>
      rcases x with ⟨name, v⟩
      rw [sameFields, Bool.and_eq_true, ih, List.forall_mem_cons]
      cases ys.lookup name <;> simp

theorem same_arr_iff (xs ys : List Value) : (arr xs).same (arr ys) = true ↔
    List.Forall₂ (fun x y => x.same y = true) xs ys := by
  rw [same, same_items_iff]

theorem same_obj_iff (xs ys : List (String × Value)) : (obj xs).same (obj ys) = true ↔
    Assoc.Matches (fun x y => x.same y = true) xs ys := by
  rw [same, Bool.and_eq_true, beq_iff_eq, same_fields_iff, Assoc.Matches]

theorem same_refl (v : Value) (keyed : v.isKeyed = true) : v.same v = true := by
  induction v using child_induction with
  | step v ih =>
      cases v with
      | arr items =>
          rw [keyed_arr_iff] at keyed
          rw [same_arr_iff, List.forall₂_same]
          exact fun item member => ih item member (keyed item member)
      | obj fields =>
          rw [keyed_obj_iff] at keyed
          rw [same_obj_iff]
          exact Assoc.matches_refl _ fields keyed.1 fun field member =>
            ih field.2 (List.mem_map_of_mem member) (keyed.2 field member)
      | num n => exact n.same_refl
      | null | bool | str => simp [same]

theorem same_symm (v w : Value) (vKeyed : v.isKeyed = true) (wKeyed : w.isKeyed = true)
    (equal : v.same w = true) : w.same v = true := by
  induction v using child_induction generalizing w with
  | step v ih =>
      cases v with
      | arr xs =>
          cases w with
          | arr ys =>
              rw [keyed_arr_iff] at vKeyed wKeyed
              rw [same_arr_iff] at equal ⊢
              exact Assoc.items_symm _ _ xs ys equal fun x inXs y inYs =>
                ih x inXs y (vKeyed x inXs) (wKeyed y inYs)
          | _ => simp [same] at equal
      | obj xs =>
          cases w with
          | obj ys =>
              rw [keyed_obj_iff] at vKeyed wKeyed
              rw [same_obj_iff] at equal ⊢
              exact Assoc.matches_symm _ _ xs ys vKeyed.1 wKeyed.1 (fun x inXs y inYs =>
                ih x.2 (List.mem_map_of_mem inXs) y.2 (vKeyed.2 x inXs) (wKeyed.2 y inYs)) equal
          | _ => simp [same] at equal
      | num n =>
          cases w with
          | num m => exact n.same_symm m equal
          | _ => simp [same] at equal
      | null | bool | str => cases w <;> simp_all [same]

theorem same_trans (u v w : Value) (first : u.same v = true) (second : v.same w = true) :
    u.same w = true := by
  induction u using child_induction generalizing v w with
  | step u ih =>
      cases u with
      | arr xs =>
          cases v with
          | arr ys =>
              cases w with
              | arr zs =>
                  rw [same_arr_iff] at first second ⊢
                  exact Assoc.items_trans _ _ _ xs ys zs first second fun x inXs y _ z _ =>
                    ih x inXs y z
              | _ => simp [same] at second
          | _ => simp [same] at first
      | obj xs =>
          cases v with
          | obj ys =>
              cases w with
              | obj zs =>
                  rw [same_obj_iff] at first second ⊢
                  exact Assoc.matches_trans _ _ _ xs ys zs (fun x inXs y _ z _ =>
                    ih x.2 (List.mem_map_of_mem inXs) y.2 z.2) first second
              | _ => simp [same] at second
          | _ => simp [same] at first
      | num n =>
          cases v with
          | num m =>
              cases w with
              | num k => exact n.same_trans m k first second
              | _ => simp [same] at second
          | _ => simp [same] at first
      | null | bool | str => cases v <;> cases w <;> simp_all [same]

end OpenApi.Value
