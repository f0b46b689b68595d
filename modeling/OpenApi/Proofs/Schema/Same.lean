import OpenApi.Proofs.Schema.Keyed
import OpenApi.Schema.Same

set_option autoImplicit false

namespace OpenApi

section Options

variable {α : Type} (same : α → α → Bool)

theorem same_option_refl (x : Option α) (each : ∀ a ∈ x, same a a = true) :
    sameOption same x x = true := by
  cases x with
  | none => rfl
  | some a => exact each a rfl

theorem same_option_symm (x y : Option α)
    (each : ∀ a ∈ x, ∀ b ∈ y, same a b = true → same b a = true)
    (equal : sameOption same x y = true) : sameOption same y x = true := by
  cases x <;> cases y
  · rfl
  · exact equal
  · exact equal
  · exact each _ rfl _ rfl equal

theorem same_option_trans (x y z : Option α)
    (each : ∀ a ∈ x, ∀ b ∈ y, ∀ c ∈ z, same a b = true → same b c = true → same a c = true)
    (first : sameOption same x y = true) (second : sameOption same y z = true) :
    sameOption same x z = true := by
  cases x <;> cases y <;> cases z <;> simp_all [sameOption]

end Options

theorem same_mapping_iff (xs ys : List (String × String)) :
    sameMapping xs ys = true ↔ Assoc.Matches (fun x y => x = y) xs ys := by
  simp only [sameMapping, Assoc.Matches, Bool.and_eq_true, beq_iff_eq, List.all_eq_true]
  simp

theorem same_bound_refl (a : ExclusiveBound) : a.same a = true := by
  cases a with
  | flag b => exact beq_self_eq_true b
  | value n => exact n.same_refl

theorem same_bound_symm (a b : ExclusiveBound) (same : a.same b = true) : b.same a = true := by
  cases a <;> cases b
  · exact beq_iff_eq.mpr (beq_iff_eq.mp same).symm
  · exact same
  · exact same
  · exact Number.same_symm _ _ same

theorem same_bound_trans (a b c : ExclusiveBound) (first : a.same b = true)
    (second : b.same c = true) : a.same c = true := by
  cases a with
  | flag =>
      cases b with
      | flag => cases c <;> simp_all [ExclusiveBound.same]
      | value => cases first
  | value n =>
      cases b with
      | flag => cases first
      | value m =>
          cases c with
          | flag => cases second
          | value k => exact n.same_trans m k first second

namespace Discriminator

theorem same_iff (a b : Discriminator) : a.same b = true ↔
    a.propertyName = b.propertyName ∧ Assoc.Matches (fun x y => x = y) a.mapping b.mapping := by
  rw [same, Bool.and_eq_true, beq_iff_eq, same_mapping_iff]

theorem same_refl (a : Discriminator) (keyed : (Assoc.keys a.mapping).Nodup) :
    a.same a = true := by
  rw [same_iff]
  exact ⟨rfl, Assoc.matches_refl _ a.mapping keyed fun _ _ => rfl⟩

theorem same_symm (a b : Discriminator) (aKeyed : (Assoc.keys a.mapping).Nodup)
    (bKeyed : (Assoc.keys b.mapping).Nodup) (equal : a.same b = true) : b.same a = true := by
  rw [same_iff] at equal ⊢
  exact ⟨equal.1.symm, Assoc.matches_symm _ _ a.mapping b.mapping aKeyed bKeyed
    (fun _ _ _ _ values => values.symm) equal.2⟩

theorem same_trans (a b c : Discriminator) (first : a.same b = true) (second : b.same c = true) :
    a.same c = true := by
  rw [same_iff] at first second ⊢
  exact ⟨first.1.trans second.1, Assoc.matches_trans _ _ _ a.mapping b.mapping c.mapping
    (fun _ _ _ _ _ _ left right => left.trans right) first.2 second.2⟩

end Discriminator

def OrBool.flag {α : Type} : Option (OrBool α) → Option (Option Bool)
  | none => none
  | some (.bool b) => some (some b)
  | some (.schema _) => some none

namespace Schema

def plain (s : Schema) : Schema :=
  { s with
    default := none, enumValues := none, constValue := none, properties := [],
    additionalProperties := none, items := none, prefixItems := [], minimum := none,
    maximum := none, exclusiveMinimum := none, exclusiveMaximum := none, multipleOf := none,
    allOf := [], oneOf := [], anyOf := [], not := none, discriminator := none, extra := [] }

structure SameValues (a b : Schema) : Prop where
  default : sameOption Value.same a.default b.default = true
  enumValues : sameOption Value.sameItems a.enumValues b.enumValues = true
  constValue : sameOption Value.same a.constValue b.constValue = true
  minimum : sameOption Number.same a.minimum b.minimum = true
  maximum : sameOption Number.same a.maximum b.maximum = true
  exclusiveMinimum : sameOption ExclusiveBound.same a.exclusiveMinimum b.exclusiveMinimum = true
  exclusiveMaximum : sameOption ExclusiveBound.same a.exclusiveMaximum b.exclusiveMaximum = true
  multipleOf : sameOption Number.same a.multipleOf b.multipleOf = true
  discriminator : sameOption Discriminator.same a.discriminator b.discriminator = true
  extra : Value.same (.obj a.extra) (.obj b.extra) = true

theorem same_scalars_iff (a b : Schema) :
    sameScalars a b = true ↔ a.plain = b.plain ∧ SameValues a b := by
  constructor
  · intro equal
    simp only [sameScalars, Bool.and_eq_true, beq_iff_eq] at equal
    refine ⟨?_, ?_⟩
    · simp only [plain, equal]
    · constructor <;> simp only [equal]
  · rintro ⟨plainEqual, values⟩
    simp only [plain, mk.injEq] at plainEqual
    simp only [sameScalars, plainEqual, values.default, values.enumValues, values.constValue,
      values.minimum, values.maximum, values.exclusiveMinimum, values.exclusiveMaximum,
      values.multipleOf, values.discriminator, values.extra, beq_self_eq_true, Bool.and_self]

theorem same_list_iff (xs ys : List Schema) :
    sameList xs ys = true ↔ List.Forall₂ (fun x y => x.same y = true) xs ys := by
  induction xs generalizing ys with
  | nil => cases ys <;> simp [sameList]
  | cons x xs ih => cases ys <;> simp [sameList, ih]

theorem same_properties_iff (xs ys : List (String × Schema)) : sameProperties xs ys = true ↔
    ∀ x ∈ xs, ∃ b, ys.lookup x.1 = some b ∧ x.2.same b = true := by
  induction xs with
  | nil => simp [sameProperties]
  | cons x xs ih =>
      rcases x with ⟨name, s⟩
      rw [sameProperties, Bool.and_eq_true, ih, List.forall_mem_cons]
      cases ys.lookup name <;> simp

theorem same_or_bool_iff (x y : Option (OrBool Schema)) : sameOrBool x y = true ↔
    OrBool.flag x = OrBool.flag y ∧
      List.Forall₂ (fun a b => a.same b = true) (OrBool.schemas x) (OrBool.schemas y) := by
  rcases x with _ | ⟨_ | _⟩ <;> rcases y with _ | ⟨_ | _⟩ <;>
    simp [sameOrBool, OrBool.flag, OrBool.schemas]

theorem same_negated_iff (x y : Option Schema) :
    sameNegated x y = true ↔ List.Forall₂ (fun a b => a.same b = true) x.toList y.toList := by
  cases x <;> cases y <;> simp [sameNegated]

structure SameParts (a b : Schema) : Prop where
  plain : a.plain = b.plain
  values : SameValues a b
  properties : Assoc.Matches (fun x y => x.same y = true) a.properties b.properties
  additionalFlag : OrBool.flag a.additionalProperties = OrBool.flag b.additionalProperties
  additional : List.Forall₂ (fun x y => x.same y = true) (OrBool.schemas a.additionalProperties)
    (OrBool.schemas b.additionalProperties)
  itemsFlag : OrBool.flag a.items = OrBool.flag b.items
  items : List.Forall₂ (fun x y => x.same y = true) (OrBool.schemas a.items)
    (OrBool.schemas b.items)
  prefixItems : List.Forall₂ (fun x y => x.same y = true) a.prefixItems b.prefixItems
  allOf : List.Forall₂ (fun x y => x.same y = true) a.allOf b.allOf
  oneOf : List.Forall₂ (fun x y => x.same y = true) a.oneOf b.oneOf
  anyOf : List.Forall₂ (fun x y => x.same y = true) a.anyOf b.anyOf
  negated : List.Forall₂ (fun x y => x.same y = true) a.not.toList b.not.toList

theorem same_iff (a b : Schema) : a.same b = true ↔ SameParts a b := by
  have parts : a.same b = true ↔ ((((((((sameScalars a b = true
      ∧ a.properties.length = b.properties.length)
      ∧ sameProperties a.properties b.properties = true)
      ∧ sameOrBool a.additionalProperties b.additionalProperties = true)
      ∧ sameOrBool a.items b.items = true)
      ∧ sameList a.prefixItems b.prefixItems = true)
      ∧ sameList a.allOf b.allOf = true)
      ∧ sameList a.oneOf b.oneOf = true)
      ∧ sameList a.anyOf b.anyOf = true)
      ∧ sameNegated a.not b.not = true := by
    cases a
    simp only [same, Bool.and_eq_true, beq_iff_eq]
  rw [parts, same_scalars_iff, same_properties_iff, same_or_bool_iff, same_or_bool_iff,
    same_list_iff, same_list_iff, same_list_iff, same_list_iff, same_negated_iff]
  constructor
  · rintro ⟨⟨⟨⟨⟨⟨⟨⟨⟨⟨plain, values⟩, sizes⟩, properties⟩, additionalFlag, additional⟩, itemsFlag,
      items⟩, prefixItems⟩, allOf⟩, oneOf⟩, anyOf⟩, negated⟩
    exact ⟨plain, values, ⟨sizes, properties⟩, additionalFlag, additional, itemsFlag, items,
      prefixItems, allOf, oneOf, anyOf, negated⟩
  · intro h
    exact ⟨⟨⟨⟨⟨⟨⟨⟨⟨⟨h.plain, h.values⟩, h.properties.1⟩, h.properties.2⟩, h.additionalFlag,
      h.additional⟩, h.itemsFlag, h.items⟩, h.prefixItems⟩, h.allOf⟩, h.oneOf⟩, h.anyOf⟩, h.negated⟩

variable (a b c : Schema)

theorem keyed_default (keyed : a.valuesKeyed = true) (v : Value) (present : v ∈ a.default) :
    v.isKeyed = true := by
  simp only [valuesKeyed, Bool.and_eq_true, Option.all_eq_true] at keyed
  exact keyed.1.1.1.1 v present

theorem keyed_literal (keyed : a.valuesKeyed = true) (values : List Value)
    (present : values ∈ a.enumValues) : (Value.arr values).isKeyed = true := by
  simp only [valuesKeyed, Bool.and_eq_true, List.all_eq_true] at keyed
  rw [Value.keyed_arr_iff]
  exact fun v member => keyed.1.1.1.2 v (by rwa [Option.mem_def.mp present])

theorem keyed_const (keyed : a.valuesKeyed = true) (v : Value) (present : v ∈ a.constValue) :
    v.isKeyed = true := by
  simp only [valuesKeyed, Bool.and_eq_true, Option.all_eq_true] at keyed
  exact keyed.1.1.2 v present

theorem keyed_extra (keyed : a.valuesKeyed = true) : (Value.obj a.extra).isKeyed = true := by
  simp only [valuesKeyed, Bool.and_eq_true] at keyed
  exact keyed.1.2

theorem keyed_mapping (keyed : a.valuesKeyed = true) (d : Discriminator)
    (present : d ∈ a.discriminator) : (Assoc.keys d.mapping).Nodup := by
  simp only [valuesKeyed, Bool.and_eq_true, Option.all_eq_true, decide_eq_true_iff] at keyed
  exact keyed.2 d present

theorem same_values_refl (keyed : a.valuesKeyed = true) : SameValues a a where
  default := same_option_refl _ _ fun v present => v.same_refl (keyed_default a keyed v present)
  enumValues := same_option_refl _ _ fun values present =>
    (Value.arr values).same_refl (keyed_literal a keyed values present)
  constValue := same_option_refl _ _ fun v present => v.same_refl (keyed_const a keyed v present)
  minimum := same_option_refl _ _ fun n _ => n.same_refl
  maximum := same_option_refl _ _ fun n _ => n.same_refl
  exclusiveMinimum := same_option_refl _ _ fun bound _ => same_bound_refl bound
  exclusiveMaximum := same_option_refl _ _ fun bound _ => same_bound_refl bound
  multipleOf := same_option_refl _ _ fun n _ => n.same_refl
  discriminator := same_option_refl _ _ fun d present =>
    d.same_refl (keyed_mapping a keyed d present)
  extra := Value.same_refl _ (keyed_extra a keyed)

theorem same_values_symm (aKeyed : a.valuesKeyed = true) (bKeyed : b.valuesKeyed = true)
    (equal : SameValues a b) : SameValues b a where
  default := same_option_symm _ _ _ (fun v inA w inB =>
    v.same_symm w (keyed_default a aKeyed v inA) (keyed_default b bKeyed w inB)) equal.default
  enumValues := same_option_symm _ _ _ (fun xs inA ys inB =>
    (Value.arr xs).same_symm (.arr ys) (keyed_literal a aKeyed xs inA)
      (keyed_literal b bKeyed ys inB)) equal.enumValues
  constValue := same_option_symm _ _ _ (fun v inA w inB =>
    v.same_symm w (keyed_const a aKeyed v inA) (keyed_const b bKeyed w inB)) equal.constValue
  minimum := same_option_symm _ _ _ (fun n _ m _ => n.same_symm m) equal.minimum
  maximum := same_option_symm _ _ _ (fun n _ m _ => n.same_symm m) equal.maximum
  exclusiveMinimum := same_option_symm _ _ _ (fun n _ m _ => same_bound_symm n m)
    equal.exclusiveMinimum
  exclusiveMaximum := same_option_symm _ _ _ (fun n _ m _ => same_bound_symm n m)
    equal.exclusiveMaximum
  multipleOf := same_option_symm _ _ _ (fun n _ m _ => n.same_symm m) equal.multipleOf
  discriminator := same_option_symm _ _ _ (fun d inA e inB =>
    d.same_symm e (keyed_mapping a aKeyed d inA) (keyed_mapping b bKeyed e inB))
    equal.discriminator
  extra := Value.same_symm _ _ (keyed_extra a aKeyed) (keyed_extra b bKeyed) equal.extra

theorem same_values_trans (first : SameValues a b) (second : SameValues b c) : SameValues a c where
  default := same_option_trans _ _ _ _ (fun u _ v _ w _ => u.same_trans v w)
    first.default second.default
  enumValues := same_option_trans _ _ _ _ (fun xs _ ys _ zs _ =>
    (Value.arr xs).same_trans (.arr ys) (.arr zs)) first.enumValues second.enumValues
  constValue := same_option_trans _ _ _ _ (fun u _ v _ w _ => u.same_trans v w)
    first.constValue second.constValue
  minimum := same_option_trans _ _ _ _ (fun n _ m _ k _ => n.same_trans m k)
    first.minimum second.minimum
  maximum := same_option_trans _ _ _ _ (fun n _ m _ k _ => n.same_trans m k)
    first.maximum second.maximum
  exclusiveMinimum := same_option_trans _ _ _ _ (fun n _ m _ k _ => same_bound_trans n m k)
    first.exclusiveMinimum second.exclusiveMinimum
  exclusiveMaximum := same_option_trans _ _ _ _ (fun n _ m _ k _ => same_bound_trans n m k)
    first.exclusiveMaximum second.exclusiveMaximum
  multipleOf := same_option_trans _ _ _ _ (fun n _ m _ k _ => n.same_trans m k)
    first.multipleOf second.multipleOf
  discriminator := same_option_trans _ _ _ _ (fun d _ e _ f _ => d.same_trans e f)
    first.discriminator second.discriminator
  extra := Value.same_trans _ _ _ first.extra second.extra

theorem same_refl (keyed : a.isKeyed = true) : a.same a = true := by
  induction a using child_induction with
  | step a ih =>
      obtain ⟨values, distinct, children⟩ := (keyed_iff a).mp keyed
      have child : ∀ s ∈ a.children, s.same s = true := fun s member =>
        ih s member (children s member)
      simp only [Schema.children, List.forall_mem_append] at child
      obtain ⟨⟨⟨⟨⟨⟨⟨properties, additional⟩, items⟩, prefixItems⟩, allOf⟩, oneOf⟩, anyOf⟩, negated⟩ :=
        child
      rw [same_iff]
      exact {
        plain := rfl
        values := same_values_refl a values
        properties := Assoc.matches_refl _ a.properties distinct fun property member =>
          properties property.2 (List.mem_map_of_mem member)
        additionalFlag := rfl
        additional := List.forall₂_same.mpr additional
        itemsFlag := rfl
        items := List.forall₂_same.mpr items
        prefixItems := List.forall₂_same.mpr prefixItems
        allOf := List.forall₂_same.mpr allOf
        oneOf := List.forall₂_same.mpr oneOf
        anyOf := List.forall₂_same.mpr anyOf
        negated := List.forall₂_same.mpr negated }

theorem same_symm (aKeyed : a.isKeyed = true) (bKeyed : b.isKeyed = true)
    (equal : a.same b = true) : b.same a = true := by
  induction a using child_induction generalizing b with
  | step a ih =>
      obtain ⟨aValues, aDistinct, aChildren⟩ := (keyed_iff a).mp aKeyed
      obtain ⟨bValues, bDistinct, bChildren⟩ := (keyed_iff b).mp bKeyed
      have child : ∀ s ∈ a.children, ∀ t ∈ b.children, s.same t = true → t.same s = true :=
        fun s inA t inB => ih s inA t (aChildren s inA) (bChildren t inB)
      have lists : ∀ xs ys : List Schema, xs ⊆ a.children → ys ⊆ b.children →
          List.Forall₂ (fun x y => x.same y = true) xs ys →
          List.Forall₂ (fun x y => x.same y = true) ys xs := fun xs ys inA inB matched =>
        Assoc.items_symm _ _ xs ys matched fun x member y partner =>
          child x (inA member) y (inB partner)
      rw [same_iff] at equal ⊢
      exact {
        plain := equal.plain.symm
        values := same_values_symm a b aValues bValues equal.values
        properties := Assoc.matches_symm _ _ _ _ aDistinct bDistinct (fun x inA y inB =>
          child x.2 (child_of_property a x inA) y.2 (child_of_property b y inB)) equal.properties
        additionalFlag := equal.additionalFlag.symm
        additional := lists _ _ (child_of_additional a) (child_of_additional b) equal.additional
        itemsFlag := equal.itemsFlag.symm
        items := lists _ _ (child_of_items a) (child_of_items b) equal.items
        prefixItems := lists _ _ (child_of_tuple a) (child_of_tuple b) equal.prefixItems
        allOf := lists _ _ (child_of_all a) (child_of_all b) equal.allOf
        oneOf := lists _ _ (child_of_one a) (child_of_one b) equal.oneOf
        anyOf := lists _ _ (child_of_any a) (child_of_any b) equal.anyOf
        negated := lists _ _ (child_of_not a) (child_of_not b) equal.negated }

theorem same_trans (first : a.same b = true) (second : b.same c = true) : a.same c = true := by
  induction a using child_induction generalizing b c with
  | step a ih =>
      have lists : ∀ xs ys zs : List Schema, xs ⊆ a.children →
          List.Forall₂ (fun x y => x.same y = true) xs ys →
          List.Forall₂ (fun x y => x.same y = true) ys zs →
          List.Forall₂ (fun x y => x.same y = true) xs zs := fun xs ys zs inA left right =>
        Assoc.items_trans _ _ _ xs ys zs left right fun x member y _ z _ =>
          ih x (inA member) y z
      rw [same_iff] at first second ⊢
      exact {
        plain := first.plain.trans second.plain
        values := same_values_trans a b c first.values second.values
        properties := Assoc.matches_trans _ _ _ _ _ _ (fun x inA y _ z _ =>
          ih x.2 (child_of_property a x inA) y.2 z.2) first.properties second.properties
        additionalFlag := first.additionalFlag.trans second.additionalFlag
        additional := lists _ _ _ (child_of_additional a) first.additional second.additional
        itemsFlag := first.itemsFlag.trans second.itemsFlag
        items := lists _ _ _ (child_of_items a) first.items second.items
        prefixItems := lists _ _ _ (child_of_tuple a) first.prefixItems second.prefixItems
        allOf := lists _ _ _ (child_of_all a) first.allOf second.allOf
        oneOf := lists _ _ _ (child_of_one a) first.oneOf second.oneOf
        anyOf := lists _ _ _ (child_of_any a) first.anyOf second.anyOf
        negated := lists _ _ _ (child_of_not a) first.negated second.negated }

end Schema

end OpenApi
