import OpenApi.Proofs.Component.Base
import OpenApi.Proofs.Component.Property

set_option autoImplicit false

namespace OpenApi

namespace FlatRecord

theorem add_names_eq (names more : List String) (distinct : more.Nodup) :
    addNames names more = names ++ more.filter fun name => !names.contains name := by
  induction more generalizing names with
  | nil => simp [addNames]
  | cons name rest ih =>
      obtain ⟨absent, restDistinct⟩ := List.nodup_cons.mp distinct
      rw [addNames, ih _ restDistinct, List.filter_cons]
      by_cases present : names.contains name = true
      · simp only [present, if_true, Bool.not_true, Bool.false_eq_true, if_false]
      · have others : rest.filter (fun other => !(names ++ [name]).contains other)
            = rest.filter fun other => !names.contains other := by
          refine List.filter_congr fun other member => ?_
          have different : other ≠ name := fun same => absent (same ▸ member)
          simp [different]
        simp only [present, Bool.false_eq_true, if_false, Bool.not_false, if_true]
        rw [others, List.append_assoc, List.singleton_append]

theorem add_names_distinct (names more : List String) (distinct : names.Nodup) :
    (addNames names more).Nodup := by
  induction more generalizing names with
  | nil => exact distinct
  | cons name rest ih =>
      rw [addNames]
      exact ih _ (added_distinct names name distinct)

theorem overlay_names (flat other : FlatRecord) : Assoc.keys (flat.overlay other).properties
    = addNames (Assoc.keys flat.properties) (Assoc.keys other.properties) := by
  have each (more entries : List (String × Schema)) :
      Assoc.keys (Assoc.putAll entries more) = addNames (Assoc.keys entries) (Assoc.keys more) := by
    induction more generalizing entries with
    | nil => rfl
    | cons first rest ih =>
        have step := ih (Assoc.put entries first.1 first.2)
        rw [Assoc.keys_put] at step
        exact step
  exact each other.properties flat.properties

structure Distinct (flat : FlatRecord) : Prop where
  properties : (Assoc.keys flat.properties).Nodup
  required : flat.required.Nodup

theorem overlay_distinct (flat other : FlatRecord) (distinct : flat.Distinct) :
    (flat.overlay other).Distinct where
  properties := by
    rw [overlay_names]
    exact add_names_distinct _ _ distinct.properties
  required := add_names_distinct flat.required other.required distinct.required

structure Extends (inherited flat all : FlatRecord) : Prop where
  base : all.base = none
  distinct : (Assoc.keys all.properties).Nodup
  names : Assoc.keys all.properties = Assoc.keys inherited.properties
    ++ (Assoc.keys flat.properties).filter fun name =>
      !(Assoc.keys inherited.properties).contains name
  schemas : ∀ name, all.properties.lookup name
    = (flat.properties.lookup name).or (inherited.properties.lookup name)
  required : all.required = inherited.required
    ++ flat.required.filter fun name => !inherited.required.contains name
  additional : all.additionalProperties
    = flat.additionalProperties.or inherited.additionalProperties

theorem overlay_extends (inherited flat : FlatRecord) (free : inherited.base = none)
    (distinct : inherited.Distinct) (flatDistinct : flat.Distinct) :
    inherited.Extends flat (inherited.overlay flat) where
  base := free
  distinct := (inherited.overlay_distinct flat distinct).properties
  names := by rw [overlay_names, add_names_eq _ _ flatDistinct.properties]
  schemas := Assoc.lookup_put_all inherited.properties flat.properties flatDistinct.properties
  required := add_names_eq inherited.required flat.required flatDistinct.required
  additional := Option.orElse_eq_or

end FlatRecord

namespace Catalog

variable (c : Catalog)

section Flatten

variable (mixin : Component → Except Error FlatRecord) (mayInherit : Bool)

theorem members_distinct (members : List Schema) (flat flat' : FlatRecord) (distinct : flat.Distinct)
    (made : c.flattenMembers mixin mayInherit flat members = .ok flat') : flat'.Distinct := by
  induction members generalizing flat with
  | nil =>
      cases made
      exact distinct
  | cons m rest ih =>
      rw [flatten_members_cons] at made
      obtain ⟨next, taken, made⟩ := ok_of_bind _ _ _ made
      refine ih next ?_ made
      have step := member_taken_in c mixin mayInherit flat next m taken
      cases step with
      | null => exact distinct
      | inline all => exact flat.overlay_distinct all distinct
      | base => exact ⟨distinct.properties, distinct.required⟩
      | mixin _ _ all => exact flat.overlay_distinct all distinct

theorem flatten_distinct (s : Schema) (flat : FlatRecord)
    (made : c.flattenWith mixin mayInherit s = .ok flat) : flat.Distinct := by
  rw [flatten_with_eq] at made
  obtain ⟨members, composed, made⟩ := ok_of_bind _ _ _ made
  cases made
  refine members.overlay_distinct _ ?_
  exact members_distinct c mixin mayInherit s.allOf {} members ⟨List.nodup_nil, List.nodup_nil⟩
    composed

variable (mixin' : Component → Except Error FlatRecord)
  (again : ∀ d all, mixin d = .ok all → mixin' d = .ok all)

include again

theorem member_again (flat next : FlatRecord) (m : Schema)
    (inline : ∀ all, c.flattenWith mixin false m = .ok all → c.flattenWith mixin' false m = .ok all)
    (made : flattenMember c mixin mayInherit flat m = .ok next) :
    flattenMember c mixin' mayInherit flat m = .ok next := by
  have step := member_taken_in c mixin mayInherit flat next m made
  rw [flattenMember]
  cases step with
  | null isNull => rw [if_pos isNull]
  | inline all present isInline flattened =>
      simp only [present, Bool.false_eq_true, if_false, isInline, inline all flattened]
      rfl
  | base reference d present refers resolved inherits free recordLike =>
      simp only [present, Bool.false_eq_true, if_false, refers, resolved]
      exact if_pos (by simp [inherits, free, recordLike])
  | mixin reference d all present refers resolved mixed other =>
      simp only [present, Bool.false_eq_true, if_false, refers, resolved]
      refine (if_neg ?_).trans ?_
      · simpa [and_assoc] using other
      · rw [again d all mixed]
        rfl

theorem flatten_again (s : Schema) (flat : FlatRecord)
    (made : c.flattenWith mixin mayInherit s = .ok flat) :
    c.flattenWith mixin' mayInherit s = .ok flat := by
  induction s using Schema.child_induction generalizing mayInherit flat with
  | step s ih =>
      have members : ∀ (part : List Schema) (flat flat' : FlatRecord), part ⊆ s.allOf →
          c.flattenMembers mixin mayInherit flat part = .ok flat' →
          c.flattenMembers mixin' mayInherit flat part = .ok flat' := by
        intro part
        induction part with
        | nil => exact fun _ _ _ made => made
        | cons m rest ihRest =>
            intro flat flat' within made
            rw [List.cons_subset] at within
            rw [flatten_members_cons] at made ⊢
            obtain ⟨next, taken, made⟩ := ok_of_bind _ _ _ made
            rw [member_again c mixin mayInherit mixin' again flat next m
              (ih m (s.child_of_all m within.1) false) taken]
            exact ihRest next flat' within.2 made
      rw [flatten_with_eq] at made ⊢
      obtain ⟨composed, taken, made⟩ := ok_of_bind _ _ _ made
      rw [members s.allOf {} composed (List.Subset.refl _) taken]
      exact made

end Flatten

theorem enter_cases (depth : Nat) (trail : List String) (cycle : String → Cycle) (d : Component)
    (all : FlatRecord) (made : c.enterRecord (depth + 1) trail cycle d = .ok all) :
    d.name ∉ trail ∧ ∃ flat,
      c.flattenWith (c.enterRecord depth (d.name :: trail) .composition) true d.schema = .ok flat
        ∧ (flat.base = none ∧ all = flat ∨ ∃ base b inherited, flat.base = some base
          ∧ c.component base = .ok b
          ∧ c.enterRecord depth (d.name :: trail) .inheritance b = .ok inherited
          ∧ all = inherited.overlay flat) := by
  rw [enterRecord] at made
  split at made
  · cases made
  · rename_i absent
    refine ⟨fun present => absent (List.contains_iff_mem.mpr present), ?_⟩
    obtain ⟨flat, flattened, made⟩ := ok_of_bind _ _ _ made
    refine ⟨flat, flattened, ?_⟩
    cases isBase : flat.base with
    | none =>
        rw [isBase] at made
        cases made
        exact .inl ⟨rfl, rfl⟩
    | some base =>
        rw [isBase] at made
        obtain ⟨b, found, made⟩ := ok_of_bind _ _ _ made
        obtain ⟨inherited, entered, made⟩ := ok_of_bind _ _ _ made
        cases made
        exact .inr ⟨base, b, inherited, rfl, found, entered, rfl⟩

theorem enter_sooner (depth depth' : Nat) (trail trail' : List String) (cycle cycle' : String → Cycle)
    (d : Component) (all : FlatRecord) (deep : depth ≤ depth') (within : trail' ⊆ trail)
    (made : c.enterRecord depth trail cycle d = .ok all) :
    c.enterRecord depth' trail' cycle' d = .ok all := by
  induction depth generalizing depth' trail trail' cycle cycle' d all with
  | zero => cases made
  | succ depth ih =>
      obtain ⟨depth', rfl⟩ : ∃ n, depth' = n + 1 := ⟨depth' - 1, by omega⟩
      obtain ⟨absent, flat, flattened, parts⟩ := enter_cases c depth trail cycle d all made
      have below (cycle cycle' : String → Cycle) (b : Component) (all : FlatRecord) :=
        ih depth' (d.name :: trail) (d.name :: trail') cycle cycle' b all (by omega)
          (List.cons_subset_cons _ within)
      have fresh : ¬ trail'.contains d.name = true := fun present =>
        absent (within (List.contains_iff_mem.mp present))
      rw [enterRecord, if_neg fresh]
      dsimp only
      rw [flatten_again c _ true _ (below .composition .composition) d.schema flat flattened]
      rcases parts with ⟨isBase, rfl⟩ | ⟨base, b, inherited, isBase, found, entered, rfl⟩
      · simp only [bind, Except.bind, isBase]
      · simp only [bind, Except.bind, isBase, found, below _ .inheritance b inherited entered]

theorem enter_distinct (depth : Nat) (trail : List String) (cycle : String → Cycle) (d : Component)
    (all : FlatRecord) (made : c.enterRecord depth trail cycle d = .ok all) :
    all.base = none ∧ all.Distinct := by
  induction depth generalizing trail cycle d all with
  | zero => cases made
  | succ depth ih =>
      obtain ⟨_, flat, flattened, parts⟩ := enter_cases c depth trail cycle d all made
      rcases parts with ⟨isBase, rfl⟩ | ⟨base, b, inherited, _, _, entered, rfl⟩
      · exact ⟨isBase, flatten_distinct c _ true d.schema all flattened⟩
      · obtain ⟨free, distinct⟩ := ih _ _ b inherited entered
        exact ⟨free, inherited.overlay_distinct flat distinct⟩

theorem base_of_again (depth : Nat) (trail : List String) (d : Component) (flat : FlatRecord)
    (bounded : depth ≤ c.components.length) (found : c.component d.name = .ok d)
    (flattened : c.flattenWith (c.enterRecord depth (d.name :: trail) .composition) true d.schema
      = .ok flat) : c.flattenOwn (some d.name) d.schema = .ok flat
        ∧ c.baseOf d.name = .ok flat.base := by
  have own : c.flattenOwn (some d.name) d.schema = .ok flat :=
    flatten_again c _ true _ (fun b all entered => enter_sooner c depth _ _ _ .composition _ b all
      bounded (by simp) entered) d.schema flat flattened
  refine ⟨own, ?_⟩
  rw [baseOf, found]
  simp only [bind, Except.bind, own]

theorem component_own_name (name : String) (d : Component) (found : c.component name = .ok d) :
    d.name = name ∧ c.component d.name = .ok d := by
  have isName := (component_mem c name d (component_of_ok c name d found)).2
  exact ⟨isName, isName ▸ found⟩

theorem search_of_enter (depth depth' : Nat) (trail seen : List String) (cycle : String → Cycle)
    (d : Component) (all : FlatRecord) (bounded : depth ≤ c.components.length)
    (deep : depth ≤ depth') (within : seen ⊆ trail) (found : c.component d.name = .ok d)
    (made : c.enterRecord depth trail cycle d = .ok all) :
    c.searchBases (fun _ => (none : Option Unit)) depth' seen d.name = .ok none := by
  induction depth generalizing depth' trail seen cycle d all with
  | zero => cases made
  | succ depth ih =>
      obtain ⟨depth', rfl⟩ : ∃ n, depth' = n + 1 := ⟨depth' - 1, by omega⟩
      obtain ⟨absent, flat, flattened, parts⟩ := enter_cases c depth trail cycle d all made
      have fresh : ¬ seen.contains d.name = true := fun present =>
        absent (within (List.contains_iff_mem.mp present))
      obtain ⟨_, isBaseOf⟩ := base_of_again c depth trail d flat (by omega) found flattened
      rw [searchBases, if_neg fresh, isBaseOf]
      rcases parts with ⟨isBase, -⟩ | ⟨base, b, inherited, isBase, isComponent, entered, -⟩
      · simp only [bind, Except.bind, isBase]
      · obtain ⟨isName, foundBase⟩ := component_own_name c base b isComponent
        have rest := ih depth' (d.name :: trail) (d.name :: seen) .inheritance b inherited (by omega)
          (by omega) (List.cons_subset_cons _ within) foundBase entered
        rw [isName] at rest
        simp only [bind, Except.bind, isBase, rest]

/-- All properties of a component are its flattened record, if that has no base. Otherwise all
properties of the base are found too, and those of the component are the ones of the base with the
flattened record laid over them: first the names of the base in their order, then the new ones, with
the schema of the record for a name that both have; the required names of the base, then the new
ones; and the additional properties of the record if it says anything about them. -/
theorem all_properties_layered (name : String) (all : FlatRecord)
    (made : c.allProperties name = .ok all) :
    ∃ d flat, c.component? name = some d ∧ c.flatten (some name) d.schema = .ok flat
      ∧ (flat.base = none → all = flat)
      ∧ ∀ base, flat.base = some base → ∃ inherited, c.allProperties base = .ok inherited
          ∧ inherited.Extends flat all := by
  obtain ⟨d, isComponent, entered⟩ := ok_of_bind _ _ _ made
  obtain ⟨rfl, found⟩ := component_own_name c name d isComponent
  have searched := search_of_enter c _ _ [] [] .composition d all (Nat.le_refl _) (Nat.le_refl _)
    (List.Subset.refl _) found entered
  obtain ⟨depth, count⟩ : ∃ n, c.components.length = n + 1 :=
    ⟨_, (Nat.succ_pred_eq_of_pos (List.length_pos_of_mem (component_mem c _ d
      (component_of_ok c _ d found)).1)).symm⟩
  rw [count] at entered
  obtain ⟨_, flat, flattened, parts⟩ := enter_cases c depth [] .composition d all entered
  obtain ⟨own, _⟩ := base_of_again c depth [] d flat (by omega) found flattened
  have checked : c.checkBases d.name = .ok () := by
    rw [checkBases, searched]
    rfl
  have whole : c.flatten (some d.name) d.schema = .ok flat := by
    rw [flatten, own]
    cases isBase : flat.base with
    | none => simp only [bind, Except.bind, isBase]
    | some base => simp only [bind, Except.bind, isBase, checked]
  refine ⟨d, flat, component_of_ok c _ d found, whole, fun free => ?_, fun base isBase => ?_⟩
  · rcases parts with ⟨-, same⟩ | ⟨base, b, inherited, isBase, -⟩
    · exact same
    · exact absurd free (by simp [isBase])
  · rcases parts with ⟨free, -⟩ | ⟨base', b, inherited, isBase', isComponent, below, rfl⟩
    · exact absurd free (by simp [isBase])
    · obtain rfl : base' = base := by simpa [isBase'] using isBase
      obtain ⟨free, distinct⟩ := enter_distinct c _ _ _ b inherited below
      refine ⟨inherited, ?_, inherited.overlay_extends flat free distinct
        (flatten_distinct c _ true d.schema flat flattened)⟩
      rw [allProperties, isComponent]
      exact enter_sooner c depth _ _ [] .inheritance .composition b inherited (by omega)
        (List.nil_subset _) below

def datedCat : Document where
  version := .v31
  contents := { components := { schemas := [
    ("Pet", {
      required := ["kind"]
      properties := [
        ("kind", { type := some (.single "string") }), ("name", { type := some (.single "string") })]
      additionalProperties := some (.bool false) }),
    ("Dated", { properties := [("created", { format := some "date-time" })] }),
    ("Cat", { allOf := [
      { reference := some "#/components/schemas/Pet" },
      { reference := some "#/components/schemas/Dated" },
      { required := ["lives", "kind"]
        properties := [
          ("lives", { type := some (.single "integer") }),
          ("name", { minLength := some 1 })] }] })] } }

theorem dated_cat_layered :
    let c := ofDocument datedCat {}
    ∃ all inherited flat, c.allProperties "Cat" = .ok all ∧ c.allProperties "Pet" = .ok inherited
      ∧ flat.base = some "Pet" ∧ inherited.Extends flat all
      ∧ Assoc.keys all.properties = ["kind", "name", "created", "lives"]
      ∧ all.required = ["kind", "lives"] := by
  intro c
  obtain ⟨all, made, names, required⟩ : ∃ all, c.allProperties "Cat" = .ok all
      ∧ Assoc.keys all.properties = ["kind", "name", "created", "lives"]
      ∧ all.required = ["kind", "lives"] := ⟨_, rfl, by decide, by decide⟩
  obtain ⟨d, flat, found, flattened, _, layered⟩ := all_properties_layered c "Cat" all made
  have isBase : flat.base = some "Pet" := by
    have first := flatten_first_base c (some "Cat") d.schema flat flattened
    cases found
    exact first
  obtain ⟨inherited, madeBase, holds⟩ := layered "Pet" isBase
  exact ⟨all, inherited, flat, made, madeBase, isBase, holds, names, required⟩

end Catalog

end OpenApi
