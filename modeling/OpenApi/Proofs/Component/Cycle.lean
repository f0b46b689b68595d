import Mathlib.Data.List.Perm.Subperm
import OpenApi.Proofs.Component.Composition

set_option autoImplicit false

namespace OpenApi

namespace Catalog

open Relation

-- The names are those of different components that lead to this one, and with the depth that is
-- left there are as many as components.
structure Trail (c : Catalog) (Leads : Component → Component → Prop) (trail : List String)
    (depth : Nat) (d : Component) : Prop where
  distinct : trail.Nodup
  leads : ∀ name ∈ trail, ∃ a ∈ c.components, a.name = name ∧ TransGen Leads a d
  long : c.components.length ≤ trail.length + depth

section Trails

variable (c : Catalog) (Leads : Component → Component → Prop) (trail : List String) (depth : Nat)
  (d : Component)

theorem trail_start : c.Trail Leads [] c.components.length d where
  distinct := List.nodup_nil
  leads := List.forall_mem_nil _
  long := by simp

theorem trail_step (b : Component) (member : d ∈ c.components) (fresh : d.name ∉ trail)
    (next : Leads d b) (isTrail : c.Trail Leads trail (depth + 1) d) :
    c.Trail Leads (d.name :: trail) depth b where
  distinct := List.nodup_cons.mpr ⟨fresh, isTrail.distinct⟩
  leads := by
    intro name inTrail
    rcases List.mem_cons.mp inTrail with here | before
    · exact ⟨d, member, here.symm, .single next⟩
    · obtain ⟨a, isComponent, isName, path⟩ := isTrail.leads name before
      exact ⟨a, isComponent, isName, path.tail next⟩
  long := by
    have long := isTrail.long
    simp only [List.length_cons]
    omega

theorem trail_names (isTrail : c.Trail Leads trail depth d) :
    List.Subperm trail (c.components.map (·.name)) := by
  refine List.subperm_of_subset isTrail.distinct fun name inTrail => ?_
  obtain ⟨a, isComponent, isName, _⟩ := isTrail.leads name inTrail
  exact List.mem_map.mpr ⟨a, isComponent, isName⟩

theorem trail_length (isTrail : c.Trail Leads trail depth d) :
    trail.length ≤ c.components.length := by
  simpa using (trail_names c Leads trail depth d isTrail).length_le

theorem trail_full (member : d ∈ c.components) (isTrail : c.Trail Leads trail 0 d) :
    d.name ∈ trail := by
  have all := (trail_names c Leads trail 0 d isTrail).perm_of_length_le (by simpa using isTrail.long)
  exact all.mem_iff.mpr (List.mem_map_of_mem member)

variable (regular : c.Regular)

include regular

theorem trail_cycle (member : d ∈ c.components) (isTrail : c.Trail c.Composes trail depth d)
    (again : d.name ∈ trail) : c.HasCycle d := by
  obtain ⟨a, isComponent, isName, path⟩ := isTrail.leads d.name again
  have foundA := regular.found a isComponent
  rw [isName, regular.found d member] at foundA
  cases foundA
  exact ⟨d, .refl, path⟩

end Trails

theorem composed_mem (c : Catalog) (a b : Component) (composes : c.Composes a b) :
    b ∈ c.components := by
  obtain ⟨reference, _, resolved⟩ := composes
  exact c.target_mem reference b resolved

theorem composed_component (c : Catalog) (a b : Component) (composes : c.Composes a b) :
    c.component b.name = .ok b := by
  obtain ⟨reference, _, resolved⟩ := composes
  rw [component, target_found c reference b resolved]

theorem composable_target (c : Catalog) (composable : c.IsComposable) (d : Component)
    (member : d ∈ c.components) (reference : String) (composed : reference ∈ d.schema.composedFrom)
    (e : Error) : c.target reference ≠ .error e := by
  intro missing
  have resolves := composable d member reference composed
  rw [missing] at resolves
  cases resolves

section Enter

variable (c : Catalog)

theorem enter_ok_no_cycle (depth : Nat) (trail : List String) (cycle : String → Cycle)
    (d : Component) (flat : FlatRecord) (made : c.enterRecord depth trail cycle d = .ok flat) :
    ¬ c.HasCycle d := by
  induction depth generalizing trail cycle d flat with
  | zero => cases made
  | succ depth ih =>
      rw [enterRecord] at made
      split at made
      · cases made
      · obtain ⟨own, flattened, made⟩ := ok_of_bind _ _ _ made
        intro around
        obtain ⟨b, composes, further⟩ := cycle_after c d around
        obtain ⟨reference, composed, resolved⟩ := id composes
        have brought := flatten_brings_in c _ true d.schema own flattened reference composed b resolved
        rcases brought with ⟨all, mixed⟩ | isBase
        · exact ih _ _ b all mixed further
        · rw [isBase] at made
          dsimp only at made
          obtain ⟨b', found, made⟩ := ok_of_bind _ _ _ made
          rw [composed_component c d b composes] at found
          cases found
          obtain ⟨inherited, entered, _⟩ := ok_of_bind _ _ _ made
          exact ih _ _ b inherited entered further

variable (regular : c.Regular) (composable : c.IsComposable)

include regular composable

theorem enter_error_cycle (depth : Nat) (trail : List String) (cycle : String → Cycle)
    (d : Component) (e : Error) (member : d ∈ c.components) (isTrail : c.Trail c.Composes trail depth d)
    (failed : c.enterRecord depth trail cycle d = .error e) :
    c.HasCycle d ∧ ∃ k, e = .circularReference k := by
  induction depth generalizing trail cycle d with
  | zero =>
      cases failed
      exact ⟨trail_cycle c trail 0 d regular member isTrail (trail_full c c.Composes trail d member isTrail),
        _, rfl⟩
  | succ depth ih =>
      rw [enterRecord] at failed
      by_cases again : trail.contains d.name = true
      · rw [if_pos again] at failed
        cases failed
        exact ⟨trail_cycle c trail _ d regular member isTrail (List.contains_iff_mem.mp again),
          _, rfl⟩
      · rw [if_neg again] at failed
        have fresh : d.name ∉ trail := fun inTrail => again (List.contains_iff_mem.mpr inTrail)
        have below : ∀ cycle' b, c.Composes d b →
            c.enterRecord depth (d.name :: trail) cycle' b = .error e →
            c.HasCycle d ∧ ∃ k, e = .circularReference k := by
          intro cycle' b composes failedBelow
          have next := trail_step c c.Composes trail depth d b member fresh composes isTrail
          have found := ih _ cycle' b (composed_mem c d b composes) next failedBelow
          exact ⟨cycle_before c d b composes found.1, found.2⟩
        rcases error_of_bind _ _ _ failed with notFlat | ⟨flat, flattened, failed⟩
        · obtain ⟨reference, composed, missing | ⟨b, resolved, failedBelow⟩⟩ :=
            flatten_fails c _ true d.schema e notFlat
          · exact absurd missing (composable_target c composable d member reference composed e)
          · exact below _ b ⟨reference, composed, resolved⟩ failedBelow
        · cases isBase : flat.base with
          | none =>
              rw [isBase] at failed
              cases failed
          | some base =>
              obtain ⟨reference, composed, b, resolved, isName⟩ :=
                flatten_base_composed c _ true d.schema flat base flattened isBase
              have composes : c.Composes d b := ⟨reference, composed, resolved⟩
              rw [isBase, ← isName] at failed
              dsimp only at failed
              have found := composed_component c d b composes
              rcases error_of_bind _ _ _ failed with missing | ⟨b', found', failed⟩
              · rw [found] at missing
                cases missing
              · rw [found] at found'
                cases found'
                rcases error_of_bind _ _ _ failed with failedBelow | ⟨_, _, made⟩
                · exact below _ b composes failedBelow
                · cases made

end Enter

section Bases

variable (c : Catalog)

theorem own_ok_no_cycle (d : Component) (flat : FlatRecord)
    (made : c.flattenOwn (some d.name) d.schema = .ok flat)
    (base : ∀ b, c.Composes d b → flat.base = some b.name → ¬ c.HasCycle b) : ¬ c.HasCycle d := by
  intro around
  obtain ⟨b, composes, further⟩ := cycle_after c d around
  obtain ⟨reference, composed, resolved⟩ := id composes
  have brought := flatten_brings_in c _ true d.schema flat made reference composed b resolved
  rcases brought with ⟨all, mixed⟩ | isBase
  · exact enter_ok_no_cycle c _ _ _ b all mixed further
  · exact base b composes isBase further

variable (regular : c.Regular)

include regular

theorem component_of_mem (d : Component) (member : d ∈ c.components) :
    c.component d.name = .ok d := by rw [component, regular.found d member]

theorem base_of_eq (d : Component) (member : d ∈ c.components) :
    c.baseOf d.name = (do .ok (← c.flattenOwn (some d.name) d.schema).base) := by
  rw [baseOf, component_of_mem c regular d member]
  rfl

theorem search_ok_no_cycle (depth : Nat) (seen : List String) (d : Component)
    (member : d ∈ c.components) (found : Option Unit)
    (searched : c.searchBases (fun _ => none) depth seen d.name = .ok found) : ¬ c.HasCycle d := by
  induction depth generalizing seen d with
  | zero => cases searched
  | succ depth ih =>
      rw [searchBases] at searched
      split at searched
      · cases searched
      · dsimp only at searched
        obtain ⟨base, isBase, searched⟩ := ok_of_bind _ _ _ searched
        rw [base_of_eq c regular d member] at isBase
        obtain ⟨flat, flattened, isBase⟩ := ok_of_bind _ _ _ isBase
        cases isBase
        refine own_ok_no_cycle c d flat flattened fun b composes isName => ?_
        rw [isName] at searched
        exact ih _ b (composed_mem c d b composes) searched

variable (composable : c.IsComposable)

include composable

theorem own_error_cycle (d : Component) (member : d ∈ c.components) (e : Error)
    (failed : c.flattenOwn (some d.name) d.schema = .error e) :
    c.HasCycle d ∧ ∃ k, e = .circularReference k := by
  obtain ⟨reference, composed, missing | ⟨b, resolved, failedBelow⟩⟩ :=
    flatten_fails c _ true d.schema e failed
  · exact absurd missing (composable_target c composable d member reference composed e)
  · have composes : c.Composes d b := ⟨reference, composed, resolved⟩
    have isTrail : c.Trail c.Composes [d.name] c.components.length b := by
      refine ⟨List.nodup_singleton _, ?_, by simp⟩
      exact List.forall_mem_singleton.mpr ⟨d, member, rfl, .single composes⟩
    have found := enter_error_cycle c regular composable _ _ _ b e (composed_mem c d b composes)
      isTrail failedBelow
    exact ⟨cycle_before c d b composes found.1, found.2⟩

theorem search_error_cycle (depth : Nat) (seen : List String) (d : Component)
    (member : d ∈ c.components) (isTrail : c.Trail c.Composes seen depth d) (e : Error)
    (failed : c.searchBases (fun _ => (none : Option Unit)) depth seen d.name = .error e) :
    c.HasCycle d ∧ ∃ k, e = .circularReference k := by
  induction depth generalizing seen d with
  | zero =>
      cases failed
      exact ⟨trail_cycle c seen 0 d regular member isTrail (trail_full c c.Composes seen d member isTrail),
        _, rfl⟩
  | succ depth ih =>
      rw [searchBases] at failed
      by_cases again : seen.contains d.name = true
      · rw [if_pos again] at failed
        cases failed
        exact ⟨trail_cycle c seen _ d regular member isTrail (List.contains_iff_mem.mp again),
          _, rfl⟩
      · rw [if_neg again] at failed
        have fresh : d.name ∉ seen := fun inSeen => again (List.contains_iff_mem.mpr inSeen)
        rw [base_of_eq c regular d member] at failed
        dsimp only at failed
        rcases error_of_bind _ _ _ failed with noBase | ⟨base, isBase, failed⟩
        · rcases error_of_bind _ _ _ noBase with notFlat | ⟨_, _, made⟩
          · exact own_error_cycle c regular composable d member e notFlat
          · cases made
        · obtain ⟨flat, flattened, isBase⟩ := ok_of_bind _ _ _ isBase
          cases isBase
          cases isName : flat.base with
          | none =>
              rw [isName] at failed
              cases failed
          | some base =>
              obtain ⟨reference, composed, b, resolved, isB⟩ :=
                flatten_base_composed c _ true d.schema flat base flattened isName
              have composes : c.Composes d b := ⟨reference, composed, resolved⟩
              rw [isName, ← isB] at failed
              have next := trail_step c c.Composes seen depth d b member fresh composes isTrail
              have found := ih _ b (composed_mem c d b composes) next failed
              exact ⟨cycle_before c d b composes found.1, found.2⟩

end Bases

section Depth

variable (c : Catalog) (exhausted : Error)

-- As `enterRecord`, but with an error of its own where no depth is left.
def enterRecordWithin : Nat → List String → (String → Cycle) → Component → Except Error FlatRecord
  | 0, _, _, _ => .error exhausted
  | depth + 1, trail, cycle, entered =>
    if trail.contains entered.name then .error (.circularReference (cycle entered.name))
    else do
      let enter := enterRecordWithin depth (entered.name :: trail)
      let flat ← c.flattenWith (enter .composition) true entered.schema
      match flat.base with
      | none => .ok flat
      | some base => do
        let inherited ← enter .inheritance (← c.component base)
        .ok (inherited.overlay flat)

def allPropertiesWithin (depth : Nat) (name : String) : Except Error FlatRecord := do
  c.enterRecordWithin exhausted depth [] .composition (← c.component name)

def flattenOwnWithin (depth : Nat) (name : String) (s : Schema) : Except Error FlatRecord :=
  c.flattenWith (c.enterRecordWithin exhausted depth [name] .composition) true s

def checkBasesWithin (depth : Nat) : Nat → List String → String → Except Error (Option Unit)
  | 0, _, _ => .error exhausted
  | left + 1, seen, name =>
    if seen.contains name then .error (.circularReference (.baseChain name))
    else do
      let found ← c.component name
      let flat ← c.flattenOwnWithin exhausted depth name found.schema
      match flat.base with
      | none => .ok none
      | some base => checkBasesWithin depth left (name :: seen) base

def flattenWithin (depth : Nat) (name : String) (s : Schema) : Except Error FlatRecord := do
  let flat ← c.flattenOwnWithin exhausted depth name s
  match flat.base with
  | none => .ok flat
  | some _ => do
    let _ ← c.checkBasesWithin exhausted depth depth [] name
    .ok flat

theorem base_composed_component (d : Component) (mixin : Component → Except Error FlatRecord)
    (flat : FlatRecord) (base : String) (made : c.flattenWith mixin true d.schema = .ok flat)
    (isBase : flat.base = some base) :
    ∃ b, c.Composes d b ∧ c.component base = .ok b ∧ b.name = base := by
  obtain ⟨reference, composed, b, resolved, isName⟩ :=
    flatten_base_composed c mixin true d.schema flat base made isBase
  have composes : c.Composes d b := ⟨reference, composed, resolved⟩
  exact ⟨b, composes, isName ▸ composed_component c d b composes, isName⟩

theorem enter_within_eq (depth depth' : Nat) (trail : List String) (cycle : String → Cycle)
    (d : Component) (member : d ∈ c.components) (isTrail : c.Trail c.Composes trail depth' d)
    (enough : c.components.length < trail.length + depth) :
    c.enterRecordWithin exhausted depth trail cycle d = c.enterRecord depth' trail cycle d := by
  induction depth generalizing depth' trail cycle d with
  | zero =>
      have short := trail_length c c.Composes trail depth' d isTrail
      omega
  | succ depth ih =>
      by_cases again : trail.contains d.name = true
      · rw [enterRecordWithin, if_pos again]
        cases depth' with
        | zero => rfl
        | succ depth' => rw [enterRecord, if_pos again]
      · have fresh : d.name ∉ trail := fun inTrail => again (List.contains_iff_mem.mpr inTrail)
        cases depth' with
        | zero => exact absurd (trail_full c c.Composes trail d member isTrail) fresh
        | succ depth' =>
            have below : ∀ cycle' b, c.Composes d b →
                c.enterRecordWithin exhausted depth (d.name :: trail) cycle' b
                  = c.enterRecord depth' (d.name :: trail) cycle' b := by
              intro cycle' b composes
              refine ih depth' _ cycle' b (composed_mem c d b composes)
                (trail_step c c.Composes trail depth' d b member fresh composes isTrail) ?_
              simp only [List.length_cons]
              omega
            rw [enterRecordWithin, enterRecord, if_neg again, if_neg again]
            have same := flatten_congr c
              (c.enterRecordWithin exhausted depth (d.name :: trail) .composition) true
              (c.enterRecord depth' (d.name :: trail) .composition) d.schema
              fun reference composed b resolved => below _ b ⟨reference, composed, resolved⟩
            dsimp only
            rw [same]
            refine bind_congr_ok _ _ _ fun flat flattened => ?_
            cases isBase : flat.base with
            | none => rfl
            | some base =>
                obtain ⟨b, composes, found, _⟩ :=
                  base_composed_component c d _ flat base flattened isBase
                dsimp only
                refine bind_congr_ok _ _ _ fun b' found' => ?_
                rw [found] at found'
                cases found'
                rw [below _ b composes]

theorem own_within_eq (depth : Nat) (d : Component) (member : d ∈ c.components)
    (enough : c.components.length < depth) :
    c.flattenOwnWithin exhausted depth d.name d.schema = c.flattenOwn (some d.name) d.schema := by
  refine flatten_congr c _ true _ d.schema fun reference composed b resolved => ?_
  have composes : c.Composes d b := ⟨reference, composed, resolved⟩
  have isTrail : c.Trail c.Composes [d.name] c.components.length b :=
    ⟨List.nodup_singleton _, List.forall_mem_singleton.mpr ⟨d, member, rfl, .single composes⟩,
      by simp⟩
  exact enter_within_eq c exhausted depth _ _ _ b (composed_mem c d b composes) isTrail
    (by simp only [List.length_singleton]; omega)

variable (regular : c.Regular)

include regular

theorem check_within_eq (depth left left' : Nat) (seen : List String) (d : Component)
    (member : d ∈ c.components) (isTrail : c.Trail c.Composes seen left' d)
    (deep : c.components.length < depth) (enough : c.components.length < seen.length + left) :
    c.checkBasesWithin exhausted depth left seen d.name
      = c.searchBases (fun _ => none) left' seen d.name := by
  induction left generalizing left' seen d with
  | zero =>
      have short := trail_length c c.Composes seen left' d isTrail
      omega
  | succ left ih =>
      by_cases again : seen.contains d.name = true
      · rw [checkBasesWithin, if_pos again]
        cases left' with
        | zero => rfl
        | succ left' => rw [searchBases, if_pos again]
      · have fresh : d.name ∉ seen := fun inSeen => again (List.contains_iff_mem.mpr inSeen)
        cases left' with
        | zero => exact absurd (trail_full c c.Composes seen d member isTrail) fresh
        | succ left' =>
            rw [checkBasesWithin, searchBases, if_neg again, if_neg again,
              base_of_eq c regular d member, component_of_mem c regular d member]
            change (c.flattenOwnWithin exhausted depth d.name d.schema >>= _) = _
            rw [own_within_eq c exhausted depth d member deep]
            dsimp only
            rw [bind_assoc]
            refine bind_congr_ok _ _ _ fun flat flattened => ?_
            cases isBase : flat.base with
            | none =>
                change _ = Except.ok none
                rfl
            | some base =>
                obtain ⟨b, composes, _, isName⟩ :=
                  base_composed_component c d _ flat base flattened isBase
                have next := trail_step c c.Composes seen left' d b member fresh composes isTrail
                have rest := ih left' _ b (composed_mem c d b composes) next
                  (by simp only [List.length_cons]; omega)
                rw [isName] at rest
                exact rest

theorem all_properties_within_eq (depth : Nat) (d : Component) (member : d ∈ c.components)
    (deep : c.components.length < depth) :
    c.allPropertiesWithin exhausted depth d.name = c.allProperties d.name := by
  rw [allPropertiesWithin, allProperties, component_of_mem c regular d member]
  exact enter_within_eq c exhausted depth _ [] _ d member (trail_start c c.Composes d) (by simpa using deep)

theorem flatten_within_eq (depth : Nat) (d : Component) (member : d ∈ c.components)
    (deep : c.components.length < depth) :
    c.flattenWithin exhausted depth d.name d.schema = c.flatten (some d.name) d.schema := by
  rw [flattenWithin, flatten, own_within_eq c exhausted depth d member deep]
  refine bind_congr fun flat => ?_
  cases flat.base with
  | none => rfl
  | some base =>
      have same := check_within_eq c exhausted regular depth depth _ [] d member (trail_start c c.Composes d) deep
        (by simpa using deep)
      dsimp only
      rw [same, checkBases, bind_assoc]
      rfl

end Depth

section Exact

variable (c : Catalog) (regular : c.Regular) (composable : c.IsComposable) (d : Component)
  (member : d ∈ c.components)

include regular composable member

theorem all_properties_error (e : Error) (failed : c.allProperties d.name = .error e) :
    c.HasCycle d ∧ ∃ k, e = .circularReference k := by
  rw [allProperties, component_of_mem c regular d member] at failed
  exact enter_error_cycle c regular composable _ [] _ d e member (trail_start c c.Composes d) failed

omit composable in
theorem all_properties_ok (flat : FlatRecord) (made : c.allProperties d.name = .ok flat) :
    ¬ c.HasCycle d := by
  rw [allProperties, component_of_mem c regular d member] at made
  exact enter_ok_no_cycle c _ _ _ d flat made

theorem flatten_error (e : Error) (failed : c.flatten (some d.name) d.schema = .error e) :
    c.HasCycle d ∧ ∃ k, e = .circularReference k := by
  rw [flatten] at failed
  rcases error_of_bind _ _ _ failed with own | ⟨flat, _, failed⟩
  · exact own_error_cycle c regular composable d member e own
  · cases isBase : flat.base with
    | none =>
        rw [isBase] at failed
        cases failed
    | some base =>
        rw [isBase] at failed
        dsimp only at failed
        rw [checkBases] at failed
        rcases error_of_bind _ _ _ failed with failed | ⟨_, _, made⟩
        · rcases error_of_bind _ _ _ failed with search | ⟨_, _, made⟩
          · exact search_error_cycle c regular composable _ [] d member (trail_start c c.Composes d) e search
          · cases made
        · cases made

omit composable in
theorem flatten_ok (flat : FlatRecord) (made : c.flatten (some d.name) d.schema = .ok flat) :
    ¬ c.HasCycle d := by
  rw [flatten] at made
  obtain ⟨own, flattened, made⟩ := ok_of_bind _ _ _ made
  cases isBase : own.base with
  | none => exact own_ok_no_cycle c d own flattened fun b _ isName => by simp [isBase] at isName
  | some base =>
      rw [isBase] at made
      dsimp only at made
      rw [checkBases] at made
      obtain ⟨_, checked, _⟩ := ok_of_bind _ _ _ made
      obtain ⟨found, searched, _⟩ := ok_of_bind _ _ _ checked
      exact search_ok_no_cycle c regular _ [] d member found searched

end Exact

instance (c : Catalog) : Decidable c.IsComposable :=
  inferInstanceAs (Decidable (∀ d ∈ c.components, ∀ reference ∈ d.schema.composedFrom,
    (c.target reference).isOk = true))

-- A diamond, and three records of which the first extends the second, which takes in the third,
-- which extends the first.
def knot : Document where
  version := .v31
  contents := { components := { schemas := [
    ("Top", { properties := [("id", { type := some (.single "string") })] }),
    ("Left", { allOf := [
      { reference := some "#/components/schemas/Top" },
      { properties := [("left", { type := some (.single "string") })] }] }),
    ("Right", { allOf := [
      { reference := some "#/components/schemas/Top" },
      { properties := [("right", { type := some (.single "string") })] }] }),
    ("Bottom", { allOf := [
      { reference := some "#/components/schemas/Left" },
      { allOf := [{ reference := some "#/components/schemas/Right" }] }] }),
    ("First", { allOf := [
      { reference := some "#/components/schemas/Second" },
      { properties := [("first", { type := some (.single "string") })] }] }),
    ("Second", { allOf := [
      { reference := some "#/components/schemas/Top" },
      { reference := some "#/components/schemas/Third" }] }),
    ("Third", { allOf := [
      { reference := some "#/components/schemas/First" },
      { properties := [("third", { type := some (.single "string") })] }] })] } }

/-- Where all references of compositions lead to components, the properties of a component are found
exactly if no cycle of compositions can be reached from it, and so is its flattened record; any failure
reports a cycle. On every document both searches end before the depth that is allowed is used up. -/
theorem composition_cycles_exact (document : Document) (config : Config)
    (keyed : document.isKeyed = true) (d : Component)
    (member : d ∈ (ofDocument document config).components) :
    let c := ofDocument document config
    (c.IsComposable →
        (c.HasCycle d → ∃ k, c.allProperties d.name = .error (.circularReference k))
          ∧ (¬ c.HasCycle d → ∃ flat, c.allProperties d.name = .ok flat)
          ∧ (c.HasCycle d → ∃ k, c.flatten (some d.name) d.schema = .error (.circularReference k))
          ∧ (¬ c.HasCycle d → ∃ flat, c.flatten (some d.name) d.schema = .ok flat))
      ∧ ∀ exhausted depth, c.components.length < depth →
          c.allPropertiesWithin exhausted depth d.name = c.allProperties d.name
            ∧ c.flattenWithin exhausted depth d.name d.schema
                = c.flatten (some d.name) d.schema := by
  intro c
  have regular : c.Regular := regular_of_document document config keyed
  refine ⟨fun composable => ⟨?_, ?_, ?_, ?_⟩, fun exhausted depth deep => ⟨?_, ?_⟩⟩
  · intro cycle
    cases found : c.allProperties d.name with
    | error e =>
        obtain ⟨_, k, rfl⟩ := all_properties_error c regular composable d member e found
        exact ⟨k, rfl⟩
    | ok flat => exact absurd cycle (all_properties_ok c regular d member flat found)
  · intro free
    cases found : c.allProperties d.name with
    | error e => exact absurd (all_properties_error c regular composable d member e found).1 free
    | ok flat => exact ⟨flat, rfl⟩
  · intro cycle
    cases found : c.flatten (some d.name) d.schema with
    | error e =>
        obtain ⟨_, k, rfl⟩ := flatten_error c regular composable d member e found
        exact ⟨k, rfl⟩
    | ok flat => exact absurd cycle (flatten_ok c regular d member flat found)
  · intro free
    cases found : c.flatten (some d.name) d.schema with
    | error e => exact absurd (flatten_error c regular composable d member e found).1 free
    | ok flat => exact ⟨flat, rfl⟩
  · exact all_properties_within_eq c exhausted regular depth d member deep
  · exact flatten_within_eq c exhausted regular depth d member deep

theorem knot_cycles :
    let c := ofDocument knot {}
    let bottom := c.components.get ⟨3, by decide⟩
    let first := c.components.get ⟨4, by decide⟩
    c.IsComposable ∧ c.HasCycle first ∧ ¬ c.HasCycle bottom
      ∧ (∃ k, c.allProperties first.name = .error (.circularReference k))
      ∧ (∃ k, c.flatten (some first.name) first.schema = .error (.circularReference k))
      ∧ ∃ flat, c.flatten (some bottom.name) bottom.schema = .ok flat := by
  intro c bottom first
  have composable : c.IsComposable := by decide
  have cycle : c.HasCycle first := by
    let second := c.components.get ⟨5, by decide⟩
    let third := c.components.get ⟨6, by decide⟩
    have toSecond : c.Composes first second := ⟨"#/components/schemas/Second", by decide, rfl⟩
    have toThird : c.Composes second third := ⟨"#/components/schemas/Third", by decide, rfl⟩
    have toFirst : c.Composes third first := ⟨"#/components/schemas/First", by decide, rfl⟩
    exact ⟨first, .refl, (TransGen.single toSecond).tail toThird |>.tail toFirst⟩
  have free : ¬ c.HasCycle bottom :=
    all_properties_ok c (regular_of_document knot {} (by decide)) bottom (List.get_mem _ _) _ rfl
  have atFirst := (composition_cycles_exact knot {} (by decide) first (List.get_mem _ _)).1 composable
  have atBottom := (composition_cycles_exact knot {} (by decide) bottom (List.get_mem _ _)).1 composable
  exact ⟨composable, cycle, free, atFirst.1 cycle, atFirst.2.2.1 cycle, atBottom.2.2.2 free⟩

end Catalog

end OpenApi
