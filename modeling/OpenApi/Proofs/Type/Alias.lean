import OpenApi.Proofs.Type.Related

set_option autoImplicit false

namespace OpenApi

namespace Resolution

variable {α β : Type}

-- Where the first computation answers, the second gives the same answer and leaves the same
-- registry.
def Refines (m m' : Resolution α) : Prop :=
  ∀ r a, answer m r = .ok a → answer m' r = .ok a ∧ after m' r = after m r

theorem refines_refl (m : Resolution α) : Refines m m := fun _ _ found => ⟨found, rfl⟩

theorem refines_throw (e : Error) (m : Resolution α) : Refines (throw e) m :=
  fun _ _ found => by cases found

theorem refines_bind (m m' : Resolution α) (f f' : α → Resolution β) (first : Refines m m')
    (second : ∀ a, Refines (f a) (f' a)) : Refines (m >>= f) (m' >>= f') := by
  intro r b found
  rw [answer_bind] at found
  rw [answer_bind, after_bind, after_bind]
  cases firstFound : answer m r with
  | error e =>
      rw [firstFound] at found
      cases found
  | ok a =>
      rw [firstFound] at found
      obtain ⟨sameAnswer, sameState⟩ := first r a firstFound
      rw [sameAnswer, sameState]
      exact second a (after m r) b found

end Resolution

namespace Catalog

open Resolution

def refining (c : Catalog) : c.Simulation Resolution Resolution where
  Related := Refines
  pure a := refines_refl (pure a)
  bind := refines_bind
  synthesize hint s kind := refines_refl (c.synthesize hint s kind)
  target reference f f' found := by
    cases resolved : c.target reference with
    | error e => exact refines_throw e _
    | ok d => exact found d resolved

section Entering

variable (c : Catalog)

-- A shorter trail and a greater depth only remove reports of cycles.
theorem enter_alias_refines (depth depth' : Nat) (trail trail' : List String)
    (deeper : depth ≤ depth') (fewer : trail' ⊆ trail) (d : Component) :
    Refines (c.enterAlias depth trail d) (c.enterAlias depth' trail' d) := by
  induction depth generalizing depth' trail trail' d with
  | zero => exact refines_throw _ _
  | succ depth ih =>
      obtain ⟨depth', rfl⟩ : ∃ n, depth' = n + 1 := ⟨depth' - 1, by omega⟩
      rw [enterAlias, enterAlias]
      by_cases entered : trail.contains d.name
      · rw [if_pos entered]
        exact refines_throw _ _
      · have absent : ¬ trail'.contains d.name = true := by
          rw [List.contains_iff_mem] at entered ⊢
          exact fun member => entered (fewer member)
        rw [if_neg entered, if_neg absent]
        refine resolve_with_related c (refining c) _ _ d.schema (fun _ d' _ _ _ => ?_) _
        exact ih depth' _ _ (by omega) (List.cons_subset_cons d.name fewer) d'

end Entering

def RefersToAlias (c : Catalog) (s : Schema) (d : Component) : Prop :=
  ∃ reference, s.reference = some reference ∧ c.target reference = .ok d ∧ d.kind = .alias

theorem alias_reference_eq (c : Catalog) (s : Schema) (d : Component)
    (toAlias : c.RefersToAlias s d) (enter : Component → Resolution ResolvedType)
    (hint : Option String) : c.resolveWith enter s hint = s.over <$> enter d := by
  obtain ⟨reference, refers, resolved, isAlias⟩ := toAlias
  rw [resolve_with_eq, bareType, refers]
  dsimp only
  rw [referenceType, resolved, map_eq_pure_bind]
  change (if d.kind.isNamed then pure d.type else enter d) >>= (fun t => pure (s.over t)) = _
  rw [isAlias]
  rfl

theorem resolve_refines (c : Catalog) (s : Schema) (hint : Option String) (depth : Nat)
    (trail : List String) (within : depth ≤ c.components.length) :
    Refines (c.resolveWith (c.enterAlias depth trail) s hint) (c.resolve s hint) :=
  resolve_with_related c (refining c) _ _ s
    (fun _ d _ _ _ => enter_alias_refines c depth _ trail [] within (List.nil_subset trail) d) hint

end Catalog

end OpenApi
