import OpenApi.Proofs.Component.Catalog
import OpenApi.Proofs.Decode.Basic

set_option autoImplicit false

namespace OpenApi

def FlatRecord.HasBase (c : Catalog) (flat : FlatRecord) : Prop :=
  ∀ base ∈ flat.base, ∃ d, c.component? base = some d ∧ d.kind.isRecordLike = true

theorem FlatRecord.overlay_has_base (c : Catalog) (flat other : FlatRecord)
    (based : flat.HasBase c) : (flat.overlay other).HasBase c := based

namespace Catalog

variable (c : Catalog)

theorem target_found (reference : String) (d : Component) (resolved : c.target reference = .ok d) :
    c.component? d.name = some d := by
  rw [target] at resolved
  split at resolved
  · rename_i found present
    obtain rfl := Except.ok.inj resolved
    obtain ⟨name, _, isComponent⟩ := Option.bind_eq_some_iff.mp present
    rw [(component_mem c name _ isComponent).2]
    exact isComponent
  · cases resolved

section Flatten

variable (mixin : Component → Except Error FlatRecord) (mayInherit : Bool)

theorem flatten_members_base (members : List Schema) (flat flat' : FlatRecord)
    (start : flat.HasBase c) (made : c.flattenMembers mixin mayInherit flat members = .ok flat') :
    flat'.HasBase c := by
  induction members generalizing flat with
  | nil =>
      obtain rfl := Except.ok.inj made
      exact start
  | cons m rest ih =>
      rw [flattenMembers] at made
      split at made
      · exact ih flat start made
      · split at made
        · obtain ⟨inline, _, remaining⟩ := ok_of_bind _ _ _ made
          exact ih _ (flat.overlay_has_base c inline start) remaining
        · obtain ⟨d, resolved, remaining⟩ := ok_of_bind _ _ _ made
          split at remaining
          · rename_i inherits
            refine ih _ ?_ remaining
            intro base present
            obtain rfl := Option.some.inj present
            simp only [Bool.and_eq_true] at inherits
            exact ⟨d, target_found c _ d resolved, inherits.2⟩
          · obtain ⟨all, _, remaining⟩ := ok_of_bind _ _ _ remaining
            exact ih _ (flat.overlay_has_base c all start) remaining

theorem flatten_with_base (s : Schema) (flat : FlatRecord)
    (made : c.flattenWith mixin mayInherit s = .ok flat) : flat.HasBase c := by
  cases s
  rw [flattenWith] at made
  obtain ⟨members, composed, remaining⟩ := ok_of_bind _ _ _ made
  obtain rfl := Except.ok.inj remaining
  exact flatten_members_base c mixin mayInherit _ {} members (fun _ absent => by cases absent)
    composed

end Flatten

theorem flatten_base (name : Option String) (s : Schema) (flat : FlatRecord)
    (made : c.flatten name s = .ok flat) : flat.HasBase c := by
  rw [flatten] at made
  obtain ⟨own, composed, remaining⟩ := ok_of_bind _ _ _ made
  have base := flatten_with_base c _ true s own composed
  split at remaining
  · obtain ⟨_, _, remaining⟩ := ok_of_bind _ _ _ remaining
    obtain rfl := Except.ok.inj remaining
    exact base
  · obtain rfl := Except.ok.inj remaining
    exact base

theorem search_bases_found {α : Type} (found? : String → Option α) (depth : Nat)
    (seen : List String) (name : String) (a : α)
    (found : c.searchBases found? depth seen name = .ok (some a)) : ∃ n, found? n = some a := by
  induction depth generalizing seen name with
  | zero => cases found
  | succ depth ih =>
      rw [searchBases] at found
      split at found
      · cases found
      · split at found
        · rename_i here
          obtain rfl := Option.some.inj (Except.ok.inj found)
          exact ⟨name, here⟩
        · obtain ⟨base, _, remaining⟩ := ok_of_bind _ _ _ found
          cases base with
          | none => cases remaining
          | some base => exact ih _ base remaining

end Catalog

end OpenApi
