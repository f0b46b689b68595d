import OpenApi.Proofs.Schema.Literal

set_option autoImplicit false

namespace OpenApi.Schema

open Decode

structure Tidy (s : Schema) : Prop where
  default : s.default ≠ some .null
  constValue : s.constValue ≠ some .null
  extraOrder : Assoc.Ascending s.extra
  extraNames : ∀ field ∈ s.extra, Keyword.parse? field.1 = none

inductive Canonical : Schema → Prop
  | of_tidy (s : Schema) (tidy : s.Tidy) (children : ∀ child ∈ s.children, Canonical child) :
      Canonical s

theorem optional_value_not_null (v : Value) (read : Option Value)
    (made : optional value v = .ok read) : read ≠ some .null := by
  rw [optional_value v read made]
  cases v <;> simp [Value.isNull]

theorem taken_tidy (s next : Schema) (name : String) (v : Value) (taken : Taken s name v next)
    (tidy : s.Tidy) : next.Tidy where
  default := by
    rcases taken.default with same | read
    · exact same ▸ tidy.default
    · exact optional_value_not_null v _ read
  constValue := by
    rcases taken.constValue with same | read
    · exact same ▸ tidy.constValue
    · exact optional_value_not_null v _ read
  extraOrder := by
    rcases taken.extra with same | ⟨_, put⟩
    · exact same ▸ tidy.extraOrder
    · exact put ▸ Assoc.put_sorted_ascending s.extra name v tidy.extraOrder
  extraNames field member := by
    rcases taken.extra with same | ⟨unknown, put⟩
    · exact tidy.extraNames field (same ▸ member)
    · rcases Assoc.put_sorted_mem s.extra name v field (put ▸ member) with rfl | old
      · exact unknown
      · exact tidy.extraNames field old

theorem decodes_canonical_below (v : Value) : (∀ s, decode v = .ok s → s.Canonical)
    ∧ ∀ child ∈ v.children, ∀ s, decode child = .ok s → s.Canonical := by
  induction v using Value.child_induction with
  | step v ih =>
      refine ⟨fun s made => ?_, fun child member => (ih child member).1⟩
      cases v with
      | obj fields =>
          let parts : Schema → Prop := fun s => s.Tidy ∧ ∀ child ∈ s.children, child.Canonical
          have start : parts {} := by
            refine ⟨⟨nofun, nofun, List.Pairwise.nil, List.forall_mem_nil _⟩, ?_⟩
            exact List.forall_mem_nil _
          have whole : parts s := by
            refine fields_keep parts fields {} s start ?_ made
            intro s next field member taken before
            refine ⟨taken_tidy s next field.1 field.2 taken before.1, fun child isChild => ?_⟩
            have below := ih field.2 (List.mem_map_of_mem member)
            rcases taken.children child isChild with old | read | ⟨w, inside, read⟩
            · exact before.2 child old
            · exact below.1 child read
            · exact below.2 w inside child read
          exact .of_tidy s whole.1 whole.2
      | null | bool | num | str | arr => cases made

theorem decode_canonical (v : Value) (s : Schema) (made : decode v = .ok s) : s.Canonical :=
  (decodes_canonical_below v).1 s made

end OpenApi.Schema
