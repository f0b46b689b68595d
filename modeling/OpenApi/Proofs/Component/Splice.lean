import OpenApi.Proofs.Component.Inheritance
import OpenApi.Proofs.Component.Marker

set_option autoImplicit false

namespace OpenApi

namespace FlatRecord

theorem add_names_append (names more others : List String) :
    addNames names (more ++ others) = addNames (addNames names more) others := by
  induction more generalizing names with
  | nil => rfl
  | cons name rest ih => exact ih _

theorem add_names_add_names (names middle more : List String) :
    addNames names (addNames middle more) = addNames (addNames names middle) more := by
  induction more generalizing middle with
  | nil => rfl
  | cons name rest ih =>
      rw [addNames, addNames, ih]
      congr 1
      by_cases known : name ∈ middle
      · have present : name ∈ addNames names middle := (mem_add_names ..).mpr (.inr known)
        simp [known, present]
      · rw [if_neg (by simpa using known), add_names_append]
        rfl

-- The record in the middle lists no property twice, so it does not matter which is laid over first.
theorem overlay_overlay (flat middle other : FlatRecord)
    (distinct : (Assoc.keys middle.properties).Nodup) :
    flat.overlay (middle.overlay other) = (flat.overlay middle).overlay other := by
  have properties := Assoc.put_all_put_all flat.properties middle.properties other.properties distinct
  have required := add_names_add_names flat.required middle.required other.required
  have additional : ((other.additionalProperties <|> middle.additionalProperties)
      <|> flat.additionalProperties) = (other.additionalProperties
      <|> middle.additionalProperties <|> flat.additionalProperties) := by
    cases other.additionalProperties <;> rfl
  rw [overlay, overlay, overlay, overlay, mk.injEq]
  exact ⟨rfl, properties, required, additional⟩

theorem overlay_nothing (flat : FlatRecord) : flat.overlay {} = flat := by
  cases flat
  rfl

end FlatRecord

namespace Schema

def uncomposed (m : Schema) : Schema := { m with allOf := [] }

-- A marker has no members to begin with, so what is taken in without them is taken in with them.
theorem uncomposed_present (m : Schema) (present : m.uncomposed.isNullMember = false) :
    m.isNullMember = false := by
  have notNull : m.isNullOnly = false := (Bool.or_eq_false_iff.mp present).1
  by_cases marker : m.isNullableMarker = true
  · have alone : m.uncomposed = m := by
      have none := m.bare_members (m.marker_bare marker)
      cases m
      cases none
      rfl
    rw [← alone]
    exact present
  · exact Bool.or_eq_false_iff.mpr ⟨notNull, by simpa using marker⟩

end Schema

namespace Catalog

section Flatten

variable (c : Catalog) (mixin : Component → Except Error FlatRecord) (mayInherit : Bool)

-- Inline members bring in the same whether they start from nothing and are laid over afterwards or
-- are laid over one by one. None of them can be the base.
theorem inline_members_overlaid (members : List Schema) (flat middle : FlatRecord)
    (inline : ∀ m ∈ members, m.reference = none) (distinct : middle.Distinct) :
    (do .ok (flat.overlay (← c.flattenMembers mixin false middle members)))
      = c.flattenMembers mixin mayInherit (flat.overlay middle) members := by
  induction members generalizing middle with
  | nil => rfl
  | cons m rest ih =>
      obtain ⟨isInline, restInline⟩ := List.forall_mem_cons.mp inline
      rw [flatten_members_cons, flatten_members_cons, bind_assoc]
      by_cases isNull : m.isNullMember = true
      · have passed (inherit : Bool) (flat : FlatRecord) :
            flattenMember c mixin inherit flat m = .ok flat := if_pos isNull
        rw [passed, passed]
        exact ih middle restInline distinct
      · have present : m.isNullMember = false := by simpa using isNull
        rw [inline_taken_in c mixin false m middle present isInline,
          inline_taken_in c mixin mayInherit m _ present isInline, bind_assoc, bind_assoc]
        refine bind_congr fun all => ?_
        have later := ih (middle.overlay all) restInline (middle.overlay_distinct all distinct)
        rw [flat.overlay_overlay middle all distinct.properties] at later
        exact later

theorem uncomposed_taken_in (flat : FlatRecord) (m : Schema) (inline : m.reference = none)
    (present : m.uncomposed.isNullMember = false) :
    flattenMember c mixin mayInherit flat m.uncomposed = .ok (flat.overlay (.own m)) := by
  have own : c.flattenWith mixin false m.uncomposed = .ok (FlatRecord.overlay {} (.own m)) := rfl
  have laid : flat.overlay (FlatRecord.overlay {} (.own m)) = flat.overlay (.own m) := by
    rw [flat.overlay_overlay {} (.own m) List.nodup_nil, flat.overlay_nothing]
  rw [inline_taken_in c mixin mayInherit m.uncomposed flat present inline, own, ← laid]
  rfl

theorem composed_member_spliced (flat : FlatRecord) (m : Schema) (inline : m.reference = none)
    (present : m.uncomposed.isNullMember = false) (direct : ∀ t ∈ m.allOf, t.reference = none) :
    c.flattenMembers mixin mayInherit flat (m.allOf ++ [m.uncomposed])
      = flattenMember c mixin mayInherit flat m := by
  have nothing : FlatRecord.Distinct {} := ⟨List.nodup_nil, List.nodup_nil⟩
  calc c.flattenMembers mixin mayInherit flat (m.allOf ++ [m.uncomposed])
    _ = (do .ok ((← c.flattenMembers mixin mayInherit flat m.allOf).overlay (.own m))) := by
      rw [flatten_members_append]
      refine bind_congr fun next => ?_
      rw [flatten_members_cons, uncomposed_taken_in c mixin mayInherit next m inline present]
      rfl
    _ = (do
          let members ← c.flattenMembers mixin false {} m.allOf
          .ok ((flat.overlay members).overlay (.own m))) := by
      have overlaid := inline_members_overlaid c mixin mayInherit m.allOf flat {} direct nothing
      rw [flat.overlay_nothing] at overlaid
      rw [← overlaid, bind_assoc]
      rfl
    _ = (do
          let members ← c.flattenMembers mixin false {} m.allOf
          .ok (flat.overlay (members.overlay (.own m)))) := by
      refine bind_congr_ok _ _ _ fun members made => ?_
      have distinct := members_distinct c mixin false m.allOf {} members nothing made
      rw [flat.overlay_overlay members (.own m) distinct.properties]
    _ = flattenMember c mixin mayInherit flat m := by
      rw [inline_taken_in c mixin mayInherit m flat (m.uncomposed_present present) inline,
        flatten_with_eq, bind_assoc]
      rfl

theorem flatten_with_spliced (s m : Schema) (before after : List Schema)
    (members : s.allOf = before ++ m :: after) (inline : m.reference = none)
    (present : m.uncomposed.isNullMember = false) (direct : ∀ t ∈ m.allOf, t.reference = none) :
    c.flattenWith mixin mayInherit { s with allOf := before ++ (m.allOf ++ m.uncomposed :: after) }
      = c.flattenWith mixin mayInherit s := by
  have spliced (flat : FlatRecord) :
      c.flattenMembers mixin mayInherit flat (m.allOf ++ m.uncomposed :: after)
        = c.flattenMembers mixin mayInherit flat (m :: after) := by
    rw [List.append_cons, flatten_members_append, flatten_members_cons,
      composed_member_spliced c mixin mayInherit flat m inline present direct]
  rw [flatten_with_eq, flatten_with_eq, members]
  simp only [flatten_members_append c mixin mayInherit {} before, spliced]
  rfl

end Flatten

/-- An inline member of `allOf` whose own members are all inline can be replaced by these, followed by
the member without them, unless that stands for null: the same record comes out, with the same base,
properties and required names in the same order, the same schemas and the same keyword for further
properties, or the same failure. -/
theorem nested_members_spliced (c : Catalog) (name : Option String) (s m : Schema)
    (before after : List Schema) (members : s.allOf = before ++ m :: after)
    (inline : m.reference = none) (present : m.uncomposed.isNullMember = false)
    (direct : ∀ t ∈ m.allOf, t.reference = none) :
    c.flatten name { s with allOf := before ++ (m.allOf ++ m.uncomposed :: after) }
      = c.flatten name s := by
  rw [flatten, flatten, flattenOwn, flattenOwn,
    flatten_with_spliced c _ true s m before after members inline present direct]

-- The second member and the schema itself declare again what is declared before them.
def namedAlive : Schema where
  allOf := [
    { required := ["name"]
      properties := [("name", { minLength := some 1 }), ("lives", {})]
      additionalProperties := some (.bool true) },
    { required := ["lives", "name"]
      properties := [("lives", { type := some (.single "integer") }), ("nick", {})] }]
  required := ["nick"]
  properties := [("name", { maxLength := some 9 })]

def nestedCat (members : List Schema) : Schema where
  allOf := { reference := some "#/components/schemas/Pet" } :: members
    ++ [{ reference := some "#/components/schemas/Dated" }]

theorem nested_cat_spliced :
    let c := ofDocument datedCat {}
    namedAlive.reference = none ∧ namedAlive.uncomposed.isNullMember = false
      ∧ (∀ t ∈ namedAlive.allOf, t.reference = none)
      ∧ c.flatten none (nestedCat (namedAlive.allOf ++ [namedAlive.uncomposed]))
        = c.flatten none (nestedCat [namedAlive])
      ∧ ∃ flat, c.flatten none (nestedCat [namedAlive]) = .ok flat ∧ flat.base = some "Pet"
        ∧ Assoc.keys flat.properties = ["name", "lives", "nick", "created"]
        ∧ flat.required = ["name", "lives", "nick"] := by
  intro c
  have direct : ∀ t ∈ namedAlive.allOf, t.reference = none := by decide
  have spliced := c.nested_members_spliced none (nestedCat [namedAlive]) namedAlive
    [{ reference := some "#/components/schemas/Pet" }]
    [{ reference := some "#/components/schemas/Dated" }] rfl rfl rfl direct
  exact ⟨rfl, rfl, direct, spliced, _, rfl, rfl, by decide, by decide⟩

-- A reference among the nested members would become the base where it is spliced in.
example :
    let pet : Schema := { reference := some "#/components/schemas/Pet" }
    ((ofDocument datedCat {}).flatten none { allOf := [{ allOf := [pet] }] }).map (·.base) = .ok none
      ∧ ((ofDocument datedCat {}).flatten none { allOf := [pet, {}] }).map (·.base)
        = .ok (some "Pet") :=
  ⟨rfl, rfl⟩

end Catalog

end OpenApi
