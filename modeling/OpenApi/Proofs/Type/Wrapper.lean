import OpenApi.Proofs.Type.Guard
import OpenApi.Proofs.Type.Nullable

set_option autoImplicit false

namespace OpenApi

theorem Validation.merged_with_nothing (v : Validation) : v.mergedWith {} = v := by
  rw [mergedWith, Bool.or_false]
  rfl

theorem ResolvedType.or_null_false (t : ResolvedType) : t.orNull false = t := by
  cases t
  simp [orNull]

theorem ResolvedType.or_null_true (t : ResolvedType) : t.orNull true = { t with nullable := true } := by
  rw [orNull, Bool.or_true]

theorem ResolvedType.or_null_or (t : ResolvedType) (a b : Bool) :
    (t.orNull a).orNull b = t.orNull (a || b) := by
  simp [orNull, Bool.or_assoc]

namespace Schema

structure IsSilent (w : Schema) : Prop where
  validation : w.validation = {}
  description : w.description = none
  deprecated : w.deprecated = none
  readOnly : w.readOnly = none
  writeOnly : w.writeOnly = none
  default : w.default = none

theorem silent_over (w : Schema) (silent : w.IsSilent) (t : ResolvedType) :
    w.over t = t.orNull (TypeFlags.ofSchema w).includesNull := by
  rw [Schema.over, ResolvedType.annotated, silent.validation, silent.description, silent.deprecated,
    silent.readOnly, silent.writeOnly, silent.default, Validation.merged_with_nothing]
  rfl

inductive Wraps (s : Schema) : Bool → Schema → Prop
  | allOf : Wraps s false { allOf := [s] }
  | oneOf : Wraps s false { oneOf := [s] }
  | anyOf : Wraps s false { anyOf := [s] }
  | nullableAllOf : Wraps s true { allOf := [s], nullable := some true }
  | markedAllOf : Wraps s true { allOf := [s, { nullable := some true }] }
  | nullOneOf : Wraps s true { oneOf := [s, { type := some (.single "null") }] }
  | nullAnyOf : Wraps s true { anyOf := [{ type := some (.single "null") }, s] }
  | extendedAnyOf : Wraps s true { anyOf := [s], extra := [("x-nullable", .bool true)] }

end Schema

theorem Guarded.run_map {α β : Type} (f : α → β) (x : Guarded α) (g : Guard) :
    (f <$> x).runOn g = (x.runOn g).map fun result => (result.1.map f, result.2) := by
  rw [map_eq_pure_bind, run_bind]
  rcases x.runOn g with _ | ⟨_ | _, _⟩ <;> rfl

namespace Catalog

open Resolution

variable {m : Type → Type} [Monad m] [LawfulMonad m] [MonadLiftT Resolution m]
  (c : Catalog) (enter : Component → m ResolvedType) (s w : Schema) (hint : Option String)

theorem resolve_around (inner nullable : Bool) (silent : w.IsSilent)
    (around : c.bareType enter w hint = (·.orNull inner) <$> c.resolveWith enter s hint)
    (adds : (inner || (TypeFlags.ofSchema w).includesNull) = nullable) :
    c.resolveWith enter w hint = (·.orNull nullable) <$> c.resolveWith enter s hint := by
  rw [resolve_with_eq, around, bind_pure_comp, ← comp_map]
  congr
  funext t
  rw [Function.comp_apply, Schema.silent_over w silent, ResolvedType.or_null_or, adds]

theorem resolve_composed (nullable : Bool) (silent : w.IsSilent) (inline : w.reference = none)
    (bare : w.properties = []) (alone : w.allOf.filter (!·.isNullMember) = [s])
    (adds : (w.allOf.any Schema.isNullMember || (TypeFlags.ofSchema w).includesNull) = nullable) :
    c.resolveWith enter w hint = (·.orNull nullable) <$> c.resolveWith enter s hint := by
  refine resolve_around c enter s w hint _ nullable silent ?_ adds
  have composed : w.allOf.isEmpty = false := by
    rw [List.isEmpty_eq_false_iff]
    rintro none
    simp [none] at alone
  have only := resolve_only_first c hint enter _ w.allOf [] s alone
  rw [bareType, inline, composed, composedType, alone, only, map_eq_pure_bind]
  simp [bare]

theorem resolve_union (nullable : Bool) (silent : w.IsSilent) (inline : w.reference = none)
    (plain : w.allOf = []) (undeclared : w.discriminator = none)
    (alone : w.unionMembers.filter (!·.isNullOnly) = [s])
    (adds : (w.hasUnionNull || (TypeFlags.ofSchema w).includesNull) = nullable) :
    c.resolveWith enter w hint = (·.orNull nullable) <$> c.resolveWith enter s hint := by
  refine resolve_around c enter s w hint _ nullable silent ?_ adds
  have only := resolve_only_first c hint enter _ w.unionMembers [] s alone
  have union : c.unionType w (c.resolveOnly enter Schema.isNullOnly w.unionMembers hint)
      (c.resolveMembers enter w.unionMembers) hint
        = (·.orNull w.hasUnionNull) <$> c.resolveWith enter s hint := by
    rw [unionType, alone, only, map_eq_pure_bind]
    simp [undeclared]
  rw [← union, bareType, inline, plain]
  by_cases one : w.oneOf = []
  · have any : w.anyOf ≠ [] := by
      rintro none
      simp [Schema.unionMembers, one, none] at alone
    simp [Schema.unionMembers, one, any]
  · simp [Schema.unionMembers, one]

theorem wrapper_resolves (nullable : Bool) (present : s.isNullMember = false)
    (wraps : s.Wraps nullable w) :
    c.resolveWith enter w hint = (·.orNull nullable) <$> c.resolveWith enter s hint := by
  have notNull : s.isNullOnly = false := (Bool.or_eq_false_iff.mp present).1
  have silent : w.IsSilent := by cases wraps <;> constructor <;> rfl
  have isMarker : Schema.isNullMember { nullable := some true } = true := rfl
  have isNull : Schema.isNullOnly { type := some (.single "null") } = true := rfl
  cases wraps with
  | allOf | nullableAllOf | markedAllOf =>
      refine resolve_composed c enter s _ hint _ silent rfl rfl ?_ ?_
      · simp [present, isMarker]
      · simp only [List.any_cons, present, isMarker]
        rfl
  | oneOf | anyOf | nullOneOf | nullAnyOf | extendedAnyOf =>
      refine resolve_union c enter s _ hint _ silent rfl rfl rfl ?_ ?_
      · simp [Schema.unionMembers, notNull, isNull]
      · simp only [Schema.hasUnionNull, Schema.unionMembers, List.isEmpty_cons, List.isEmpty_nil,
          Bool.false_eq_true, if_true, if_false, List.any_cons, notNull, isNull]
        rfl

/-- A schema that only wraps another one, alone among the members of `allOf`, `oneOf` or `anyOf` or
beside nulls, is resolved like that one in every state of a resolver: to the same type but for null,
which it admits if the wrapper adds it, and with the same types registered, or it fails alike. -/
theorem nullable_wrappers_equivalent (c : Catalog) (s w : Schema) (nullable : Bool)
    (present : s.isNullMember = false) (wraps : s.Wraps nullable w) (hint : Option String) :
    let wrapped (t : ResolvedType) := if nullable then { t with nullable := true } else t
    (∀ depth (g : Guard), (c.resolveGuarded depth w hint).runOn g
        = ((c.resolveGuarded depth s hint).runOn g).map fun result =>
          (result.1.map wrapped, result.2))
      ∧ ∀ r, answer (c.resolve w hint) r = (answer (c.resolve s hint) r).map wrapped
        ∧ after (c.resolve w hint) r = after (c.resolve s hint) r := by
  intro wrapped
  have same : wrapped = (·.orNull nullable) := by
    funext t
    cases nullable with
    | true => exact t.or_null_true.symm
    | false => exact t.or_null_false.symm
  rw [same]
  constructor
  · intro depth g
    rw [resolveGuarded, wrapper_resolves c _ s w hint nullable present wraps, Guarded.run_map]
    rfl
  · intro r
    rw [resolve, wrapper_resolves c _ s w hint nullable present wraps, answer_map, after_map]
    exact ⟨rfl, rfl⟩

def inlineOwnerNote : Schema where
  description := some "who keeps it"
  deprecated := some true
  properties := [("name", { type := some (.single "string") })]

theorem owner_note_wrapped :
    let c := ofDocument twoPets {}
    let wrapper : Schema := { anyOf := [{ type := some (.single "null") }, inlineOwnerNote] }
    let m := c.resolve wrapper (some "petOwner")
    answer m {} = .ok { ResolvedType.named "PetOwner" with
        nullable := true, description := some "who keeps it", deprecated := true }
      ∧ (after m {}).names = ["PetOwner"] := by
  intro c wrapper m
  have same := nullable_wrappers_equivalent c inlineOwnerNote wrapper true rfl .nullAnyOf
    (some "petOwner")
  obtain ⟨answered, registered⟩ := same.2 {}
  rw [answered, registered]
  exact ⟨rfl, rfl⟩

end Catalog

end OpenApi
