import OpenApi.Proofs.Schema.Limits

set_option autoImplicit false

namespace OpenApi

def Side.Takes (side : Side) (exclusive inclusive : Number) : Prop :=
  exclusive.toBinary64.compare inclusive.toBinary64 = side.stricter
    ∨ exclusive.toBinary64.compare inclusive.toBinary64 = .eq

namespace Schema

variable (base overlay : Schema) (side : Side)

-- The base with each keyword for constraints that the overlay has in place of its own one.
def overridden : Schema := { base with
  format := overlay.format <|> base.format
  constValue := overlay.constValue <|> base.constValue
  minProperties := overlay.minProperties <|> base.minProperties
  maxProperties := overlay.maxProperties <|> base.maxProperties
  minItems := overlay.minItems <|> base.minItems
  maxItems := overlay.maxItems <|> base.maxItems
  uniqueItems := overlay.uniqueItems <|> base.uniqueItems
  minLength := overlay.minLength <|> base.minLength
  maxLength := overlay.maxLength <|> base.maxLength
  pattern := overlay.pattern <|> base.pattern
  minimum := overlay.minimum <|> base.minimum
  maximum := overlay.maximum <|> base.maximum
  exclusiveMinimum := overlay.exclusiveMinimum <|> base.exclusiveMinimum
  exclusiveMaximum := overlay.exclusiveMaximum <|> base.exclusiveMaximum
  multipleOf := overlay.multipleOf <|> base.multipleOf }

def mergedValidation : Validation := base.validation.mergedWith overlay.validation

def overriddenValidation : Validation := (base.overridden overlay).validation

def RepeatsItems : Prop := base.uniqueItems = some true ∧ overlay.uniqueItems = some false

-- The overlay has one keyword of the side, and a keyword of the base goes with it: the limit of the
-- two is neither the one of the overlay nor, if the overlay alone makes no limit, the one of the base.
@[mk_iff]
inductive SplitsLimit : Prop where
  | strict (i : Number) (own : overlay.inclusive side = some i)
      (alone : overlay.exclusive side = none) (kept : base.exclusive side = some (.flag true))
  | exclusive (i e : Number) (own : overlay.inclusive side = some i)
      (alone : overlay.exclusive side = none) (kept : base.exclusive side = some (.value e))
      (takes : side.Takes e i)
  | inclusive (i e : Number) (own : overlay.exclusive side = some (.value e))
      (alone : overlay.inclusive side = none) (kept : base.inclusive side = some i)
      (weaker : ¬ side.Takes e i)
  | flag (strict : Bool) (own : overlay.exclusive side = some (.flag strict))
      (alone : overlay.inclusive side = none)
      (other : base.validation.limit side ≠ (base.inclusive side).map (⟨·, strict⟩))

section Limits

variable (inclusive exclusive : Number)

theorem combine_taken (takes : side.Takes exclusive inclusive) :
    combineBounds side.stricter (some inclusive) (some (.value exclusive))
      = some ⟨exclusive, true⟩ :=
  if_pos takes

theorem combine_weaker (weaker : ¬ side.Takes exclusive inclusive) :
    combineBounds side.stricter (some inclusive) (some (.value exclusive))
      = some ⟨inclusive, false⟩ :=
  if_neg weaker

theorem combine_flag (order : Ordering) (value : Option Number) (strict : Bool) :
    combineBounds order value (some (.flag strict)) = value.map (⟨·, strict⟩) := by
  cases value <;> rfl

end Limits

theorem inclusive_overridden :
    (base.overridden overlay).inclusive side = (overlay.inclusive side <|> base.inclusive side) := by
  cases side <;> rfl

theorem exclusive_overridden :
    (base.overridden overlay).exclusive side = (overlay.exclusive side <|> base.exclusive side) := by
  cases side <;> rfl

theorem limit_merged : (base.mergedValidation overlay).limit side
    = (overlay.validation.limit side <|> base.validation.limit side) := by
  cases side <;> rfl

theorem limit_overridden : (base.overriddenValidation overlay).limit side
    = combineBounds side.stricter (overlay.inclusive side <|> base.inclusive side)
        (overlay.exclusive side <|> base.exclusive side) := by
  rw [overriddenValidation, limit_combined, inclusive_overridden, exclusive_overridden]

section Inclusive

variable (i : Number) (own : overlay.inclusive side = some i)
  (alone : overlay.exclusive side = none)

include own alone

theorem splits_inclusive_iff : base.SplitsLimit overlay side
    ↔ base.exclusive side = some (.flag true)
      ∨ ∃ e, base.exclusive side = some (.value e) ∧ side.Takes e i := by
  simp [splitsLimit_iff, own, alone]

theorem limit_inclusive_iff :
    (base.mergedValidation overlay).limit side = (base.overriddenValidation overlay).limit side
      ↔ ¬ base.SplitsLimit overlay side := by
  have merged : (base.mergedValidation overlay).limit side = some ⟨i, false⟩ := by
    rw [limit_merged, limit_combined, own, alone]
    rfl
  have whole : (base.overriddenValidation overlay).limit side
      = combineBounds side.stricter (some i) (base.exclusive side) := by
    rw [limit_overridden, own, alone]
    rfl
  rw [merged, whole, splits_inclusive_iff base overlay side i own alone]
  cases base.exclusive side with
  | none => simp [combineBounds]
  | some bound =>
    cases bound with
    | flag strict => cases strict <;> simp [combineBounds]
    | value e =>
      by_cases takes : side.Takes e i
      · simp [combine_taken side i e takes, takes]
      · simp [combine_weaker side i e takes, takes]

end Inclusive

section Exclusive

variable (alone : overlay.inclusive side = none)

include alone

theorem splits_value_iff (e : Number) (own : overlay.exclusive side = some (.value e)) :
    base.SplitsLimit overlay side ↔ ∃ i, base.inclusive side = some i ∧ ¬ side.Takes e i := by
  simp [splitsLimit_iff, own, alone]

theorem splits_flag_iff (strict : Bool) (own : overlay.exclusive side = some (.flag strict)) :
    base.SplitsLimit overlay side
      ↔ base.validation.limit side ≠ (base.inclusive side).map (⟨·, strict⟩) := by
  simp [splitsLimit_iff, own, alone]

theorem limit_exclusive_iff (bound : ExclusiveBound)
    (own : overlay.exclusive side = some bound) :
    (base.mergedValidation overlay).limit side = (base.overriddenValidation overlay).limit side
      ↔ ¬ base.SplitsLimit overlay side := by
  have whole : (base.overriddenValidation overlay).limit side
      = combineBounds side.stricter (base.inclusive side) (some bound) := by
    rw [limit_overridden, own, alone]
    rfl
  cases bound with
  | flag strict =>
    have merged : (base.mergedValidation overlay).limit side = base.validation.limit side := by
      rw [limit_merged, limit_combined, own, alone]
      rfl
    rw [merged, whole, combine_flag, splits_flag_iff base overlay side alone strict own, not_not]
  | value e =>
    have merged : (base.mergedValidation overlay).limit side = some ⟨e, true⟩ := by
      rw [limit_merged, limit_combined, own, alone]
      rfl
    rw [merged, whole, splits_value_iff base overlay side alone e own]
    cases base.inclusive side with
    | none => simp [combineBounds]
    | some i =>
      by_cases takes : side.Takes e i
      · simp [combine_taken side i e takes, takes]
      · simp [combine_weaker side i e takes, takes]

end Exclusive

theorem limit_untouched (inc : overlay.inclusive side = none)
    (exc : overlay.exclusive side = none) :
    (base.mergedValidation overlay).limit side = (base.overriddenValidation overlay).limit side
      ↔ ¬ base.SplitsLimit overlay side := by
  refine iff_of_true ?_ (by simp [splitsLimit_iff, inc, exc])
  rw [limit_merged, limit_overridden, limit_combined, limit_combined, inc, exc]
  rfl

theorem limit_replaced (i : Number) (bound : ExclusiveBound)
    (inc : overlay.inclusive side = some i) (exc : overlay.exclusive side = some bound) :
    (base.mergedValidation overlay).limit side = (base.overriddenValidation overlay).limit side
      ↔ ¬ base.SplitsLimit overlay side := by
  refine iff_of_true ?_ (by simp [splitsLimit_iff, inc, exc])
  rw [limit_merged, limit_overridden, limit_combined, inc, exc]
  cases bound with
  | flag strict => rfl
  | value e =>
    by_cases takes : side.Takes e i
    · simp [combine_taken side i e takes]
    · simp [combine_weaker side i e takes]

theorem limit_kept_iff :
    (base.mergedValidation overlay).limit side = (base.overriddenValidation overlay).limit side
      ↔ ¬ base.SplitsLimit overlay side := by
  cases inc : overlay.inclusive side with
  | none =>
    cases exc : overlay.exclusive side with
    | none => exact limit_untouched base overlay side inc exc
    | some bound => exact limit_exclusive_iff base overlay side inc bound exc
  | some i =>
    cases exc : overlay.exclusive side with
    | none => exact limit_inclusive_iff base overlay side i inc exc
    | some bound => exact limit_replaced base overlay side i bound inc exc

theorem unique_kept_iff :
    (base.mergedValidation overlay).uniqueItems = (base.overriddenValidation overlay).uniqueItems
      ↔ ¬ base.RepeatsItems overlay := by
  change (base.uniqueItems.getD false || overlay.uniqueItems.getD false)
    = (overlay.uniqueItems <|> base.uniqueItems).getD false ↔ _
  rw [RepeatsItems]
  obtain _ | _ | _ := base.uniqueItems <;> obtain _ | _ | _ := overlay.uniqueItems <;> decide

/-- All constraints that two schemas make together are those of the base with the keywords of the
overlay in place of its own ones, but for the flag for items that differ and the limits. The flag
is another one exactly where the overlay takes it back, and the limit of a side exactly where the
overlay has one of the two keywords and the other one stays the base's and goes with it. Where neither
happens, nothing is different. -/
theorem overridden_validation :
    { base.mergedValidation overlay with
        uniqueItems := (base.overriddenValidation overlay).uniqueItems
        minimum := (base.overriddenValidation overlay).minimum
        maximum := (base.overriddenValidation overlay).maximum } = base.overriddenValidation overlay
    ∧ ((base.mergedValidation overlay).uniqueItems = (base.overriddenValidation overlay).uniqueItems
      ↔ ¬ base.RepeatsItems overlay)
    ∧ (∀ side, (base.mergedValidation overlay).limit side
        = (base.overriddenValidation overlay).limit side ↔ ¬ base.SplitsLimit overlay side)
    ∧ (base.mergedValidation overlay = base.overriddenValidation overlay
      ↔ ¬ base.RepeatsItems overlay ∧ ∀ side, ¬ base.SplitsLimit overlay side) := by
  have others : { base.mergedValidation overlay with
      uniqueItems := (base.overriddenValidation overlay).uniqueItems
      minimum := (base.overriddenValidation overlay).minimum
      maximum := (base.overriddenValidation overlay).maximum }
      = base.overriddenValidation overlay := rfl
  have unique := unique_kept_iff base overlay
  have limits (side : Side) := limit_kept_iff base overlay side
  refine ⟨others, unique, limits, fun same => ?_, fun ⟨keeps, whole⟩ => ?_⟩
  · exact ⟨unique.mp (congrArg _ same), fun side => (limits side).mp (congrArg (·.limit side) same)⟩
  · have minimum : (base.mergedValidation overlay).minimum
        = (base.overriddenValidation overlay).minimum := (limits .lower).mpr (whole .lower)
    have maximum : (base.mergedValidation overlay).maximum
        = (base.overriddenValidation overlay).maximum := (limits .upper).mpr (whole .upper)
    rw [← others, ← unique.mpr keeps, ← minimum, ← maximum]

theorem repeated_items_lost :
    ({ uniqueItems := some true } : Schema).mergedValidation { uniqueItems := some false }
      ≠ ({ uniqueItems := some true } : Schema).overriddenValidation
          { uniqueItems := some false } := by
  intro same
  cases congrArg Validation.uniqueItems same

end Schema

end OpenApi
