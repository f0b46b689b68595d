import OpenApi.Schema.Basic
import OpenApi.Type.Resolved

set_option autoImplicit false

namespace OpenApi.Schema

-- The single limit of an inclusive and an exclusive keyword. `stricter` is the order in which a
-- stricter exclusive limit stands to the inclusive one.
def combineBounds (stricter : Ordering) :
    Option Number → Option ExclusiveBound → Option Bound
  | some value, some (.flag exclusive) => some ⟨value, exclusive⟩
  | some value, none => some ⟨value, false⟩
  | none, some (.value value) => some ⟨value, true⟩
  | some inclusive, some (.value exclusive) =>
    let order := exclusive.toBinary64.compare inclusive.toBinary64
    if order = stricter ∨ order = .eq then some ⟨exclusive, true⟩ else some ⟨inclusive, false⟩
  | none, some (.flag _) => none
  | none, none => none

def lowerBound (s : Schema) : Option Bound := combineBounds .gt s.minimum s.exclusiveMinimum

def upperBound (s : Schema) : Option Bound := combineBounds .lt s.maximum s.exclusiveMaximum

def validation (s : Schema) : Validation where
  minLength := s.minLength
  maxLength := s.maxLength
  pattern := s.pattern
  minimum := s.lowerBound
  maximum := s.upperBound
  multipleOf := s.multipleOf
  minItems := s.minItems
  maxItems := s.maxItems
  uniqueItems := s.uniqueItems.getD false
  minProperties := s.minProperties
  maxProperties := s.maxProperties
  format := s.format
  constValue := s.constValue

end OpenApi.Schema
