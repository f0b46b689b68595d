import OpenApi.Decode.Basic
import OpenApi.Error

set_option autoImplicit false

namespace OpenApi

inductive PolicyLevel where
  | document
  | pathItem
  | operation
deriving DecidableEq, Repr

structure Scoped (α : Type) where
  value : α
  level : PolicyLevel
deriving Repr

-- The extensions of each level, the most specific level first.
abbrev ExtensionScope := List (PolicyLevel × List (String × Value))

namespace ExtensionScope

def lookup? (scope : ExtensionScope) (key : String) : Option (Scoped Value) :=
  scope.findSome? fun (level, extensions) =>
    (extensions.lookup key).map fun v => { value := v, level }

def isOff : Value → Bool
  | .null => true
  | .bool b => !b
  | _ => false

def read {α : Type} (scope : ExtensionScope) (key : String) (decode : Value → Except Fault α) :
    Except Error (Option (Scoped α)) :=
  match scope.lookup? key with
  | none => .ok none
  | some found =>
    if isOff found.value then .ok none
    else
      match decode found.value with
      | .ok a => .ok (some { value := a, level := found.level })
      | .error fault => .error (.invalidExtension key fault)

end ExtensionScope

end OpenApi
