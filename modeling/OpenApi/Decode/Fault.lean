import OpenApi.Json.Printer
import OpenApi.Text.Shown

set_option autoImplicit false

namespace OpenApi

inductive Fault where
  | invalidType (got : Value) (want : String)
  | invalidValue (got : Value) (want : String)
  | invalidLength (length : Nat) (want : String)
  | missingField (name : String)
  | noVariant (alternatives : String)
  | unknownVariant (got : String) (known : List String)
  | tooFewAttempts (got : Int)
  | notBoolean (component : String) (found : Value)
  | inside (part key : String) (cause : Fault)

namespace Fault

def describe : Value → String
  | .null => "null"
  | .bool true => "boolean `true`"
  | .bool false => "boolean `false`"
  | .num (.int n) => "integer `" ++ intText n ++ "`"
  | .num (.float x) => "floating point `" ++ x.text ++ "`"
  | .str s => "string " ++ Text.quoted s
  | .arr _ => "sequence"
  | .obj _ => "map"

def listed (names : List String) : String :=
  ", ".intercalate (names.map fun name => "`" ++ name ++ "`")

def message : Fault → String
  | .invalidType got want => "invalid type: " ++ describe got ++ ", expected " ++ want
  | .invalidValue got want => "invalid value: " ++ describe got ++ ", expected " ++ want
  | .invalidLength length want => "invalid length " ++ natText length ++ ", expected " ++ want
  | .missingField name => "missing field `" ++ name ++ "`"
  | .noVariant alternatives => "data did not match any variant of untagged enum " ++ alternatives
  | .unknownVariant got known =>
    "unknown variant `" ++ got ++ "`, expected one of " ++ listed known
  | .tooFewAttempts got => "maxAttempts must be at least 1, got " ++ intText got
  | .notBoolean component found =>
    "expected a boolean on '" ++ component ++ "', found " ++ found.compact
  | .inside part key cause => "Failed to parse " ++ part ++ " '" ++ key ++ "': " ++ cause.message

end Fault

end OpenApi
