import OpenApi.Decode.Fault

set_option autoImplicit false

namespace OpenApi

inductive VersionFault where
  | swagger (version : Option String)
  | missing
  | unknown (version : String)
deriving DecidableEq, Repr

def VersionFault.message : VersionFault → String
  | .swagger version => "swagger " ++ version.getD "?"
  | .missing => "missing 'openapi' field"
  | .unknown version => version

inductive Cycle where
  | alias (name : String)
  | composition (name : String)
  | inheritance (name : String)
  | baseChain (name : String)
deriving DecidableEq, Repr

def Cycle.message : Cycle → String
  | .alias name => "alias '" ++ name ++ "' refers to itself"
  | .composition name => "'" ++ name ++ "' is composed from itself"
  | .inheritance name => "'" ++ name ++ "' inherits from itself"
  | .baseChain name => "inheritance cycle through '" ++ name ++ "'"

inductive Error where
  | unreadable
  | malformed (fault : Fault)
  | invalidConfig
  | unsupportedVersion (fault : VersionFault)
  | unresolvedReference (target : String)
  | circularReference (cycle : Cycle)
  | invalidExtension (key : String) (fault : Fault)
  | duplicateOperation (name method path : String)

namespace Error

def family : Error → String
  | .unreadable => "Parse"
  | .malformed _ => "Parse"
  | .invalidConfig => "Parse"
  | .unsupportedVersion _ => "UnsupportedVersion"
  | .unresolvedReference _ => "UnresolvedReference"
  | .circularReference _ => "CircularReference"
  | .invalidExtension _ _ => "InvalidExtension"
  | .duplicateOperation _ _ _ => "DuplicateOperation"

def message : Error → String
  | .unreadable => "Parse Error: Failed to parse OpenAPI YAML"
  | .malformed fault => "Parse Error: Failed to parse OpenAPI document: " ++ fault.message
  | .invalidConfig => "Parse Error: Invalid generator config"
  | .unsupportedVersion fault => "Unsupported OpenAPI version: " ++ fault.message
  | .unresolvedReference target => "Unresolved reference: " ++ target
  | .circularReference cycle => "Circular reference: " ++ cycle.message
  | .invalidExtension key fault => "Invalid extension '" ++ key ++ "': " ++ fault.message
  | .duplicateOperation name method path =>
    "Duplicate operation name: " ++ name ++ " (" ++ method ++ " " ++ path ++ ")"

end Error

end OpenApi
