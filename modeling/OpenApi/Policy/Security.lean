import OpenApi.Document.Basic
import OpenApi.Error
import OpenApi.Policy.Level
import OpenApi.Text.Words

set_option autoImplicit false

namespace OpenApi

inductive Credential where
  | apiKey (name location : String)
  | http (scheme : String) (bearerFormat : Option String)
  | oauth2
  | openIdConnect
  | mutualTls
deriving DecidableEq, Repr

def SecurityScheme.credential : SecurityScheme → Credential
  | .apiKey s => .apiKey s.name s.location
  | .http s => .http (String.ofList (Text.asciiLower s.scheme.toList)) s.bearerFormat
  | .oauth2 _ => .oauth2
  | .openIdConnect _ => .openIdConnect
  | .mutualTls _ => .mutualTls

structure SchemeUse where
  name : String
  credential : Credential
  scopes : List String
deriving DecidableEq, Repr

structure SecurityPolicy where
  requirements : List (List SchemeUse)
  -- There is no requirement at all, or one that requires nothing.
  anonymous : Bool
  level : PolicyLevel
deriving DecidableEq, Repr

namespace SecurityPolicy

def schemes (components : Components) (requirement : SecurityRequirement) :
    Except Error (List SchemeUse) :=
  requirement.mapM fun (name, scopes) =>
    match components.securitySchemes.lookup name with
    | some scheme => .ok { name, credential := scheme.credential, scopes }
    | none => .error (.unresolvedReference ("#/components/securitySchemes/" ++ name))

def ofRequirements (components : Components) (level : PolicyLevel)
    (requirements : List SecurityRequirement) : Except Error SecurityPolicy := do
  let resolved ← (requirements.filter (!·.isEmpty)).mapM (schemes components)
  .ok {
    requirements := resolved
    anonymous := requirements.isEmpty || requirements.any (·.isEmpty)
    level }

def read (document : Document) (operation : Operation) : Except Error (Option SecurityPolicy) :=
  let components := document.contents.components
  match operation.security, document.contents.security with
  | some own, _ => some <$> ofRequirements components .operation own
  | none, some shared => some <$> ofRequirements components .document shared
  | none, none => .ok none

end SecurityPolicy

end OpenApi
