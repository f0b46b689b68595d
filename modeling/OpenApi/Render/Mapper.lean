import OpenApi.Render.CSharp
import OpenApi.Render.TypeScript

set_option autoImplicit false

namespace OpenApi

inductive Mapper where
  | csharp (options : CSharp)
  | typescript
deriving Repr

namespace Mapper

def ofConfig (config : Config) (enumerations : List String) : Mapper :=
  match config.target with
  | .csharp =>
    .csharp ⟨config.nullableReferenceTypes, config.optionalAsNullable, enumerations⟩
  | .typescript => .typescript

def language : Mapper → TargetLanguage
  | .csharp _ => .csharp
  | .typescript => .typescript

def languageName (m : Mapper) : String :=
  match m.language with
  | .csharp => "csharp"
  | .typescript => "typescript"

def primitive : Mapper → Primitive → String
  | .csharp _ => CSharp.primitive
  | .typescript => TypeScript.primitive

def type : Mapper → ResolvedType → String
  | .csharp c => c.type
  | .typescript => TypeScript.type

def memberType : Mapper → ResolvedType → Bool → String
  | .csharp c, t, isOptional => c.memberType t isOptional
  | .typescript, t, _ => TypeScript.type t

def optionalDefault : Mapper → ResolvedType → String → Option String
  | .csharp c, t, rendered => some (c.optionalDefault t rendered)
  | .typescript, _, _ => none

def escape (m : Mapper) (name : String) : String := Naming.escape m.language name

def methodName : Mapper → String → String
  | .csharp _ => CSharp.methodName
  | .typescript => TypeScript.methodName

def returnType : Mapper → Option String → String
  | .csharp _ => CSharp.returnType
  | .typescript => TypeScript.returnType

end Mapper

end OpenApi
