import OpenApi.Model.Client
import OpenApi.Render.Mapper

set_option autoImplicit false

namespace OpenApi

structure SignatureParameter where
  name : String
  type : String
  isOptional : Bool
  default : Option String
deriving DecidableEq, Repr

structure MethodSignature where
  name : String
  parameters : List SignatureParameter
  returnType : String
deriving DecidableEq, Repr

namespace Mapper

def signatureParameter (m : Mapper) (name : String) (t : ResolvedType) (isOptional : Bool) :
    SignatureParameter :=
  let type := m.memberType t isOptional
  { name
    type
    isOptional
    default := if isOptional then m.optionalDefault t type else none }

def parameter (m : Mapper) (p : ParameterModel) : SignatureParameter :=
  m.signatureParameter (m.escape p.name) p.type (!p.required)

def body (m : Mapper) (b : RequestBodyModel) : SignatureParameter :=
  m.signatureParameter "body" b.type (!b.required)

def place (m : Mapper) (sides : List SignatureParameter × List SignatureParameter)
    (p : ParameterModel) : List SignatureParameter × List SignatureParameter :=
  if p.required then (sides.1 ++ [m.parameter p], sides.2)
  else (sides.1, sides.2 ++ [m.parameter p])

def placeBody (m : Mapper) (sides : List SignatureParameter × List SignatureParameter) :
    Option RequestBodyModel → List SignatureParameter × List SignatureParameter
  | none => sides
  | some b =>
    if b.required then (sides.1 ++ [m.body b], sides.2) else (sides.1, m.body b :: sides.2)

def signature (m : Mapper) (method : ClientMethod) : MethodSignature :=
  let sides := m.placeBody (method.parameters.foldl m.place ([], [])) method.requestBody
  { name := m.methodName method.name
    parameters := sides.1 ++ sides.2
    returnType := m.returnType (method.successType.map m.type) }

def writeParameter (m : Mapper) (p : SignatureParameter) : String :=
  match m with
  | .csharp _ =>
    p.type ++ " " ++ p.name ++
      match p.default with
      | some value => " = " ++ value
      | none => ""
  | .typescript => p.name ++ (if p.isOptional then "?" else "") ++ ": " ++ p.type

def line (m : Mapper) (s : MethodSignature) : String :=
  let call := s.name ++ "(" ++ ", ".intercalate (s.parameters.map m.writeParameter) ++ ")"
  match m with
  | .csharp _ => s.returnType ++ " " ++ call
  | .typescript => call ++ ": " ++ s.returnType

end Mapper

end OpenApi
