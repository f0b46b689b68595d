import OpenApi.Model.Operation

set_option autoImplicit false

namespace OpenApi

structure HandlerMethod where
  name : String
  httpMethod : String
  path : String
  parameters : List ParameterModel
  requestBody : Option RequestBodyModel
  result : String
  policies : OperationPolicies
  deprecated : Bool
  summary : Option String
  description : Option String

def HandlerMethod.ofOperation (o : OperationModel) : HandlerMethod where
  name := o.name
  httpMethod := o.method
  path := o.path
  parameters := o.parameters
  requestBody := o.requestBody
  result := o.result.name
  policies := o.policies
  deprecated := o.deprecated
  summary := o.summary
  description := o.description

structure HandlerInterface where
  group : String
  methods : List HandlerMethod

namespace HandlerInterface

def name (h : HandlerInterface) : String := Naming.typeName h.group ++ "Handler"

def all (operations : List OperationModel) : List HandlerInterface :=
  (OperationModel.grouped .ofOperation operations).map fun (group, methods) => { group, methods }

end HandlerInterface

end OpenApi
