import OpenApi.Model.Operation

set_option autoImplicit false

namespace OpenApi

structure ClientError where
  status : StatusCode
  body : Option ResolvedType

namespace ClientError

def name (e : ClientError) : String := e.status.caseName

def ofCase (r : ResultCase) : ClientError where
  status := r.status
  body := r.body

end ClientError

structure ClientMethod where
  name : String
  httpMethod : String
  path : String
  parameters : List ParameterModel
  requestBody : Option RequestBodyModel
  -- The body of the first success that has one.
  successType : Option ResolvedType
  -- The status of that success, or of the first success of all.
  successStatus : Option StatusCode
  errorCases : List ClientError
  result : String
  retry : Option RetryPolicy
  cache : Option CachePolicy
  requiresAuth : Bool
  deprecated : Bool
  summary : Option String

namespace ClientMethod

def ofOperation (o : OperationModel) : ClientMethod :=
  let success := o.result.successBody
  { name := o.name
    httpMethod := o.method
    path := o.path
    parameters := o.parameters
    requestBody := o.requestBody
    successType := success.bind (·.body)
    successStatus := (success.or (o.result.cases.find? (·.isSuccess))).map (·.status)
    errorCases := o.result.errorCases.map .ofCase
    result := o.result.name
    retry := o.policies.retry.map (·.value)
    cache := o.policies.cache.map (·.value)
    requiresAuth := o.policies.requiresAuth
    deprecated := o.deprecated
    summary := o.summary }

def pathSegments (m : ClientMethod) : List PathSegment :=
  PathSegment.ofTemplate m.path <|
    (m.parameters.filter (·.location == .path)).map fun p => (p.wireName, p.name)

end ClientMethod

structure ClientModel where
  group : String
  basePath : Option String
  methods : List ClientMethod

namespace ClientModel

def name (c : ClientModel) : String := Naming.typeName c.group ++ "Client"

def all (operations : List OperationModel) (basePath : Option String) : List ClientModel :=
  (OperationModel.grouped .ofOperation operations).map fun (group, methods) =>
    { group, basePath, methods }

end ClientModel

end OpenApi
