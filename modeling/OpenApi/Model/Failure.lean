import OpenApi.Model.Result

set_option autoImplicit false

namespace OpenApi

structure FailureModel where
  name : String
  sourceName : String
  statusCodes : List StatusCode
  operations : List String
  isProblemDetails : Bool
  explicit : Bool
deriving DecidableEq, Repr

namespace FailureModel

def extensionKey : String := "x-error"

def isMarked (c : Component) : Except Error Bool :=
  match c.schema.extension? extensionKey with
  | none => .ok false
  | some .null => .ok false
  | some (.bool b) => .ok b
  | some other => .error (.invalidExtension extensionKey (.notBoolean c.name other))

def isProblem (contentType : String) : Bool :=
  "application/problem+json".toList.isPrefixOf (Text.asciiLower contentType.toList)

def empty (name sourceName : String) (explicit : Bool) : FailureModel where
  name
  sourceName
  statusCodes := []
  operations := []
  isProblemDetails := false
  explicit

def addMarked (failures : List (String × FailureModel)) (d : Component) :
    Except Error (List (String × FailureModel)) :=
  if d.kind.isNamed then do
    if ← isMarked d then
      .ok (Assoc.put failures d.typeName (empty d.typeName d.name true))
    else .ok failures
  else .ok failures

def sourceNames (c : Catalog) : List (String × String) :=
  Assoc.ofList ((c.components.filter (·.kind.isNamed)).map fun d => (d.typeName, d.name))

def add {α : Type} [BEq α] (items : List α) (item : α) : List α :=
  if items.contains item then items else items ++ [item]

def carry (m : FailureModel) (operation : String) (status : StatusCode)
    (contentType : Option String) : FailureModel :=
  { m with
    statusCodes := add m.statusCodes status
    operations := add m.operations operation
    isProblemDetails := m.isProblemDetails || contentType.any isProblem }

def addCase (sources : List (String × String)) (operation : String)
    (failures : List (String × FailureModel)) (r : ResultCase) : List (String × FailureModel) :=
  if r.status.isError then
    match r.body.bind (·.type.name?) with
    | none => failures
    | some typeName =>
      match sources.lookup typeName with
      | none => failures
      | some sourceName =>
        let m := (failures.lookup typeName).getD (empty typeName sourceName false)
        Assoc.put failures typeName (m.carry operation r.status r.contentType)
  else failures

def addResult (sources : List (String × String)) (failures : List (String × FailureModel))
    (result : ResultModel) : List (String × FailureModel) :=
  result.cases.foldl (addCase sources result.operation) failures

-- The marked components, then the others that failures carry in the order of first use.
def all (c : Catalog) (results : List ResultModel) : Except Error (List FailureModel) := do
  let marked ← c.components.foldlM addMarked []
  .ok ((results.foldl (addResult (sourceNames c)) marked).map (·.2))

end FailureModel

end OpenApi
