import OpenApi.Model.Client
import OpenApi.Model.Enumeration
import OpenApi.Model.Failure
import OpenApi.Model.Handler
import OpenApi.Model.Record
import OpenApi.Model.Tuple
import OpenApi.Model.Union
import OpenApi.Render.Mapper

set_option autoImplicit false

namespace OpenApi

structure Api where
  title : String
  version : String
  «namespace» : String
  records : List RecordModel := []
  enumerations : List EnumModel := []
  tuples : List TupleModel := []
  unions : List UnionModel := []
  failures : List FailureModel := []
  results : List ResultModel := []
  handlers : List HandlerInterface := []
  clients : List ClientModel := []

namespace Api

def addType (c : Catalog) (api : Api) (name : String) (source : Option String) (s : Schema) :
    ComponentKind → Resolution Api
  | .record => do
    let record ← RecordModel.ofSchema c name source s
    pure { api with records := api.records ++ [record] }
  | .hierarchy => do
    let record ← RecordModel.ofSchema c name source s
    let unions := source.toList.map fun component => UnionModel.ofHierarchy c name component s
    pure { api with records := api.records ++ [record], unions := api.unions ++ unions }
  | .enumeration =>
    pure { api with enumerations := api.enumerations ++ [EnumModel.ofSchema name s] }
  | .tuple => do
    let tuple ← TupleModel.ofSchema c name s
    pure { api with tuples := api.tuples ++ [tuple] }
  | .union => do
    let union ← UnionModel.ofSchema c name s
    pure { api with unions := api.unions ++ [union] }
  | .alias => pure api

def addComponents (c : Catalog) (api : Api) : List Component → Resolution Api
  | [] => pure api
  | component :: rest => do
    let api ← api.addType c component.typeName (some component.name) component.schema component.kind
    addComponents c api rest

def addSynthesized (c : Catalog) (api : Api) : List SynthesizedType → Resolution Api
  | [] => pure api
  | t :: rest => do
    let api ← api.addType c t.name none t.schema t.kind
    addSynthesized c api rest

def addOperations (c : Catalog) (api : Api) : Resolution Api := do
  let operations ← OperationModel.all c
  let results := operations.map (·.result)
  let failures ← FailureModel.all c results
  pure { api with
    results
    failures
    handlers := HandlerInterface.all operations
    clients := ClientModel.all operations c.document.basePath }

def addRounds (c : Catalog) : Nat → Api → Resolution (Option Api)
  | 0, api => do
    let registry ← getThe Registry
    pure (if registry.pending.isEmpty then some api else none)
  | rounds + 1, api => do
    let pending ← Resolution.takePending
    if pending.isEmpty then pure (some api)
    else do
      let api ← api.addSynthesized c pending
      addRounds c rounds api

def resolution (c : Catalog) (rounds : Nat) : Resolution (Option Api) := do
  let api : Api := {
    title := c.document.title
    version := c.document.apiVersion
    «namespace» := c.config.namespace }
  let api ← api.addComponents c c.components
  let api ← api.addOperations c
  addRounds c rounds api

-- The rounds of a run. The extraction itself goes on for as long as types are pending; a run that
-- does not stop short of that has its outcome.
def roundLimit : Nat := 10000

def ofDocument? (document : Document) (config : Config) (rounds : Nat) :
    Except Error (Option Api) :=
  ((resolution (.ofDocument document config) rounds).run.run {}).1

def mapper (api : Api) (config : Config) : Mapper :=
  .ofConfig config (api.enumerations.map (·.name))

end Api

end OpenApi
