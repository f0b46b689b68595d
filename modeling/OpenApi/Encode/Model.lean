import OpenApi.Encode.Document
import OpenApi.Encode.Policy
import OpenApi.Encode.Type
import OpenApi.Model.Api
import OpenApi.Render.Signature

set_option autoImplicit false

namespace OpenApi

open Encode

def Variant.encode (v : Variant) : Value :=
  .obj [("value", .str v.value), ("type_name", .str v.typeName)]

def UnionShape.encode (s : UnionShape) : Value :=
  .obj [
    ("exclusive", .bool s.exclusive),
    ("discriminator", optional .str s.discriminator),
    ("variants", list Variant.encode s.variants),
    ("nullable", .bool s.nullable)]

def OrBool.encodeSchema : OrBool Schema → Value
  | .bool b => .bool b
  | .schema s => s.encode

def FlatRecord.encode (r : FlatRecord) : Value :=
  .obj [
    ("base", optional .str r.base),
    ("properties", map Schema.encode r.properties),
    ("required", strings r.required),
    ("additional_properties", optional OrBool.encodeSchema r.additionalProperties)]

def RecordDiscriminator.encode (d : RecordDiscriminator) : Value :=
  .obj [
    ("property", .str d.property),
    ("value", optional .str d.value),
    ("mapping", list Variant.encode d.mapping)]

def PropertyModel.encode (p : PropertyModel) : Value :=
  .obj [
    ("name", .str p.name),
    ("json_name", .str p.jsonName),
    ("ty", p.type.encode),
    ("required", .bool p.required),
    ("read_only", .bool p.type.readOnly),
    ("write_only", .bool p.type.writeOnly),
    ("deprecated", .bool p.type.deprecated),
    ("description", optional .str p.type.description),
    ("default", optional id p.type.default),
    ("is_discriminator", .bool p.isDiscriminator),
    ("optional", .bool p.isOptional)]

def RecordModel.encode (r : RecordModel) : Value :=
  .obj [
    ("name", .str r.name),
    ("source_name", optional .str r.sourceName),
    ("description", optional .str r.description),
    ("base", optional .str r.base),
    ("is_abstract", .bool r.isAbstract),
    ("deprecated", .bool r.deprecated),
    ("properties", list PropertyModel.encode r.properties),
    ("additional_properties", optional ResolvedType.encode r.additionalProperties),
    ("discriminator", optional RecordDiscriminator.encode r.discriminator)]

def TupleElement.encode (e : TupleElement) : Value :=
  .obj [("name", .str e.name), ("ty", e.type.encode)]

def TupleModel.encode (t : TupleModel) : Value :=
  .obj [
    ("name", .str t.name),
    ("description", optional .str t.description),
    ("elements", list TupleElement.encode t.elements),
    ("rest", optional ResolvedType.encode t.rest),
    ("min_items", optional natural t.minItems),
    ("max_items", optional natural t.maxItems)]

def UnionKind.encode (k : UnionKind) : Value :=
  .str <|
    match k with
    | .oneOf => "OneOf"
    | .anyOf => "AnyOf"
    | .inheritance => "Inheritance"

def UnionDiscriminator.encode (d : UnionDiscriminator) : Value :=
  .obj [("property", .str d.property), ("variants", list Variant.encode d.variants)]

def UnionModel.encode (u : UnionModel) : Value :=
  .obj [
    ("name", .str u.name),
    ("description", optional .str u.description),
    ("kind", u.kind.encode),
    ("discriminator", optional UnionDiscriminator.encode u.discriminator),
    ("members", list ResolvedType.encode u.members),
    ("is_abstract", .bool u.isAbstract),
    ("nullable", .bool u.nullable)]

def HeaderModel.encode (h : HeaderModel) : Value :=
  .obj [
    ("name", .str h.name),
    ("wire_name", .str h.wireName),
    ("ty", h.type.encode),
    ("required", .bool h.required),
    ("description", optional .str h.description)]

def ResultCase.encode (r : ResultCase) : Value :=
  .obj [
    ("status", r.status.encode),
    ("name", .str r.name),
    ("description", optional .str r.description),
    ("body", optional ResolvedType.encode r.body),
    ("content_type", optional .str r.contentType),
    ("headers", list HeaderModel.encode r.headers),
    ("is_success", .bool r.isSuccess)]

def ResultModel.encode (r : ResultModel) : Value :=
  .obj [
    ("name", .str r.name),
    ("operation", .str r.operation),
    ("cases", list ResultCase.encode r.cases)]

def FailureModel.encode (f : FailureModel) : Value :=
  .obj [
    ("name", .str f.name),
    ("source_name", .str f.sourceName),
    ("status_codes", list StatusCode.encode f.statusCodes),
    ("operations", strings f.operations),
    ("is_problem_details", .bool f.isProblemDetails),
    ("explicit", .bool f.explicit)]

def ParameterModel.encode (p : ParameterModel) : Value :=
  .obj [
    ("name", .str p.name),
    ("wire_name", .str p.wireName),
    ("location", p.location.encode),
    ("ty", p.type.encode),
    ("required", .bool p.required),
    ("deprecated", .bool p.deprecated),
    ("description", optional .str p.description),
    ("style", .str p.style),
    ("explode", .bool p.explode),
    ("synthesized", .bool p.synthesized)]

def RequestBodyModel.encode (b : RequestBodyModel) : Value :=
  .obj [
    ("ty", b.type.encode),
    ("content_type", .str b.contentType),
    ("kind", b.kind.encode),
    ("required", .bool b.required),
    ("description", optional .str b.description)]

def OperationModel.encode (o : OperationModel) : Value :=
  .obj [
    ("name", .str o.name),
    ("operation_id", optional .str o.operationId),
    ("method", .str o.method),
    ("path", .str o.path),
    ("group", .str o.group),
    ("tags", strings o.tags),
    ("summary", optional .str o.summary),
    ("description", optional .str o.description),
    ("deprecated", .bool o.deprecated),
    ("parameters", list ParameterModel.encode o.parameters),
    ("request_body", optional RequestBodyModel.encode o.requestBody),
    ("result", o.result.encode),
    ("policies", o.policies.encode)]

def HandlerMethod.encode (m : HandlerMethod) : Value :=
  .obj [
    ("name", .str m.name),
    ("http_method", .str m.httpMethod),
    ("path", .str m.path),
    ("parameters", list ParameterModel.encode m.parameters),
    ("request_body", optional RequestBodyModel.encode m.requestBody),
    ("result", .str m.result),
    ("policies", m.policies.encode),
    ("deprecated", .bool m.deprecated),
    ("summary", optional .str m.summary),
    ("description", optional .str m.description)]

def HandlerInterface.encode (h : HandlerInterface) : Value :=
  .obj [
    ("name", .str h.name),
    ("group", .str h.group),
    ("methods", list HandlerMethod.encode h.methods)]

def ClientError.encode (e : ClientError) : Value :=
  .obj [
    ("status", e.status.encode),
    ("name", .str e.name),
    ("body", optional ResolvedType.encode e.body)]

def ClientMethod.encode (m : ClientMethod) : Value :=
  .obj [
    ("name", .str m.name),
    ("http_method", .str m.httpMethod),
    ("path", .str m.path),
    ("path_segments", list PathSegment.encode m.pathSegments),
    ("parameters", list ParameterModel.encode m.parameters),
    ("request_body", optional RequestBodyModel.encode m.requestBody),
    ("success_type", optional ResolvedType.encode m.successType),
    ("success_status", optional StatusCode.encode m.successStatus),
    ("error_cases", list ClientError.encode m.errorCases),
    ("result", .str m.result),
    ("retry", optional RetryPolicy.encode m.retry),
    ("cache", optional CachePolicy.encode m.cache),
    ("requires_auth", .bool m.requiresAuth),
    ("deprecated", .bool m.deprecated),
    ("summary", optional .str m.summary)]

def ClientModel.encode (c : ClientModel) : Value :=
  .obj [
    ("name", .str c.name),
    ("group", .str c.group),
    ("base_path", optional .str c.basePath),
    ("methods", list ClientMethod.encode c.methods)]

def Api.encode (api : Api) : Value :=
  .obj [
    ("title", .str api.title),
    ("version", .str api.version),
    ("namespace", .str api.namespace),
    ("records", list RecordModel.encode api.records),
    ("enums", list EnumModel.encode api.enumerations),
    ("tuples", list TupleModel.encode api.tuples),
    ("unions", list UnionModel.encode api.unions),
    ("errors", list FailureModel.encode api.failures),
    ("results", list ResultModel.encode api.results),
    ("handlers", list HandlerInterface.encode api.handlers),
    ("clients", list ClientModel.encode api.clients)]

def SignatureParameter.encode (p : SignatureParameter) : Value :=
  .obj [
    ("name", .str p.name),
    ("ty", .str p.type),
    ("optional", .bool p.isOptional),
    ("default", optional .str p.default)]

def MethodSignature.encode (s : MethodSignature) : Value :=
  .obj [
    ("name", .str s.name),
    ("parameters", list SignatureParameter.encode s.parameters),
    ("return_type", .str s.returnType)]

end OpenApi
