import OpenApi.Config.Reader
import OpenApi.Policy.Operation
import OpenApi.Schema.Encode

set_option autoImplicit false

namespace OpenApi

open Encode

def PolicyLevel.encode (level : PolicyLevel) : Value :=
  .str <|
    match level with
    | .document => "Document"
    | .pathItem => "PathItem"
    | .operation => "Operation"

def Scoped.encode {α : Type} (write : α → Value) (s : Scoped α) : Value :=
  .obj [("value", write s.value), ("level", s.level.encode)]

def CachePolicy.encode (p : CachePolicy) : Value :=
  .obj [
    ("ttl_seconds", natural p.ttlSeconds),
    ("vary_by_query", strings p.varyByQuery),
    ("vary_by_header", strings p.varyByHeader),
    ("private", .bool p.private)]

def Backoff.encode (b : Backoff) : Value :=
  .str <|
    match b with
    | .exponential => "exponential"
    | .fixed => "fixed"

def RetryPolicy.encode (p : RetryPolicy) : Value :=
  .obj [
    ("max_attempts", .num (.int p.maxAttempts)),
    ("delay_ms", natural p.delayMs),
    ("backoff", p.backoff.encode),
    ("retry_on", list natural p.retryOn)]

def AuthorizationPolicy.encode (p : AuthorizationPolicy) : Value :=
  .obj [("policy", optional .str p.policy), ("roles", strings p.roles)]

def Credential.encode : Credential → Value
  | .apiKey name location =>
    .obj [("type", .str "apiKey"), ("name", .str name), ("location", .str location)]
  | .http scheme bearerFormat =>
    .obj [
      ("type", .str "http"),
      ("scheme", .str scheme),
      ("bearer_format", optional .str bearerFormat)]
  | .oauth2 => .obj [("type", .str "oAuth2")]
  | .openIdConnect => .obj [("type", .str "openIdConnect")]
  | .mutualTls => .obj [("type", .str "mutualTls")]

def SchemeUse.encode (u : SchemeUse) : Value :=
  .obj [
    ("name", .str u.name),
    ("kind", u.credential.encode),
    ("scopes", strings u.scopes)]

def SecurityPolicy.encode (p : SecurityPolicy) : Value :=
  .obj [
    ("requirements", list (list SchemeUse.encode) p.requirements),
    ("anonymous", .bool p.anonymous),
    ("level", p.level.encode)]

def OperationPolicies.encode (p : OperationPolicies) : Value :=
  .obj [
    ("cache", optional (Scoped.encode CachePolicy.encode) p.cache),
    ("retry", optional (Scoped.encode RetryPolicy.encode) p.retry),
    ("security", optional SecurityPolicy.encode p.security),
    ("authorization", optional (Scoped.encode AuthorizationPolicy.encode) p.authorization),
    ("allow_anonymous", .bool p.allowAnonymous)]

def TargetLanguage.encode (t : TargetLanguage) : Value :=
  .str <|
    match t with
    | .csharp => "csharp"
    | .typescript => "typescript"

def Config.encode (c : Config) : Value :=
  .obj [
    ("target", c.target.encode),
    ("namespace", .str c.namespace),
    ("nullableReferenceTypes", .bool c.nullableReferenceTypes),
    ("optionalAsNullable", .bool c.optionalAsNullable),
    ("defaultGroup", .str c.defaultGroup),
    ("synthesizeInlineTypes", .bool c.synthesizeInlineTypes),
    ("uniqueItemsAsSet", .bool c.uniqueItemsAsSet)]

end OpenApi
