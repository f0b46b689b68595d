import OpenApi.Policy.Extensions
import OpenApi.Policy.Security

set_option autoImplicit false

namespace OpenApi

def ExtensionScope.ofOperation (document : Document) (entry : OperationEntry) : ExtensionScope :=
  [(.operation, entry.operation.extensions),
    (.pathItem, entry.pathItem.extensions),
    (.document, document.contents.extensions)]

structure OperationPolicies where
  cache : Option (Scoped CachePolicy) := none
  retry : Option (Scoped RetryPolicy) := none
  security : Option SecurityPolicy := none
  authorization : Option (Scoped AuthorizationPolicy) := none
  allowAnonymous : Bool := false
deriving Repr

namespace OperationPolicies

def read (document : Document) (entry : OperationEntry) : Except Error OperationPolicies := do
  let scope := ExtensionScope.ofOperation document entry
  let cache ← scope.read "x-cache" CachePolicy.decode
  let retry ← scope.read "x-retry" RetryPolicy.decode
  let security ← SecurityPolicy.read document entry.operation
  let authorization ← scope.read "x-authorization" AuthorizationPolicy.decode
  let anonymous ← scope.read "x-allow-anonymous" Decode.boolean
  .ok { cache, retry, security, authorization, allowAnonymous := anonymous.any (·.value) }

def isSecured (p : OperationPolicies) : Bool :=
  p.security.any fun s => !s.anonymous && !s.requirements.isEmpty

def requiresAuth (p : OperationPolicies) : Bool :=
  !p.allowAnonymous && (p.isSecured || p.authorization.isSome)

end OperationPolicies

end OpenApi
