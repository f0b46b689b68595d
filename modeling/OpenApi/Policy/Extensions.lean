import OpenApi.Policy.Level

set_option autoImplicit false

namespace OpenApi

open Decode

-- What is wrong inside a value of several possible forms is not told.
def Decode.alternatives {α : Type} (name : String) (r : Result α) : Result α :=
  match r with
  | .ok a => .ok a
  | .error _ => .error (.noVariant name)

structure CachePolicy where
  ttlSeconds : Nat := 0
  varyByQuery : List String := []
  varyByHeader : List String := []
  «private» : Bool := false
deriving DecidableEq, Repr

namespace CachePolicy

def shape : Shape where
  name := "DetailedCachePolicy"
  fieldNames := ["ttlSeconds", "varyByQuery", "varyByHeader", "private"]
  required := ["ttlSeconds"]
  defaulted := ["varyByQuery", "varyByHeader", "private"]

def put (c : CachePolicy) (name : String) (v : Value) : Result CachePolicy :=
  match name with
  | "ttlSeconds" => do .ok { c with ttlSeconds := ← natural v }
  | "varyByQuery" => do .ok { c with varyByQuery := ← list string v }
  | "varyByHeader" => do .ok { c with varyByHeader := ← list string v }
  | "private" => do .ok { c with «private» := ← boolean v }
  | _ => .error (.invalidType v "a known field")

def decode (v : Value) : Result CachePolicy :=
  alternatives "RawCachePolicy" <|
    match v with
    | .num n => do .ok { ttlSeconds := ← natural (.num n) }
    | _ => shape.read put {} v

end CachePolicy

inductive Backoff where
  | exponential
  | fixed
deriving DecidableEq, Repr

namespace Backoff

def ofName? : String → Option Backoff
  | "exponential" => some .exponential
  | "fixed" => some .fixed
  | _ => none

def decode (v : Value) : Result Backoff :=
  let name :=
    match v with
    | .str name => some name
    | .obj [(name, .null)] => some name
    | _ => none
  match name.bind ofName? with
  | some b => .ok b
  | none => .error (.invalidType v "a backoff")

end Backoff

structure RetryPolicy where
  maxAttempts : Int := 3
  delayMs : Nat := 200
  backoff : Backoff := .exponential
  retryOn : List Nat := [408, 429, 502, 503, 504]
deriving DecidableEq, Repr

namespace RetryPolicy

def shape : Shape where
  name := "DetailedRetryPolicy"
  fieldNames := ["maxAttempts", "delayMs", "backoff", "retryOn"]
  defaulted := ["maxAttempts", "delayMs", "backoff", "retryOn"]

def signed : Value → Result Int
  | .num (.int n) =>
    if n < Int.pow 2 63 then .ok n else .error (.invalidValue (.num (.int n)) "i64")
  | v => .error (.invalidType v "i64")

def statusCode (v : Value) : Result Nat := do
  let n ← natural v
  if n < Nat.pow 2 16 then .ok n else .error (.invalidValue v "u16")

def put (p : RetryPolicy) (name : String) (v : Value) : Result RetryPolicy :=
  match name with
  | "maxAttempts" => do .ok { p with maxAttempts := ← signed v }
  | "delayMs" => do .ok { p with delayMs := ← natural v }
  | "backoff" => do .ok { p with backoff := ← Backoff.decode v }
  | "retryOn" => do .ok { p with retryOn := ← list statusCode v }
  | _ => .error (.invalidType v "a known field")

def decode (v : Value) : Result RetryPolicy := do
  let p ← alternatives "RawRetryPolicy" <|
    match v with
    | .num n => do .ok { maxAttempts := ← signed (.num n) }
    | _ => shape.read put {} v
  if 1 ≤ p.maxAttempts ∧ p.maxAttempts < Int.pow 2 32 then .ok p
  else .error (.tooFewAttempts p.maxAttempts)

end RetryPolicy

structure AuthorizationPolicy where
  policy : Option String := none
  roles : List String := []
deriving DecidableEq, Repr

namespace AuthorizationPolicy

def shape : Shape where
  name := "DetailedAuthorization"
  fieldNames := ["policy", "roles"]
  defaulted := ["policy", "roles"]

def put (p : AuthorizationPolicy) (name : String) (v : Value) : Result AuthorizationPolicy :=
  match name with
  | "policy" => do .ok { p with policy := ← optional string v }
  | "roles" => do .ok { p with roles := ← list string v }
  | _ => .error (.invalidType v "a known field")

def decode (v : Value) : Result AuthorizationPolicy :=
  alternatives "RawAuthorization" <|
    match v with
    | .str name => .ok { policy := some name }
    | _ => shape.read put {} v

end AuthorizationPolicy

end OpenApi
