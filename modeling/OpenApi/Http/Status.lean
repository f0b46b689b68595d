import OpenApi.Json.Printer
import OpenApi.Json.Reader
import OpenApi.Text.Words

set_option autoImplicit false

namespace OpenApi

inductive StatusCode where
  | code (value : Nat)
  | range (firstDigit : Nat)
  | default
deriving DecidableEq, Repr

namespace StatusCode

def parse? (key : String) : Option StatusCode :=
  let trimmed := Text.trim key.toList
  if Text.asciiLower trimmed == "default".toList then some .default
  else if !trimmed.isEmpty && trimmed.all Char.isDigit then
    let value := Json.decimalValue trimmed
    if 100 ≤ value ∧ value ≤ 599 then some (.code value) else none
  else
    match trimmed with
    | [d, x, y] =>
      if x.toLower = 'x' ∧ y.toLower = 'x' ∧ '1' ≤ d ∧ d ≤ '5' then
        some (.range (Json.digitValue d))
      else none
    | _ => none

def isSuccess : StatusCode → Bool
  | .code value => decide (200 ≤ value ∧ value < 300)
  | .range firstDigit => firstDigit == 2
  | .default => false

def isError : StatusCode → Bool
  | .code value => decide (400 ≤ value)
  | .range firstDigit => decide (4 ≤ firstDigit)
  | .default => true

def reasonNames : List (Nat × String) :=
  [
    (200, "Ok"),
    (201, "Created"),
    (202, "Accepted"),
    (203, "NonAuthoritativeInformation"),
    (204, "NoContent"),
    (205, "ResetContent"),
    (206, "PartialContent"),
    (301, "MovedPermanently"),
    (302, "Found"),
    (303, "SeeOther"),
    (304, "NotModified"),
    (307, "TemporaryRedirect"),
    (308, "PermanentRedirect"),
    (400, "BadRequest"),
    (401, "Unauthorized"),
    (402, "PaymentRequired"),
    (403, "Forbidden"),
    (404, "NotFound"),
    (405, "MethodNotAllowed"),
    (406, "NotAcceptable"),
    (408, "RequestTimeout"),
    (409, "Conflict"),
    (410, "Gone"),
    (412, "PreconditionFailed"),
    (413, "PayloadTooLarge"),
    (415, "UnsupportedMediaType"),
    (422, "UnprocessableEntity"),
    (423, "Locked"),
    (428, "PreconditionRequired"),
    (429, "TooManyRequests"),
    (500, "InternalServerError"),
    (501, "NotImplemented"),
    (502, "BadGateway"),
    (503, "ServiceUnavailable"),
    (504, "GatewayTimeout")]

def caseName : StatusCode → String
  | .code value =>
    match reasonNames.lookup value with
    | some name => name
    | none => "Status" ++ natText value
  | .range firstDigit => "Status" ++ natText firstDigit ++ "XX"
  | .default => "Default"

end StatusCode

end OpenApi
