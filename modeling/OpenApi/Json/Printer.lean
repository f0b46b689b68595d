import OpenApi.Decimal.Shortest
import OpenApi.Json.Value

set_option autoImplicit false

namespace OpenApi

namespace Binary64

def scientific (digits : List Char) (power : Int) : List Char :=
  let mantissa :=
    match digits with
    | [] => ['0']
    | [d] => [d]
    | d :: rest => d :: '.' :: rest
  let sign := if power < 0 then '-' else '+'
  mantissa ++ 'e' :: sign :: Nat.toDigits 10 power.natAbs

def positional (digits : List Char) (place : Int) : List Char :=
  if place ≤ 0 then ['0', '.'] ++ List.replicate (-place).toNat '0' ++ digits
  else
    let whole := place.toNat
    if digits.length ≤ whole then
      digits ++ List.replicate (whole - digits.length) '0' ++ ['.', '0']
    else digits.take whole ++ '.' :: digits.drop whole

def text (x : Binary64) : String :=
  let sign := if x.negative then ['-'] else []
  if x.mantissa = 0 then String.ofList (sign ++ ['0', '.', '0'])
  else
    let (digits, place) := x.shortest
    if -5 < place ∧ place ≤ 16 then String.ofList (sign ++ positional digits place)
    else String.ofList (sign ++ scientific digits (place - 1))

end Binary64

def intText (n : Int) : String :=
  let digits := String.ofList (Nat.toDigits 10 n.natAbs)
  if n < 0 then "-" ++ digits else digits

def natText (n : Nat) : String := String.ofList (Nat.toDigits 10 n)

def Number.text : Number → String
  | .int n => intText n
  | .float x => x.text

namespace Json

def hexDigit (n : Nat) : Char := (Nat.digitChar (n % 16))

def escapeChar (c : Char) : List Char :=
  match c with
  | '"' => ['\\', '"']
  | '\\' => ['\\', '\\']
  | '\n' => ['\\', 'n']
  | '\r' => ['\\', 'r']
  | '\t' => ['\\', 't']
  | '\x08' => ['\\', 'b']
  | '\x0c' => ['\\', 'f']
  | c =>
    if c.toNat < 0x20 then ['\\', 'u', '0', '0', hexDigit (c.toNat / 16), hexDigit c.toNat]
    else [c]

def quote (s : String) : List Char := '"' :: s.toList.flatMap escapeChar ++ ['"']

mutual

-- The characters of a value in reverse order, in front of those already written.
def write (out : List Char) : Value → List Char
  | .null => "null".toList.reverse ++ out
  | .bool true => "true".toList.reverse ++ out
  | .bool false => "false".toList.reverse ++ out
  | .num n => n.text.toList.reverse ++ out
  | .str s => (quote s).reverse ++ out
  | .arr items => ']' :: writeItems ('[' :: out) true items
  | .obj fields => '\x7d' :: writeFields ('\x7b' :: out) true fields
termination_by structural v => v

def writeItems (out : List Char) (first : Bool) : List Value → List Char
  | [] => out
  | item :: rest => writeItems (write (if first then out else ',' :: out) item) false rest
termination_by structural items => items

def writeFields (out : List Char) (first : Bool) : List (String × Value) → List Char
  | [] => out
  | (name, value) :: rest =>
    let out := if first then out else ',' :: out
    writeFields (write (':' :: (quote name).reverse ++ out) value) false rest
termination_by structural fields => fields

end

end Json

def Value.compact (v : Value) : String := String.ofList (Json.write [] v).reverse

end OpenApi
