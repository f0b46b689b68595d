import OpenApi.Json.Reader
import OpenApi.Yaml.Token

set_option autoImplicit false

namespace OpenApi.Yaml

inductive Denoted where
  | value (v : Value)
  | unsupported

def isNullWord (s : String) : Bool := s == "null" || s == "Null" || s == "NULL" || s == "~"

def boolWord? (s : String) : Option Bool :=
  if s = "true" ∨ s = "True" ∨ s = "TRUE" then some true
  else if s = "false" ∨ s = "False" ∨ s = "FALSE" then some false
  else none

def digitOf? (radix : Nat) (c : Char) : Option Nat :=
  (Json.hexValue? c).filter fun d => decide (d < radix)

def digitsValue? (radix : Nat) (digits : List Char) : Option Nat :=
  if digits.isEmpty then none
  else digits.foldlM (fun n c => (digitOf? radix c).map fun d => radix * n + d) 0

def magnitude? : List Char → Option Nat
  | '0' :: 'x' :: digits => digitsValue? 16 digits
  | '0' :: 'o' :: digits => digitsValue? 8 digits
  | '0' :: 'b' :: digits => digitsValue? 2 digits
  | digits => digitsValue? 10 digits

def hasLeadingZero (cs : List Char) : Bool :=
  let digits :=
    match cs with
    | '-' :: rest => rest
    | '+' :: rest => rest
    | _ => cs
  decide (1 < digits.length) && digits.head? == some '0' && digits.all Char.isDigit

def integer? (cs : List Char) : Option Int :=
  if hasLeadingZero cs then none
  else
    match cs with
    | '-' :: rest => (magnitude? rest).map fun n => -(n : Int)
    | '+' :: rest => (magnitude? rest).map fun n => (n : Int)
    | _ => (magnitude? cs).map fun n => (n : Int)

def exponent? (cs : List Char) : Option Int :=
  let (negative, digits) :=
    match cs with
    | '-' :: rest => (true, rest)
    | '+' :: rest => (false, rest)
    | _ => (false, cs)
  (digitsValue? 10 digits).map fun n => if negative then -(n : Int) else n

def finite? (negative : Bool) (cs : List Char) : Option Binary64 := do
  let whole := cs.takeWhile Char.isDigit
  let rest := cs.drop whole.length
  let (fraction, rest) :=
    match rest with
    | '.' :: rest => (rest.takeWhile Char.isDigit, rest.dropWhile Char.isDigit)
    | _ => ([], rest)
  if whole.isEmpty && fraction.isEmpty then none
  else
    let power ←
      match rest with
      | [] => some 0
      | e :: rest => if e = 'e' ∨ e = 'E' then exponent? rest else none
    Binary64.ofDecimal negative (Json.decimalValue (whole ++ fraction)) (power - fraction.length)

def isNotFinite (s : String) : Bool :=
  [".inf", ".Inf", ".INF", "+.inf", "+.Inf", "+.INF", "-.inf", "-.Inf", "-.INF", ".nan", ".NaN",
    ".NAN"].contains s

def double? (s : String) : Option Value :=
  if isNotFinite s then some .null
  else
    let x :=
      match s.toList with
      | '-' :: rest => finite? true rest
      | '+' :: rest => finite? false rest
      | cs => finite? false cs
    x.map fun x => .num (.float x)

-- An integer of 64 bits; one of up to 128 bits is not supported, and a larger one is none.
def integerValue? (s : String) : Option Denoted := do
  let n ← integer? s.toList
  if Number.minInt ≤ n ∧ n ≤ Number.maxInt then some (.value (.num (.int n)))
  else if -Int.pow 2 127 ≤ n ∧ n < Int.pow 2 128 then some .unsupported
  else none

def plainValue (s : String) : Denoted :=
  if s.isEmpty || isNullWord s then .value .null
  else
    match boolWord? s with
    | some b => .value (.bool b)
    | none =>
      match integerValue? s with
      | some d => d
      | none =>
        if hasLeadingZero s.toList then .value (.str s)
        else .value ((double? s).getD (.str s))

def taggedValue? (tag : String) (s : String) : Option Denoted :=
  match tag with
  | "tag:yaml.org,2002:bool" =>
    some (((boolWord? s).map fun b => Denoted.value (.bool b)).getD .unsupported)
  | "tag:yaml.org,2002:int" => some ((integerValue? s).getD .unsupported)
  | "tag:yaml.org,2002:float" =>
    some (((double? s).map Denoted.value).getD .unsupported)
  | "tag:yaml.org,2002:null" => some (if isNullWord s then .value .null else .unsupported)
  | _ => none

-- The tag belongs to the document itself and has no meaning.
def isLocalTag (tag : String) : Bool := tag.toList.head? == some '!'

def Scalar.denoted (s : Scalar) : Denoted :=
  match s.tag with
  | none => if s.style = .plain then plainValue s.text else .value (.str s.text)
  | some tag =>
    if isLocalTag tag then .unsupported else (taggedValue? tag s.text).getD (.value (.str s.text))

end OpenApi.Yaml
