import OpenApi.Json.Value

set_option autoImplicit false

namespace OpenApi.Json

def isBlank (c : Char) : Bool := c == ' ' || c == '\n' || c == '\r' || c == '\t'

def skipBlanks (cs : List Char) : List Char := cs.dropWhile isBlank

def digitValue (c : Char) : Nat := c.toNat - '0'.toNat

def decimalValue (digits : List Char) : Nat :=
  digits.foldl (fun n c => 10 * n + digitValue c) 0

def hexValue? (c : Char) : Option Nat :=
  if '0' ≤ c ∧ c ≤ '9' then some (c.toNat - '0'.toNat)
  else if 'a' ≤ c ∧ c ≤ 'f' then some (c.toNat - 'a'.toNat + 10)
  else if 'A' ≤ c ∧ c ≤ 'F' then some (c.toNat - 'A'.toNat + 10)
  else none

def hex4? : List Char → Option (Nat × List Char)
  | a :: b :: c :: d :: rest => do
    let n := (← hexValue? a) * 4096 + (← hexValue? b) * 256 + (← hexValue? c) * 16 + (← hexValue? d)
    some (n, rest)
  | _ => none

def unicode? (cs : List Char) : Option (Char × List Char) := do
  let (high, rest) ← hex4? cs
  if high < 0xD800 ∨ 0xDFFF < high then some (Char.ofNat high, rest)
  else if 0xDBFF < high then none
  else
    match rest with
    | '\\' :: 'u' :: rest => do
      let (low, rest) ← hex4? rest
      if 0xDC00 ≤ low ∧ low ≤ 0xDFFF then
        some (Char.ofNat (0x10000 + (high - 0xD800) * 0x400 + (low - 0xDC00)), rest)
      else none
    | _ => none

-- The rest of a string after its opening quote, the characters read so far being in reverse.
def string? (fuel : Nat) (acc cs : List Char) : Option (String × List Char) :=
  match fuel, cs with
  | 0, _ => none
  | _, [] => none
  | _, '"' :: rest => some (String.ofList acc.reverse, rest)
  | fuel + 1, '\\' :: escape :: rest =>
    match escape with
    | '"' => string? fuel ('"' :: acc) rest
    | '\\' => string? fuel ('\\' :: acc) rest
    | '/' => string? fuel ('/' :: acc) rest
    | 'b' => string? fuel ('\x08' :: acc) rest
    | 'f' => string? fuel ('\x0c' :: acc) rest
    | 'n' => string? fuel ('\n' :: acc) rest
    | 'r' => string? fuel ('\r' :: acc) rest
    | 't' => string? fuel ('\t' :: acc) rest
    | 'u' =>
      match unicode? rest with
      | some (c, rest) => string? fuel (c :: acc) rest
      | none => none
    | _ => none
  | fuel + 1, c :: rest => if c.toNat < 0x20 then none else string? fuel (c :: acc) rest

-- The fraction and the exponent after the whole digits: the digits of the fraction, the exponent,
-- whether any of the two was present, and the rest.
def fraction? (cs : List Char) : Option (List Char × Int × Bool × List Char) := do
  let (fraction, afterFraction) ←
    match cs with
    | '.' :: rest =>
      let digits := rest.takeWhile Char.isDigit
      if digits.isEmpty then none else some (digits, rest.dropWhile Char.isDigit)
    | _ => some ([], cs)
  match afterFraction with
  | e :: rest =>
    if e == 'e' || e == 'E' then
      let (negative, rest) :=
        match rest with
        | '-' :: rest => (true, rest)
        | '+' :: rest => (false, rest)
        | _ => (false, rest)
      let digits := rest.takeWhile Char.isDigit
      if digits.isEmpty then none
      else
        let power : Int := decimalValue digits
        some (fraction, if negative then -power else power, true, rest.dropWhile Char.isDigit)
    else some (fraction, 0, !fraction.isEmpty, afterFraction)
  | [] => some (fraction, 0, !fraction.isEmpty, [])

def number? (cs : List Char) : Option (Number × List Char) := do
  let (negative, cs) :=
    match cs with
    | '-' :: rest => (true, rest)
    | _ => (false, cs)
  let whole := cs.takeWhile Char.isDigit
  let rest := cs.dropWhile Char.isDigit
  if whole.isEmpty || (whole.length > 1 && whole.head? == some '0') then none
  else
    let (fraction, power, marked, rest) ← fraction? rest
    let magnitude : Int := decimalValue whole
    let n := if negative then -magnitude else magnitude
    if !marked && decide (Number.minInt ≤ n ∧ n ≤ Number.maxInt) && !(negative && n == 0) then
      some (.int n, rest)
    else
      let x ← Binary64.ofDecimal negative (decimalValue (whole ++ fraction))
        (power - fraction.length)
      some (.float x, rest)

def literal? (word : String) (v : Value) (cs : List Char) : Option (Value × List Char) :=
  let letters := word.toList
  if letters.isPrefixOf cs then some (v, cs.drop letters.length) else none

mutual

def value? (fuel : Nat) (cs : List Char) : Option (Value × List Char) :=
  match fuel with
  | 0 => none
  | fuel + 1 =>
    match skipBlanks cs with
    | [] => none
    | '\x7b' :: rest =>
      match skipBlanks rest with
      | '\x7d' :: rest => some (.obj [], rest)
      | rest => fields? fuel [] rest
    | '[' :: rest =>
      match skipBlanks rest with
      | ']' :: rest => some (.arr [], rest)
      | rest => items? fuel [] rest
    | '"' :: rest => (string? (rest.length + 1) [] rest).map fun (s, rest) => (.str s, rest)
    | 'n' :: rest => literal? "null" .null ('n' :: rest)
    | 't' :: rest => literal? "true" (.bool true) ('t' :: rest)
    | 'f' :: rest => literal? "false" (.bool false) ('f' :: rest)
    | rest => (number? rest).map fun (n, rest) => (.num n, rest)

def items? (fuel : Nat) (acc : List Value) (cs : List Char) : Option (Value × List Char) :=
  match fuel with
  | 0 => none
  | fuel + 1 => do
    let (item, rest) ← value? fuel cs
    match skipBlanks rest with
    | ',' :: rest => items? fuel (item :: acc) rest
    | ']' :: rest => some (.arr (item :: acc).reverse, rest)
    | _ => none

def fields? (fuel : Nat) (acc : List (String × Value)) (cs : List Char) :
    Option (Value × List Char) :=
  match fuel with
  | 0 => none
  | fuel + 1 =>
    match skipBlanks cs with
    | '"' :: rest => do
      let (name, rest) ← string? (rest.length + 1) [] rest
      match skipBlanks rest with
      | ':' :: rest => do
        let (item, rest) ← value? fuel rest
        match skipBlanks rest with
        | ',' :: rest => fields? fuel ((name, item) :: acc) rest
        | '\x7d' :: rest => some (.obj (Assoc.ofList ((name, item) :: acc).reverse), rest)
        | _ => none
      | _ => none
    | _ => none

end

def parse? (text : String) : Option Value := do
  let cs := text.toList
  let (v, rest) ← value? (2 * cs.length + 2) cs
  if (skipBlanks rest).isEmpty then some v else none

end OpenApi.Json
