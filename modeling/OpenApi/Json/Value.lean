import OpenApi.Decimal.Binary64

set_option autoImplicit false

namespace OpenApi

namespace Assoc

variable {κ α : Type} [BEq κ]

def contains (entries : List (κ × α)) (key : κ) : Bool := entries.any (·.1 == key)

def keys (entries : List (κ × α)) : List κ := entries.map (·.1)

def put : List (κ × α) → κ → α → List (κ × α)
  | [], key, value => [(key, value)]
  | (k, v) :: rest, key, value =>
    if k == key then (key, value) :: rest else (k, v) :: put rest key value

def ofList (entries : List (κ × α)) : List (κ × α) :=
  entries.foldl (fun acc (k, v) => put acc k v) []

def putSorted : List (String × α) → String → α → List (String × α)
  | [], key, value => [(key, value)]
  | (k, v) :: rest, key, value =>
    if key == k then (key, value) :: rest
    else if key < k then (key, value) :: (k, v) :: rest
    else (k, v) :: putSorted rest key value

end Assoc

-- A number of a document: an integer, or a double when it was written with a fraction or an
-- exponent or is too large for 64 bits.
inductive Number where
  | int (n : Int)
  | float (x : Binary64)
deriving DecidableEq, Repr

namespace Number

def minInt : Int := -Int.pow 2 63

def maxInt : Int := Int.pow 2 64 - 1

def isInteger : Number → Bool
  | .int _ => true
  | .float _ => false

def toBinary64 : Number → Binary64
  | .int n => .ofInt n
  | .float x => x

def same : Number → Number → Bool
  | .int a, .int b => a == b
  | .float a, .float b => a.same b
  | _, _ => false

end Number

inductive Value where
  | null
  | bool (b : Bool)
  | num (n : Number)
  | str (s : String)
  | arr (items : List Value)
  | obj (fields : List (String × Value))
deriving Inhabited, Repr

namespace Value

def isNull : Value → Bool
  | .null => true
  | _ => false

def asBool? : Value → Option Bool
  | .bool b => some b
  | _ => none

def asString? : Value → Option String
  | .str s => some s
  | _ => none

def asArray? : Value → Option (List Value)
  | .arr items => some items
  | _ => none

def asObject? : Value → Option (List (String × Value))
  | .obj fields => some fields
  | _ => none

def get? (v : Value) (name : String) : Option Value :=
  match v with
  | .obj fields => fields.lookup name
  | _ => none

mutual

def same : Value → Value → Bool
  | .null, .null => true
  | .bool a, .bool b => a == b
  | .num a, .num b => a.same b
  | .str a, .str b => a == b
  | .arr xs, .arr ys => sameItems xs ys
  | .obj xs, .obj ys => xs.length == ys.length && sameFields xs ys
  | _, _ => false
termination_by structural v => v

def sameItems : List Value → List Value → Bool
  | [], [] => true
  | x :: xs, y :: ys => x.same y && sameItems xs ys
  | _, _ => false
termination_by structural xs => xs

def sameFields : List (String × Value) → List (String × Value) → Bool
  | [], _ => true
  | (name, x) :: rest, ys =>
    (match ys.lookup name with
      | some y => x.same y
      | none => false) && sameFields rest ys
termination_by structural xs => xs

end

end Value

end OpenApi
