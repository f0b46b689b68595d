import OpenApi.Decode.Fault
import OpenApi.Json.Value

set_option autoImplicit false

namespace OpenApi.Decode

variable {α : Type}

abbrev Result (α : Type) := Except Fault α

def string : Value → Result String
  | .str s => .ok s
  | v => .error (.invalidType v "a string")

def boolean : Value → Result Bool
  | .bool b => .ok b
  | v => .error (.invalidType v "a boolean")

-- A natural number; a negative integer is of the right type and of the wrong value.
def natural : Value → Result Nat
  | .num (.int n) =>
    if 0 ≤ n then .ok n.toNat else .error (.invalidValue (.num (.int n)) "u64")
  | v => .error (.invalidType v "u64")

def number : Value → Result Number
  | .num n => .ok n
  | v => .error (.invalidType v "a JSON number")

def value (v : Value) : Result Value := .ok v

def optional (read : Value → Result α) : Value → Result (Option α)
  | .null => .ok none
  | v => (read v).map some

def list (read : Value → Result α) : Value → Result (List α)
  | .arr items => items.mapM read
  | v => .error (.invalidType v "a sequence")

def entries (read : Value → Result α) : List (String × Value) → Result (List (String × α))
  | [] => .ok []
  | (name, v) :: rest => do
    let item ← read v
    let others ← entries read rest
    .ok ((name, item) :: others)

def map (read : Value → Result α) : Value → Result (List (String × α))
  | .obj fields => entries read fields
  | v => .error (.invalidType v "a map")

def require (fields : List (String × Value)) : List String → Result Unit
  | [] => .ok ()
  | name :: rest =>
    if Assoc.contains fields name then require fields rest else .error (.missingField name)

def fields (put : α → String → Value → Result α) (start : α) :
    List (String × Value) → Result α
  | [] => .ok start
  | (name, v) :: rest => do
    let next ← put start name v
    fields put next rest

-- The shape of a record: its name in messages, its fields in order, those that must be present,
-- and those that a list of fields may leave out at its end.
structure Shape where
  name : String
  fieldNames : List String
  required : List String := []
  defaulted : List String := []

namespace Shape

def wanted (shape : Shape) : String := "struct " ++ shape.name

def elements (count : Nat) : String :=
  natText count ++ if count = 1 then " element" else " elements"

def ofFields (shape : Shape) (put : α → String → Value → Result α) (start : α)
    (present : List (String × Value)) : Result α := do
  let record ← fields put start present
  require present shape.required
  .ok record

-- The place of the first field that a list of that many fields lacks and that has no default.
def lacking? (shape : Shape) (count : Nat) : Option Nat :=
  (shape.fieldNames.zipIdx.drop count).findSome? fun (name, place) =>
    if shape.defaulted.contains name then none else some place

-- A record written as the list of its fields; `surplus` is the fault of too long a list.
def ofItems (shape : Shape) (put : α → String → Value → Result α) (start : α)
    (surplus : Fault) (items : List Value) : Result α := do
  let record ← fields put start (shape.fieldNames.zip items)
  match shape.lacking? items.length with
  | some place =>
    .error (.invalidLength place (shape.wanted ++ " with " ++ elements shape.fieldNames.length))
  | none => if shape.fieldNames.length < items.length then .error surplus else .ok record

def read (shape : Shape) (put : α → String → Value → Result α) (start : α) :
    Value → Result α
  | .obj present => shape.ofFields put start present
  | .arr items =>
    shape.ofItems put start (.invalidLength items.length "fewer elements in array") items
  | v => .error (.invalidType v shape.wanted)

def readObject (shape : Shape) (put : α → String → Value → Result α) (start : α) :
    Value → Result α
  | .obj present => shape.ofFields put start present
  | v => .error (.invalidType v shape.wanted)

end Shape

end OpenApi.Decode
