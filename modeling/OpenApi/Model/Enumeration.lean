import OpenApi.Json.Printer
import OpenApi.Naming
import OpenApi.Type.Flags

set_option autoImplicit false

namespace OpenApi

inductive EnumKind where
  | string
  | integer
deriving DecidableEq, Repr

structure EnumMember where
  name : String
  value : Value
  description : Option String

structure EnumModel where
  name : String
  description : Option String
  kind : EnumKind
  members : List EnumMember
  nullable : Bool
  deprecated : Bool

namespace EnumModel

def nameExtensions : List String := ["x-enum-varnames", "x-enumNames"]

def descriptionExtensions : List String := ["x-enum-descriptions"]

def spread : List Value → List (Option String) → List (Option String)
  | [], _ => []
  | value :: values, entries =>
    if value.isNull then none :: spread values entries
    else entries.head?.join :: spread values entries.tail

-- The entries of the first present extension, one for each literal. An extension with one entry
-- for each literal, or for each one but null, is aligned; any other counts as absent.
def aligned (s : Schema) (keys : List String) (values : List Value) : List (Option String) :=
  let none' := values.map fun _ => none
  match (keys.findSome? s.extension?).bind Value.asArray? with
  | none => none'
  | some entries =>
    let entries := entries.map Value.asString?
    if entries.length = values.length then entries
    else if entries.length = (values.filter fun value => !value.isNull).length then
      spread values entries
    else none'

def underscored (text : String) : String :=
  String.ofList (text.toList.map fun c => if c = '.' ∨ c = '-' then '_' else c)

def memberName : Value → String
  | .num (.int n) =>
    if n < 0 then "ValueMinus" ++ natText n.natAbs
    else "Value" ++ natText n.natAbs
  | .num (.float x) => "Value" ++ Naming.typeName (underscored x.text)
  | .str s =>
    if s.isEmpty then "Empty"
    else
      let name := Naming.typeName s
      if name.isEmpty then "Value"
      else if Naming.startsWithDigit name then "Value" ++ name
      else name
  | .bool true => "True"
  | .bool false => "False"
  | _ => "Value"

def explicitName (entry : Option String) : Option String :=
  (entry.map Naming.typeName).filter fun name => !name.isEmpty

def membersAfter (taken : List String) :
    List (Value × Option String × Option String) → List EnumMember
  | [] => []
  | (value, entry, description) :: rest =>
    if value.isNull then membersAfter taken rest
    else
      let name := Naming.unique ((explicitName entry).getD (memberName value)) taken
      ⟨name, value, description⟩ :: membersAfter (taken ++ [name]) rest

def ofSchema (name : String) (s : Schema) : EnumModel :=
  let flags := TypeFlags.ofSchema s
  let values := s.enumValues.getD []
  let names := aligned s nameExtensions values
  let descriptions := aligned s descriptionExtensions values
  { name
    description := s.description
    kind := if flags.single? = some .integer then .integer else .string
    members := membersAfter [] (values.zip (names.zip descriptions))
    nullable := flags.includesNull
    deprecated := s.deprecated.getD false }

end EnumModel

end OpenApi
