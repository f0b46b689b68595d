import OpenApi.Naming
import OpenApi.Text.Words
import OpenApi.Yaml.Reader

set_option autoImplicit false

namespace OpenApi

structure Config where
  target : TargetLanguage := .csharp
  «namespace» : String := "Generated"
  nullableReferenceTypes : Bool := true
  optionalAsNullable : Bool := true
  defaultGroup : String := "Default"
  synthesizeInlineTypes : Bool := true
  uniqueItemsAsSet : Bool := true
deriving DecidableEq, Repr

open Yaml

def TargetLanguage.ofName? : String → Option TargetLanguage
  | "csharp" => some .csharp
  | "typescript" => some .typescript
  | _ => none

namespace Config

def nodeOf? (g : Graph) (n : Node) : Option Node := (g.follow? 0 n).map (·.1)

def textOption? (g : Graph) (n : Node) : Option String := do
  match ← nodeOf? g n with
  | .scalar s => some s.text
  | _ => none

def flagOption? (g : Graph) (n : Node) : Option Bool := do
  match ← nodeOf? g n with
  | .scalar s =>
    if s.style = .plain ∨ (s.style = .literal ∧ s.tag = some "tag:yaml.org,2002:bool") then
      boolWord? s.text
    else none
  | _ => none

-- A language is named by a text, or by a local tag on nothing.
def targetOption? (g : Graph) (n : Node) : Option TargetLanguage := do
  match ← nodeOf? g n with
  | .scalar s =>
    match (s.tag.filter isLocalTag) with
    | none => TargetLanguage.ofName? s.text
    | some tag =>
      if s.style = .plain ∧ (s.text.isEmpty ∨ isNullWord s.text) then
        TargetLanguage.ofName? (String.ofList (tag.toList.drop 1))
      else none
  | _ => none

def put? (g : Graph) (c : Config) (name : String) (n : Node) : Option Config :=
  match name with
  | "target" => do some { c with target := ← targetOption? g n }
  | "namespace" => do some { c with «namespace» := ← textOption? g n }
  | "nullableReferenceTypes" => do some { c with nullableReferenceTypes := ← flagOption? g n }
  | "optionalAsNullable" => do some { c with optionalAsNullable := ← flagOption? g n }
  | "defaultGroup" => do some { c with defaultGroup := ← textOption? g n }
  | "synthesizeInlineTypes" => do some { c with synthesizeInlineTypes := ← flagOption? g n }
  | "uniqueItemsAsSet" => do some { c with uniqueItemsAsSet := ← flagOption? g n }
  | _ => none

def putAll? (g : Graph) (c : Config) (seen : List String) : List (String × Node) → Option Config
  | [] => some c
  | (name, n) :: rest =>
    if seen.contains name then none
    else do putAll? g (← put? g c name n) (name :: seen) rest

def ofGraph? (g : Graph) : Option Config := do
  match ← nodeOf? g g.root with
  | .mapping _ entries =>
    let named ← entries.mapM fun (k, n) => (g.key? 0 k).map fun (name, _) => (name, n)
    putAll? g {} [] named
  | .scalar s => if s.text.isEmpty ∧ s.style = .plain then some {} else none
  | _ => none

def parse? (text : String) : Option Config :=
  if text.toList.all Text.isBlank then some {} else (graph? text).bind ofGraph?

end Config

end OpenApi
