import OpenApi.Json.Value
import OpenApi.Yaml.Core
import OpenApi.Yaml.Node.OfTokens
import OpenApi.Yaml.Token.Lexer

set_option autoImplicit false

namespace OpenApi.Yaml

def graph? (text : String) : Option Graph := (tokens? text).bind Graph.ofTokens?

def maxDepth : Nat := 128

namespace Graph

def maxJumps (g : Graph) : Nat := 100 * g.size

def follow? (g : Graph) (jumps : Nat) : Node → Option (Node × Nat)
  | .alias target =>
    if jumps < g.maxJumps then (g.anchored.lookup target).map fun n => (n, jumps + 1) else none
  | n => some (n, jumps)

def key? (g : Graph) (jumps : Nat) (n : Node) : Option (String × Nat) := do
  match ← g.follow? jumps n with
  | (.scalar s, jumps) => some (s.text, jumps)
  | _ => none

def readItems {α β : Type} (read : Nat → α → Option (β × Nat)) :
    Nat → List α → Option (List β × Nat)
  | jumps, [] => some ([], jumps)
  | jumps, a :: rest => do
    let (b, jumps) ← read jumps a
    let (others, jumps) ← readItems read jumps rest
    some (b :: others, jumps)

def valueOf? (g : Graph) (depth jumps : Nat) (n : Node) : Option (Value × Nat) := do
  match ← g.follow? jumps n with
  | (.scalar s, jumps) =>
    match s.denoted with
    | .value v => some (v, jumps)
    | .unsupported => none
  | (.sequence tag items, jumps) =>
    if tag.any isLocalTag then none
    else
      match depth with
      | 0 => none
      | depth + 1 => do
        let (values, jumps) ← readItems (g.valueOf? depth) jumps items
        some (.arr values, jumps)
  | (.mapping tag entries, jumps) =>
    if tag.any isLocalTag then none
    else
      match depth with
      | 0 => none
      | depth + 1 => do
        let read := fun (jumps : Nat) (entry : Node × Node) => do
          let (name, jumps) ← g.key? jumps entry.1
          let (v, jumps) ← g.valueOf? depth jumps entry.2
          some ((name, v), jumps)
        let (fields, jumps) ← readItems read jumps entries
        some (.obj (Assoc.ofList fields), jumps)
  | (.alias _, _) => none

end Graph

def value? (text : String) : Option Value := do
  let g ← graph? text
  let (v, _) ← g.valueOf? maxDepth 0 g.root
  some v

end OpenApi.Yaml
