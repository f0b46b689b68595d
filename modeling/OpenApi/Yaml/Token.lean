set_option autoImplicit false

namespace OpenApi.Yaml

inductive Style where
  | plain
  | quoted
  | literal
  | folded
deriving DecidableEq, Repr

inductive Token where
  | versionDirective (major minor : Nat)
  | tagDirective (handle start : String)
  | documentStart
  | documentEnd
  | blockSequenceStart
  | blockMappingStart
  | blockEnd
  | flowSequenceStart
  | flowSequenceEnd
  | flowMappingStart
  | flowMappingEnd
  | blockEntry
  | flowEntry
  | key
  | value
  | alias (name : String)
  | anchor (name : String)
  | tag (handle suffix : String)
  | scalar (text : String) (style : Style)
deriving DecidableEq, Repr

structure Scalar where
  text : String
  style : Style
  tag : Option String := none
deriving DecidableEq, Repr

inductive Node where
  | scalar (s : Scalar)
  | alias (target : Nat)
  | sequence (tag : Option String) (items : List Node)
  | mapping (tag : Option String) (entries : List (Node × Node))
deriving Inhabited, Repr

structure Graph where
  root : Node
  anchored : List (Nat × Node)
  size : Nat
deriving Repr

def Node.empty : Node := .scalar { text := "", style := .plain }

end OpenApi.Yaml
