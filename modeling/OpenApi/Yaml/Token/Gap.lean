import OpenApi.Yaml.Cursor

set_option autoImplicit false

namespace OpenApi.Yaml

-- The gap after the last word: blanks of a line, or the first line break and the others. Both
-- lists of several characters are in reverse order.
inductive Gap where
  | blanks (reversed : List Char)
  | breaks (first : List Char) (others : List Char)
deriving Repr

namespace Gap

def none : Gap := .blanks []

def isNone : Gap → Bool
  | .blanks [] => true
  | _ => false

def hasBreak : Gap → Bool
  | .blanks _ => false
  | .breaks _ _ => true

def addBlank (c : Char) : Gap → Gap
  | .blanks reversed => .blanks (c :: reversed)
  | .breaks first others => .breaks first others

def addBreak (text : List Char) : Gap → Gap
  | .blanks _ => .breaks text []
  | .breaks first others => .breaks first (text.reverse ++ others)

def text : Gap → List Char
  | .blanks reversed => reversed
  | .breaks ['\n'] [] => [' ']
  | .breaks ['\n'] others => others
  | .breaks first others => others ++ first.reverse

end Gap

end OpenApi.Yaml
