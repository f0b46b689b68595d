import OpenApi.Yaml.Token.Gap

set_option autoImplicit false

namespace OpenApi.Yaml

def isFlowIndicator (c : Char) : Bool :=
  c == ',' || c == '[' || c == ']' || c == '\x7b' || c == '\x7d'

def endsPlain (flow : Bool) (c : Char) (rest : List Char) : Bool :=
  (c == ':' && endsWord rest) || (flow && isFlowIndicator c)

def isMisplacedColon (flow : Bool) (c : Char) (rest : List Char) : Bool :=
  flow && c == ':' && rest.head?.any fun next => next == '?' || isFlowIndicator next

def plainChars (flow : Bool) (indent : Int) :
    Nat → List Char → Gap → Cursor → Option (List Char × Gap × Cursor)
  | 0, _, _, _ => none
  | fuel + 1, acc, gap, cursor =>
    match cursor.rest with
    | [] => some (acc, gap, cursor)
    | c :: rest =>
      if isSpace c then
        if c = '\t' ∧ gap.hasBreak ∧ (cursor.column : Int) < indent then none
        else plainChars flow indent fuel acc (gap.addBlank c) (cursor.skip 1)
      else if isBreak c then
        let (text, after) := cursor.readBreak
        plainChars flow indent fuel acc (gap.addBreak text) after
      else if !gap.isNone && !flow && decide ((cursor.column : Int) < indent) then
        some (acc, gap, cursor)
      else if cursor.atDocumentMark || (c == '#' && !gap.isNone) then some (acc, gap, cursor)
      else if isMisplacedColon flow c rest then none
      else if endsPlain flow c rest then some (acc, gap, cursor)
      else plainChars flow indent fuel (c :: (gap.text ++ acc)) .none (cursor.skip 1)

def plainScalar? (flow : Bool) (indent : Int) (cursor : Cursor) :
    Option (String × Bool × Cursor) :=
  (plainChars flow indent (cursor.rest.length + 1) [] .none cursor).map
    fun (acc, gap, after) => (String.ofList acc.reverse, gap.hasBreak, after)

end OpenApi.Yaml
