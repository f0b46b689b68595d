set_option autoImplicit false

namespace OpenApi.Yaml

def isSpace (c : Char) : Bool := c == ' ' || c == '\t'

def isBreak (c : Char) : Bool :=
  c == '\n' || c == '\r' || c == '\u0085' || c == '\u2028' || c == '\u2029'

def isNameChar (c : Char) : Bool := c.isAlphanum || c == '_' || c == '-'

def isAllowed (c : Char) : Bool :=
  let n := c.toNat
  n == 0x09 || n == 0x0A || n == 0x0D || decide (0x20 ≤ n ∧ n ≤ 0x7E) || n == 0x85
    || decide (0xA0 ≤ n ∧ n ≤ 0xD7FF) || decide (0xE000 ≤ n ∧ n ≤ 0xFFFD)
    || decide (0x10000 ≤ n)

def endsWord : List Char → Bool
  | [] => true
  | c :: _ => isSpace c || isBreak c

def endsLine : List Char → Bool
  | [] => true
  | c :: _ => isBreak c

structure Cursor where
  rest : List Char
  index : Nat := 0
  line : Nat := 0
  column : Nat := 0
deriving Repr

namespace Cursor

def skip (c : Cursor) (count : Nat) : Cursor :=
  { c with
    rest := c.rest.drop count
    index := c.index + count
    column := c.column + count }

def skipWhile (c : Cursor) (which : Char → Bool) : Cursor :=
  c.skip (c.rest.takeWhile which).length

def newLine (c : Cursor) (count : Nat) : Cursor :=
  { rest := c.rest.drop count
    index := c.index + count
    line := c.line + 1
    column := 0 }

def readBreak (c : Cursor) : List Char × Cursor :=
  match c.rest with
  | '\r' :: '\n' :: _ => (['\n'], c.newLine 2)
  | ch :: _ =>
    if ch == '\n' || ch == '\r' || ch == '\u0085' then (['\n'], c.newLine 1)
    else if isBreak ch then ([ch], c.newLine 1)
    else ([], c)
  | [] => ([], c)

def atDocumentStart (c : Cursor) : Bool :=
  c.column == 0 &&
    match c.rest with
    | '-' :: '-' :: '-' :: rest => endsWord rest
    | _ => false

def atDocumentEnd (c : Cursor) : Bool :=
  c.column == 0 &&
    match c.rest with
    | '.' :: '.' :: '.' :: rest => endsWord rest
    | _ => false

def atDocumentMark (c : Cursor) : Bool := c.atDocumentStart || c.atDocumentEnd

end Cursor

end OpenApi.Yaml
