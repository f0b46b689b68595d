import OpenApi.Yaml.Token
import OpenApi.Yaml.Token.Block
import OpenApi.Yaml.Token.Plain
import OpenApi.Yaml.Token.Quoted
import OpenApi.Yaml.Token.Tag

set_option autoImplicit false

namespace OpenApi.Yaml

-- A scalar turns out to be a key when its colon is met, so the place of its token is kept for as long
-- as the colon can follow.
structure KeyStart where
  required : Bool
  place : Nat
  index : Nat
  line : Nat
  column : Nat
deriving Repr

structure Lexer where
  cursor : Cursor
  tokens : List Token := []
  count : Nat := 0
  indent : Int := -1
  indents : List Int := []
  -- The possible keys of the block and of each open flow collection, innermost first.
  keys : List (Option KeyStart) := [none]
  keyAllowed : Bool := true
deriving Repr

namespace Lexer

def inFlow (l : Lexer) : Bool := decide (1 < l.keys.length)

def push (l : Lexer) (t : Token) : Lexer :=
  { l with tokens := t :: l.tokens, count := l.count + 1 }

def insert (l : Lexer) (place : Nat) (t : Token) : Lexer :=
  let later := l.count - place
  { l with
    tokens := l.tokens.take later ++ t :: l.tokens.drop later
    count := l.count + 1 }

def skip (l : Lexer) (count : Nat) : Lexer := { l with cursor := l.cursor.skip count }

def allowKey (l : Lexer) (allowed : Bool) : Lexer := { l with keyAllowed := allowed }

-- Blanks, comments and line breaks passed over. Tabs count as blanks where no key can start.
def skipGap (l : Lexer) : Nat → Lexer
  | 0 => l
  | fuel + 1 =>
    let cursor :=
      if l.cursor.column = 0 ∧ l.cursor.rest.head? = some '\ufeff' then l.cursor.skip 1
      else l.cursor
    let cursor := cursor.skipWhile fun c =>
      c == ' ' || (c == '\t' && (l.inFlow || !l.keyAllowed))
    let cursor :=
      if cursor.rest.head? = some '#' then cursor.skipWhile fun c => !isBreak c else cursor
    if cursor.rest.head?.any isBreak then
      skipGap
        { l with cursor := cursor.readBreak.2, keyAllowed := l.keyAllowed || !l.inFlow } fuel
    else { l with cursor := cursor }

-- Possible keys whose colon can no longer follow are given up; none of them may be required.
def dropStaleKeys (l : Lexer) : Option Lexer := do
  let keys ← l.keys.mapM fun key =>
    match key with
    | none => some none
    | some k =>
      if k.line < l.cursor.line ∨ k.index + 1024 < l.cursor.index then
        if k.required then none else some none
      else some (some k)
  some { l with keys := keys }

def dropKey (l : Lexer) : Option Lexer :=
  match l.keys with
  | some k :: rest => if k.required then none else some { l with keys := none :: rest }
  | _ => some l

def markKey (l : Lexer) : Option Lexer :=
  if l.keyAllowed then do
    let l ← l.dropKey
    let key : KeyStart := {
      required := !l.inFlow && l.indent == (l.cursor.column : Int)
      place := l.count
      index := l.cursor.index
      line := l.cursor.line
      column := l.cursor.column }
    some { l with keys := some key :: l.keys.tail }
  else some l

def openBlock (l : Lexer) (column place : Nat) (start : Token) : Lexer :=
  if !l.inFlow && decide (l.indent < (column : Int)) then
    { l.insert place start with indent := column, indents := l.indent :: l.indents }
  else l

def closeBlocksOf (l : Lexer) (column : Int) : List Int → Lexer
  | [] => l
  | outer :: rest =>
    if column < l.indent then
      closeBlocksOf { l.push .blockEnd with indent := outer, indents := rest } column rest
    else l

def closeBlocks (l : Lexer) (column : Int) : Lexer :=
  if l.inFlow then l else l.closeBlocksOf column l.indents

def finish (l : Lexer) : Option Lexer := (l.closeBlocks (-1)).dropKey

def directiveNumber? (cursor : Cursor) : Option (Nat × Cursor) :=
  let digits := cursor.rest.takeWhile Char.isDigit
  if digits.isEmpty || decide (9 < digits.length) then none
  else some (Json.decimalValue digits, cursor.skip digits.length)

def versionDirective? (cursor : Cursor) : Option (Token × Cursor) := do
  let (major, cursor) ← directiveNumber? (cursor.skipWhile isSpace)
  if cursor.rest.head? = some '.' then
    let (minor, cursor) ← directiveNumber? (cursor.skip 1)
    some (.versionDirective major minor, cursor)
  else none

def tagDirective? (cursor : Cursor) : Option (Token × Cursor) := do
  let (handle, cursor) ← tagHandle? (cursor.skipWhile isSpace)
  if handle.toList.getLast? = some '!' ∧ cursor.rest.head?.any isSpace then
    let (start, cursor) ← tagText? true (cursor.skipWhile isSpace)
    if !start.isEmpty && endsWord cursor.rest then some (.tagDirective handle start, cursor)
    else none
  else none

def directive? (cursor : Cursor) : Option (Token × Cursor) := do
  let name := (cursor.rest.drop 1).takeWhile isNameChar
  let cursor := cursor.skip (name.length + 1)
  if !endsWord cursor.rest then none
  else
    let (token, cursor) ←
      if name = "YAML".toList then versionDirective? cursor
      else if name = "TAG".toList then tagDirective? cursor
      else none
    let cursor ← afterHeader? cursor
    some (token, cursor)

def anchorName? (cursor : Cursor) : Option (String × Cursor) :=
  let name := (cursor.rest.drop 1).takeWhile isNameChar
  let after := cursor.skip (name.length + 1)
  if name.isEmpty then none
  else if endsWord after.rest || after.rest.head?.any "?:,]\x7d%@\x60".toList.contains then
    some (String.ofList name, after)
  else none

def readDirective (l : Lexer) : Option Lexer := do
  let l ← (l.closeBlocks (-1)).dropKey
  let (token, cursor) ← directive? l.cursor
  some { l.push token with cursor := cursor, keyAllowed := false }

def readDocumentMark (l : Lexer) (token : Token) : Option Lexer := do
  let l ← (l.closeBlocks (-1)).dropKey
  some (((l.allowKey false).skip 3).push token)

def readFlowStart (l : Lexer) (token : Token) : Option Lexer := do
  let l ← l.markKey
  some (({ l with keys := none :: l.keys, keyAllowed := true }.skip 1).push token)

def readFlowEnd (l : Lexer) (token : Token) : Option Lexer := do
  let l ← l.dropKey
  let keys := if l.inFlow then l.keys.tail else l.keys
  some (({ l with keys := keys, keyAllowed := false }.skip 1).push token)

def readFlowEntry (l : Lexer) : Option Lexer := do
  let l ← l.dropKey
  some (((l.allowKey true).skip 1).push .flowEntry)

def openAtIndicator (l : Lexer) (start : Token) : Option Lexer :=
  if l.inFlow then some l
  else if l.keyAllowed then some (l.openBlock l.cursor.column l.count start)
  else none

def readBlockEntry (l : Lexer) : Option Lexer := do
  let l ← (← l.openAtIndicator .blockSequenceStart).dropKey
  some (((l.allowKey true).skip 1).push .blockEntry)

def readKey (l : Lexer) : Option Lexer := do
  let l ← (← l.openAtIndicator .blockMappingStart).dropKey
  some (((l.allowKey !l.inFlow).skip 1).push .key)

def readValue (l : Lexer) : Option Lexer :=
  match l.keys with
  | some k :: rest =>
    let l := (l.insert k.place .key).openBlock k.column k.place .blockMappingStart
    some (({ l with keys := none :: rest, keyAllowed := false }.skip 1).push .value)
  | _ => do
    let l ← l.openAtIndicator .blockMappingStart
    some (((l.allowKey !l.inFlow).skip 1).push .value)

def readNamed (l : Lexer) (token : String → Token) : Option Lexer := do
  let l ← l.markKey
  let (name, cursor) ← anchorName? l.cursor
  some { l.push (token name) with cursor := cursor, keyAllowed := false }

def readTag (l : Lexer) : Option Lexer := do
  let l ← l.markKey
  let (handle, suffix, cursor) ← tagToken? l.inFlow l.cursor
  some { l.push (.tag handle suffix) with cursor := cursor, keyAllowed := false }

def readBlockScalar (l : Lexer) (style : Style) : Option Lexer := do
  let l ← l.dropKey
  let (text, cursor) ← blockScalar? (style == .literal) l.indent l.cursor
  some { l.push (.scalar text style) with cursor := cursor, keyAllowed := true }

def readQuoted (l : Lexer) (single : Bool) : Option Lexer := do
  let l ← l.markKey
  let (text, cursor) ← quotedScalar? single l.cursor
  some { l.push (.scalar text .quoted) with cursor := cursor, keyAllowed := false }

def readPlain (l : Lexer) : Option Lexer := do
  let l ← l.markKey
  let (text, afterBreak, cursor) ← plainScalar? l.inFlow (l.indent + 1) l.cursor
  some { l.push (.scalar text .plain) with cursor := cursor, keyAllowed := afterBreak }

def isIndicator (c : Char) : Bool := "-?:,[]\x7b\x7d#&*!|>'\"%@\x60".toList.contains c

def startsPlain (l : Lexer) (c : Char) (rest : List Char) : Bool :=
  (!isSpace c && !isBreak c && !isIndicator c)
    || (c == '-' && !rest.head?.any isSpace)
    || (!l.inFlow && (c == '?' || c == ':') && !endsWord rest)

def readToken (l : Lexer) (c : Char) (rest : List Char) : Option Lexer :=
  if l.cursor.column = 0 ∧ c = '%' then l.readDirective
  else if l.cursor.atDocumentStart then l.readDocumentMark .documentStart
  else if l.cursor.atDocumentEnd then l.readDocumentMark .documentEnd
  else if c = '[' then l.readFlowStart .flowSequenceStart
  else if c = '\x7b' then l.readFlowStart .flowMappingStart
  else if c = ']' then l.readFlowEnd .flowSequenceEnd
  else if c = '\x7d' then l.readFlowEnd .flowMappingEnd
  else if c = ',' then l.readFlowEntry
  else if c = '-' ∧ endsWord rest then l.readBlockEntry
  else if c = '?' ∧ (l.inFlow ∨ endsWord rest) then l.readKey
  else if c = ':' ∧ (l.inFlow ∨ endsWord rest) then l.readValue
  else if c = '*' then l.readNamed .alias
  else if c = '&' then l.readNamed .anchor
  else if c = '!' then l.readTag
  else if c = '|' ∧ !l.inFlow then l.readBlockScalar .literal
  else if c = '>' ∧ !l.inFlow then l.readBlockScalar .folded
  else if c = '\'' then l.readQuoted true
  else if c = '"' then l.readQuoted false
  else if l.startsPlain c rest then l.readPlain
  else none

def run : Nat → Lexer → Option Lexer
  | 0, _ => none
  | fuel + 1, l => do
    let l ← (l.skipGap (l.cursor.rest.length + 1)).dropStaleKeys
    match l.cursor.rest with
    | [] => l.finish
    | c :: rest =>
      let l ← (l.closeBlocks l.cursor.column).readToken c rest
      run fuel l

end Lexer

def tokens? (text : String) : Option (List Token) :=
  let cs := text.toList
  if cs.all isAllowed then
    (Lexer.run (cs.length + 1) { cursor := { rest := cs } }).map fun l => l.tokens.reverse
  else none

end OpenApi.Yaml
