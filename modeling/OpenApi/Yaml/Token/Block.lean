import OpenApi.Json.Reader
import OpenApi.Yaml.Cursor

set_option autoImplicit false

namespace OpenApi.Yaml

inductive Chomping where
  | strip
  | clip
  | keep
deriving DecidableEq, Repr

structure BlockHeader where
  chomping : Chomping := .clip
  increment : Nat := 0
deriving Repr

def chompingOf? : Char → Option Chomping
  | '+' => some .keep
  | '-' => some .strip
  | _ => none

def isIncrement (c : Char) : Bool := c.isDigit && c != '0'

-- The header after the indicator, and the count of its characters. An indentation of zero is not
-- allowed.
def blockHeader? : List Char → Option (BlockHeader × Nat)
  | a :: rest =>
    match chompingOf? a with
    | some chomping =>
      match rest with
      | b :: _ =>
        if isIncrement b then some (⟨chomping, Json.digitValue b⟩, 2)
        else if b = '0' then none
        else some (⟨chomping, 0⟩, 1)
      | [] => some (⟨chomping, 0⟩, 1)
    | none =>
      if isIncrement a then
        match rest.head?.bind chompingOf? with
        | some chomping => some (⟨chomping, Json.digitValue a⟩, 2)
        | none => some (⟨.clip, Json.digitValue a⟩, 1)
      else if a = '0' then none
      else some ({}, 0)
  | [] => some ({}, 0)

def skipIndentation (indent : Nat) (cursor : Cursor) : Cursor :=
  let available := (cursor.rest.takeWhile (· == ' ')).length
  if indent = 0 then cursor.skip available
  else cursor.skip (min available (indent - cursor.column))

-- The line breaks before the next line that is not blank, in reverse order, with the greatest
-- column reached. A tab in the place of indentation is not allowed.
def blockBreaks (indent : Nat) :
    Nat → Nat → List Char → Cursor → Option (List Char × Nat × Cursor)
  | 0, _, _, _ => none
  | fuel + 1, widest, acc, cursor =>
    let cursor := skipIndentation indent cursor
    let widest := max widest cursor.column
    if (indent = 0 ∨ cursor.column < indent) ∧ cursor.rest.head? = some '\t' then none
    else if cursor.rest.head?.any isBreak then
      let (text, after) := cursor.readBreak
      blockBreaks indent fuel widest (text.reverse ++ acc) after
    else some (acc, widest, cursor)

-- The lines of a block scalar after what is read so far: the text in reverse, the break after the
-- last line, the breaks of blank lines after it in reverse, and whether that line starts with a
-- blank.
def blockLines (literal : Bool) (indent : Nat) :
    Nat → List Char → List Char → List Char → Bool → Cursor →
      Option (List Char × List Char × List Char × Cursor)
  | 0, _, _, _, _, _ => none
  | fuel + 1, acc, last, blank, leadingBlank, cursor =>
    if cursor.column ≠ indent ∨ cursor.rest.isEmpty then some (acc, last, blank, cursor)
    else
      let startsBlank := cursor.rest.head?.any isSpace
      let acc :=
        if !literal && last == ['\n'] && !leadingBlank && !startsBlank then
          if blank.isEmpty then ' ' :: acc else acc
        else last.reverse ++ acc
      let line := cursor.rest.takeWhile fun c => !isBreak c
      let (last, after) := (cursor.skip line.length).readBreak
      match blockBreaks indent (after.rest.length + 1) 0 [] after with
      | none => none
      | some (breaks, _, after) =>
        blockLines literal indent fuel (line.reverse ++ (blank ++ acc)) last breaks startsBlank
          after

def afterHeader? (cursor : Cursor) : Option Cursor :=
  let cursor := cursor.skipWhile isSpace
  let cursor :=
    if cursor.rest.head? = some '#' then cursor.skipWhile fun c => !isBreak c else cursor
  if endsLine cursor.rest then some cursor.readBreak.2 else none

def blockScalar? (literal : Bool) (parent : Int) (cursor : Cursor) : Option (String × Cursor) := do
  let (header, count) ← blockHeader? (cursor.rest.drop 1)
  let cursor ← afterHeader? (cursor.skip (count + 1))
  let stated := if header.increment = 0 then 0 else header.increment + parent.toNat
  let (breaks, widest, cursor) ← blockBreaks stated (cursor.rest.length + 1) 0 [] cursor
  let indent := if stated = 0 then max (max widest (parent + 1).toNat) 1 else stated
  let (acc, last, blank, cursor) ←
    blockLines literal indent (cursor.rest.length + 1) [] [] breaks false cursor
  let acc :=
    match header.chomping with
    | .strip => acc
    | .clip => last.reverse ++ acc
    | .keep => blank ++ (last.reverse ++ acc)
  some (String.ofList acc.reverse, cursor)

end OpenApi.Yaml
