import OpenApi.Text.Utf8
import OpenApi.Yaml.Cursor

set_option autoImplicit false

namespace OpenApi.Yaml

-- Characters of a tag; commas and brackets may occur only between angle brackets and in
-- directives.
def isTagChar (whole : Bool) (c : Char) : Bool :=
  isNameChar c || ";/?:@&=+$.%!~*'()".toList.contains c || (whole && ",[]".toList.contains c)

def escapedBytes? : Nat → List Char → Option (List Nat × List Char)
  | 0, cs => some ([], cs)
  | count + 1, '%' :: high :: low :: rest => do
    let b ← Text.hexByte? high low
    let (others, rest) ← escapedBytes? count rest
    some (b :: others, rest)
  | _ + 1, _ => none

def byteWidth? (b : Nat) : Option Nat :=
  if b < 0x80 then some 1
  else if 0xC0 ≤ b ∧ b < 0xE0 then some 2
  else if 0xE0 ≤ b ∧ b < 0xF0 then some 3
  else if 0xF0 ≤ b ∧ b < 0xF8 then some 4
  else none

def escapedChar? (cs : List Char) : Option (Char × Nat) := do
  let (first, _) ← escapedBytes? 1 cs
  let width ← byteWidth? (first.headD 0)
  let (bytes, _) ← escapedBytes? width cs
  match Text.decodeStrict? bytes with
  | some [c] => some (c, width)
  | _ => none

def tagChars? (whole : Bool) : Nat → List Char → Cursor → Option (List Char × Cursor)
  | 0, _, _ => none
  | fuel + 1, acc, cursor =>
    match cursor.rest with
    | [] => some (acc, cursor)
    | c :: _ =>
      if c = '%' then
        match escapedChar? cursor.rest with
        | some (decoded, count) => tagChars? whole fuel (decoded :: acc) (cursor.skip (3 * count))
        | none => none
      else if isTagChar whole c then tagChars? whole fuel (c :: acc) (cursor.skip 1)
      else some (acc, cursor)

def tagText? (whole : Bool) (cursor : Cursor) : Option (String × Cursor) :=
  (tagChars? whole (cursor.rest.length + 1) [] cursor).map
    fun (acc, after) => (String.ofList acc.reverse, after)

def tagHandle? (cursor : Cursor) : Option (String × Cursor) :=
  match cursor.rest with
  | '!' :: rest =>
    let name := rest.takeWhile isNameChar
    let after := cursor.skip (name.length + 1)
    if after.rest.head? = some '!' then
      some ("!" ++ String.ofList name ++ "!", after.skip 1)
    else some ("!" ++ String.ofList name, after)
  | _ => none

def tagToken? (flow : Bool) (cursor : Cursor) : Option (String × String × Cursor) := do
  let (handle, suffix, after) ←
    if (cursor.rest.drop 1).head? = some '<' then do
      let (name, after) ← tagText? true (cursor.skip 2)
      if name.isEmpty || after.rest.head? != some '>' then none
      else some ("", name, after.skip 1)
    else do
      let (handle, after) ← tagHandle? cursor
      if 1 < handle.length ∧ handle.toList.getLast? = some '!' then
        let (suffix, after) ← tagText? false after
        if suffix.isEmpty then none else some (handle, suffix, after)
      else
        let (more, after) ← tagText? false after
        let suffix := String.ofList (handle.toList.drop 1) ++ more
        if suffix.isEmpty then some ("", "!", after) else some ("!", suffix, after)
  if endsWord after.rest || (flow && after.rest.head? == some ',') then
    some (handle, suffix, after)
  else none

end OpenApi.Yaml
