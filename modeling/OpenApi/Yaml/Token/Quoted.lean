import OpenApi.Json.Reader
import OpenApi.Yaml.Token.Gap

set_option autoImplicit false

namespace OpenApi.Yaml

def simpleEscape? : Char → Option Char
  | '0' => some '\x00'
  | 'a' => some '\x07'
  | 'b' => some '\x08'
  | 't' => some '\t'
  | '\t' => some '\t'
  | 'n' => some '\n'
  | 'v' => some '\x0b'
  | 'f' => some '\x0c'
  | 'r' => some '\r'
  | 'e' => some '\x1b'
  | ' ' => some ' '
  | '"' => some '"'
  | '/' => some '/'
  | '\\' => some '\\'
  | 'N' => some '\u0085'
  | '_' => some '\u00a0'
  | 'L' => some '\u2028'
  | 'P' => some '\u2029'
  | _ => none

def escapeDigits? : Char → Option Nat
  | 'x' => some 2
  | 'u' => some 4
  | 'U' => some 8
  | _ => none

def hexNumber? (digits : List Char) : Option Nat :=
  digits.foldlM (fun n c => (Json.hexValue? c).map fun d => 16 * n + d) 0

def codePoint? (n : Nat) : Option Char :=
  if (0xD800 ≤ n ∧ n ≤ 0xDFFF) ∨ 0x10FFFF < n then none else some (Char.ofNat n)

def escape? : List Char → Option (Char × Nat)
  | [] => none
  | kind :: rest =>
    match simpleEscape? kind with
    | some c => some (c, 1)
    | none => do
      let count ← escapeDigits? kind
      let digits := rest.take count
      if digits.length = count then
        let c ← codePoint? (← hexNumber? digits)
        some (c, count + 1)
      else none

def quotedChars (single : Bool) :
    Nat → List Char → Gap → Cursor → Option (List Char × Cursor)
  | 0, _, _, _ => none
  | fuel + 1, acc, gap, cursor =>
    match cursor.rest with
    | [] => none
    | c :: rest =>
      if isSpace c then quotedChars single fuel acc (gap.addBlank c) (cursor.skip 1)
      else if isBreak c then
        let (text, after) := cursor.readBreak
        quotedChars single fuel acc (gap.addBreak text) after
      else if cursor.atDocumentMark then none
      else
        let acc := gap.text ++ acc
        if c = '\'' ∧ single then
          if rest.head? = some '\'' then
            quotedChars single fuel ('\'' :: acc) .none (cursor.skip 2)
          else some (acc, cursor.skip 1)
        else if c = '"' ∧ !single then some (acc, cursor.skip 1)
        else if c = '\\' ∧ !single then
          if !rest.isEmpty && endsLine rest then
            let (_, after) := (cursor.skip 1).readBreak
            quotedChars single fuel acc (.breaks [] []) after
          else
            match escape? rest with
            | some (decoded, count) =>
              quotedChars single fuel (decoded :: acc) .none (cursor.skip (count + 1))
            | none => none
        else quotedChars single fuel (c :: acc) .none (cursor.skip 1)

def quotedScalar? (single : Bool) (cursor : Cursor) : Option (String × Cursor) :=
  (quotedChars single (cursor.rest.length + 1) [] .none (cursor.skip 1)).map
    fun (acc, after) => (String.ofList acc.reverse, after)

end OpenApi.Yaml
