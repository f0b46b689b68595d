import OpenApi.Naming
import OpenApi.Text.Utf8
import OpenApi.Text.Words

set_option autoImplicit false

namespace OpenApi.Url

inductive Scheme where
  | web
  | file
  | other
deriving DecidableEq, Repr

namespace Scheme

def ofName (name : List Char) : Scheme :=
  if ["http", "https", "ws", "wss", "ftp"].contains (String.ofList name) then .web
  else if String.ofList name = "file" then .file
  else .other

def isSpecial (s : Scheme) : Bool := s != .other

def isSlash (s : Scheme) (c : Char) : Bool := c == '/' || (c == '\\' && s.isSpecial)

def endsAuthority (s : Scheme) (c : Char) : Bool := s.isSlash c || c == '?' || c == '#'

end Scheme

def isControl (c : Char) : Bool := decide (c.toNat < 0x20) || c.toNat == 0x7F

def cleaned (text : List Char) : List Char :=
  (Text.trimBy (fun c => decide (c.toNat ≤ 0x20)) text).filter fun c =>
    c != '\t' && c != '\n' && c != '\r'

def scheme? (text : List Char) : Option (List Char × List Char) :=
  let name := text.takeWhile fun c => c.isAlphanum || c == '+' || c == '-' || c == '.'
  match name, text.drop name.length with
  | c :: _, ':' :: rest => if c.isAlpha then some (Text.asciiLower name, rest) else none
  | _, _ => none

def hexPair (n : Nat) : List Char := [Json.hexDigit (n / 16), Json.hexDigit n].map Char.toUpper

def encodeChar (c : Char) : List Char := (Text.utf8Bytes c).flatMap fun b => '%' :: hexPair b

def mustEncode (c : Char) : Bool :=
  isControl c || decide (0x7E < c.toNat) || " \"<>\x60#?\x7b\x7d".toList.contains c

def encodeSegment (segment : List Char) : List Char :=
  segment.flatMap fun c => if mustEncode c then encodeChar c else [c]

def isSingleDot (segment : List Char) : Bool :=
  [".", "%2e"].contains (String.ofList (Text.asciiLower segment))

def isDoubleDot (segment : List Char) : Bool :=
  ["..", ".%2e", "%2e.", "%2e%2e"].contains (String.ofList (Text.asciiLower segment))

def segments (s : Scheme) (text : List Char) : List (List Char) :=
  let path := text.takeWhile fun c => c != '?' && c != '#'
  Naming.splitAt '/' (path.map fun c => if s.isSlash c then '/' else c)

-- The segments resolved, in reverse order: one dot is dropped, two dots drop the segment before
-- them.
def resolve (acc : List (List Char)) : List (List Char) → List (List Char)
  | [] => acc
  | segment :: rest =>
    if isDoubleDot segment then resolve acc.tail rest
    else if isSingleDot segment then resolve acc rest
    else resolve (encodeSegment segment :: acc) rest

def absolute (s : Scheme) (text : List Char) : List Char :=
  (resolve [] (segments s text)).reverse.flatMap fun segment => '/' :: segment

def hostNumber? (part : List Char) : Option Nat :=
  let read := fun (radix : Nat) (digits : List Char) =>
    digits.foldlM (fun n c => ((Json.hexValue? c).filter fun d => decide (d < radix)).map fun d =>
      radix * n + d) 0
  match part with
  | [] => none
  | '0' :: x :: digits =>
    if x = 'x' ∨ x = 'X' then read 16 digits else read 8 (x :: digits)
  | digits => read 10 digits

def hostParts (host : List Char) : List (List Char) :=
  let parts := Naming.splitAt '.' host
  if 1 < parts.length ∧ parts.getLast? = some [] then parts.dropLast else parts

def endsInNumber (host : List Char) : Bool :=
  match (hostParts host).getLast? with
  | none => false
  | some part => !part.isEmpty && (part.all Char.isDigit || (hostNumber? part).isSome)

-- At most four numbers: all but the last are bytes, the last fills the bytes that are left.
def isNumericAddress (host : List Char) : Bool :=
  let parts := hostParts host
  match parts.mapM hostNumber? with
  | none => false
  | some numbers =>
    decide (numbers.length ≤ 4) && numbers.dropLast.all (fun n => decide (n < 256))
      && decide (numbers.getLastD 0 < Nat.pow 256 (5 - numbers.length))

def groups (text : List Char) : List (List Char) :=
  if text.isEmpty then [] else Naming.splitAt ':' text

def doubleColon? (before : List Char) : List Char → Option (List Char × List Char)
  | ':' :: ':' :: rest => some (before.reverse, rest)
  | c :: rest => doubleColon? (c :: before) rest
  | [] => none

def isDottedQuad (text : List Char) : Bool :=
  let parts := Naming.splitAt '.' text
  decide (parts.length = 4) && parts.all fun part =>
    !part.isEmpty && part.all Char.isDigit && decide (part.length ≤ 3)
      && decide (Json.decimalValue part < 256)
      && (decide (part.length = 1) || part.head? != some '0')

def groupCount? (mayEndDotted : Bool) (texts : List (List Char)) : Option Nat :=
  let isGroup := fun (g : List Char) =>
    !g.isEmpty && decide (g.length ≤ 4) && g.all fun c => (Json.hexValue? c).isSome
  match texts.getLast? with
  | none => some 0
  | some last =>
    if !texts.dropLast.all isGroup then none
    else if isGroup last then some texts.length
    else if mayEndDotted && isDottedQuad last then some (texts.length + 1)
    else none

def isBracketedAddress (text : List Char) : Bool :=
  match doubleColon? [] text with
  | none => groupCount? true (groups text) == some 8
  | some (before, after) =>
    match groupCount? false (groups before), groupCount? true (groups after) with
    | some a, some b => decide (a + b < 8)
    | _, _ => false

def isForbidden (c : Char) : Bool := "\x00\t\n\r #/:<>?@[\\]^|".toList.contains c

def isHost (s : Scheme) (host : List Char) : Bool :=
  match host with
  | '[' :: rest => rest.getLast? == some ']' && isBracketedAddress rest.dropLast
  | _ =>
    if s.isSpecial then
      let name := Text.percentDecode host
      !name.isEmpty
        && name.all (fun c => !isForbidden c && !isControl c && c != '%' && c != '\ufffd')
        && (!endsInNumber name || isNumericAddress name)
    else host.all fun c => !isForbidden c

def afterUser (authority : List Char) : List Char :=
  (authority.reverse.takeWhile (· != '@')).reverse

def hostText (inBrackets : Bool) : List Char → List Char
  | [] => []
  | c :: rest =>
    if c = ':' ∧ !inBrackets then []
    else c :: hostText (c == '[' || (inBrackets && c != ']')) rest

def isPort : List Char → Bool
  | [] => true
  | ':' :: digits => digits.all Char.isDigit && decide (Json.decimalValue digits < Nat.pow 2 16)
  | _ => false

def isAuthority (s : Scheme) (authority : List Char) : Bool :=
  let location := afterUser authority
  let host := hostText false location
  let named := decide (location.length < authority.length)
  isPort (location.drop host.length)
    && (if host.isEmpty then s == .file || (s == .other && !named) else isHost s host)

def afterAuthority? (s : Scheme) (text : List Char) : Option (List Char) :=
  let authority := text.takeWhile fun c => !s.endsAuthority c
  if isAuthority s authority then
    match text.drop authority.length with
    | [] => some []
    | c :: rest => some (absolute s (if s.isSlash c then rest else c :: rest))
  else none

def relative? (text : List Char) : Option (List Char) :=
  let slashes := (text.takeWhile Scheme.web.isSlash).length
  if 2 ≤ slashes then
    match text with
    | '/' :: '/' :: rest => afterAuthority? .web rest
    | _ => afterAuthority? .web (text.drop slashes)
  else some (absolute .web (text.drop slashes))

def otherPath? : List Char → Option (List Char)
  | '/' :: '/' :: rest => afterAuthority? .other rest
  | '/' :: rest => some (absolute .other rest)
  | text =>
    some <| (text.takeWhile fun c => c != '?' && c != '#').flatMap fun c =>
      if isControl c || decide (0x7E < c.toNat) then encodeChar c else [c]

def filePath? (text : List Char) : Option (List Char) :=
  match text with
  | a :: b :: rest =>
    if Scheme.file.isSlash a && Scheme.file.isSlash b then afterAuthority? .file rest
    else some (absolute .file (text.dropWhile Scheme.file.isSlash))
  | _ => some (absolute .file (text.dropWhile Scheme.file.isSlash))

def path? (address : String) : Option (List Char) :=
  let text := cleaned address.toList
  match scheme? text with
  | none => relative? text
  | some (name, rest) =>
    match Scheme.ofName name with
    | .web =>
      let slashes := (rest.takeWhile Scheme.web.isSlash).length
      if String.ofList name = "http" ∧ slashes < 2 then relative? rest
      else afterAuthority? .web (rest.drop slashes)
    | .file => filePath? rest
    | .other => otherPath? rest

end OpenApi.Url
