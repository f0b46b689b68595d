import OpenApi.Json.Printer
import OpenApi.Text.Words

set_option autoImplicit false

namespace OpenApi

inductive TargetLanguage where
  | csharp
  | typescript
deriving DecidableEq, Repr

namespace Naming

def isPlainIdentifier : List Char → Bool
  | [] => false
  | c :: rest => c.isAlpha && rest.all Char.isAlphanum

-- A type identifier. A plain identifier keeps its letters but for a first capital; any other name
-- is split into words. Nothing may be left of a name.
def typeName (raw : String) : String :=
  match raw.toList with
  | c :: rest =>
    if isPlainIdentifier (c :: rest) then String.ofList (c.toUpper :: rest)
    else String.ofList (Text.upperCamel (c :: rest))
  | [] => ""

def startsWithDigit (name : String) : Bool :=
  match name.toList with
  | c :: _ => c.isDigit
  | [] => false

def propertyName (jsonName : String) : String :=
  let name := typeName jsonName
  if name.isEmpty then "Property"
  else if startsWithDigit name then "_" ++ name
  else name

def parameterName (wireName : String) : String :=
  let name := String.ofList (Text.lowerCamel wireName.toList)
  if name.isEmpty then "param"
  else if startsWithDigit name then "p" ++ name
  else name

def splitAt (separator : Char) : List Char → List (List Char)
  | [] => [[]]
  | c :: rest =>
    if c = separator then [] :: splitAt separator rest
    else
      match splitAt separator rest with
      | [] => [[c]]
      | piece :: pieces => (c :: piece) :: pieces

def placeholder? : List Char → Option (List Char × List Char)
  | '\x7b' :: rest =>
    let name := rest.takeWhile (· != '\x7d')
    match name, rest.drop name.length with
    | _ :: _, _ :: after => some (name, after)
    | _, _ => none
  | _ => none

theorem placeholder?_shorter {text name after : List Char}
    (found : placeholder? text = some (name, after)) : after.length < text.length := by
  unfold placeholder? at found
  split at found
  · rename_i rest
    dsimp only at found
    split at found
    · rename_i tail remaining
      simp only [Option.some.injEq, Prod.mk.injEq] at found
      have sizes := congrArg List.length remaining
      rw [List.length_drop, List.length_cons, found.2] at sizes
      simp only [List.length_cons]
      omega
    · exact absurd found (by simp)
  · exact absurd found (by simp)

inductive TemplatePart where
  | literal (text : List Char)
  | placeholder (name : List Char)
deriving DecidableEq, Repr

def literalParts (reversed : List Char) : List TemplatePart :=
  if reversed.isEmpty then [] else [.literal reversed.reverse]

-- The parts of a path template from left to right. `literal` is the text since the last
-- placeholder in reverse order.
def templateParts (literal text : List Char) : List TemplatePart :=
  match text with
  | [] => literalParts literal
  | c :: rest =>
    match found : placeholder? (c :: rest) with
    | some (name, after) =>
      have := placeholder?_shorter found
      literalParts literal ++ .placeholder name :: templateParts [] after
    | none => templateParts (c :: literal) rest
termination_by text.length
decreasing_by
  · exact this
  · exact Nat.lt_succ_self _

def placeholders (path : String) : List String :=
  (templateParts [] path.toList).filterMap fun part =>
    match part with
    | .placeholder name => some (String.ofList name)
    | .literal _ => none

def segmentName (segment : List Char) : List Char :=
  match placeholder? segment with
  | some (name, []) => 'B' :: 'y' :: Text.upperCamel name
  | _ => Text.upperCamel segment

def operationName (method path : String) : String :=
  let segments := (splitAt '/' path.toList).filter fun segment => !segment.isEmpty
  String.ofList (Text.upperCamel method.toList ++ segments.flatMap segmentName)

def numbered (base : String) (n : Nat) : String := base ++ natText n

def candidates (base : String) (count : Nat) : List String :=
  base :: (List.range' 2 count).map (numbered base)

def firstFree (base : String) (taken : List String) : Nat → Nat → String
  | 0, n => numbered base n
  | fuel + 1, n =>
    if taken.contains (numbered base n) then firstFree base taken fuel (n + 1)
    else numbered base n

-- The base itself if it is free, else with the first free number from two on. Fewer than 2^31 - 1
-- names are taken: the numbers are counted in 32 bits with a sign.
def unique (base : String) (taken : List String) : String :=
  if taken.contains base then firstFree base taken taken.length 2 else base

def reservedWords : TargetLanguage → List String
  | .csharp => [
    "abstract", "as", "base", "bool", "break", "byte", "case", "catch", "char", "checked",
    "class", "const", "continue", "decimal", "default", "delegate", "do", "double", "else",
    "enum", "event", "explicit", "extern", "false", "finally", "fixed", "float", "for",
    "foreach", "goto", "if", "implicit", "in", "int", "interface", "internal", "is", "lock",
    "long", "namespace", "new", "null", "object", "operator", "out", "override", "params",
    "private", "protected", "public", "readonly", "ref", "return", "sbyte", "sealed", "short",
    "sizeof", "stackalloc", "static", "string", "struct", "switch", "this", "throw", "true",
    "try", "typeof", "uint", "ulong", "unchecked", "unsafe", "ushort", "using", "virtual",
    "void", "volatile", "while"]
  | .typescript => [
    "break", "case", "catch", "class", "const", "continue", "debugger", "default", "delete",
    "do", "else", "enum", "export", "extends", "false", "finally", "for", "function", "if",
    "import", "in", "instanceof", "new", "null", "return", "super", "switch", "this", "throw",
    "true", "try", "typeof", "var", "void", "while", "with"]

def escape (language : TargetLanguage) (name : String) : String :=
  if (reservedWords language).contains name then
    match language with
    | .csharp => "@" ++ name
    | .typescript => name ++ "_"
  else name

end Naming

end OpenApi
