import OpenApi.Yaml.Token

set_option autoImplicit false

namespace OpenApi.Yaml

structure Reading where
  tokens : List Token
  tagHandles : List (String × String)
  names : List (String × Nat) := []
  anchored : List (Nat × Node) := []
  size : Nat := 0

namespace Reading

def drop (r : Reading) : Reading := { r with tokens := r.tokens.tail }

def count (r : Reading) (n : Nat) : Reading := { r with size := r.size + n }

-- An anchor named; its number is that of its name from now on. The second number counts the
-- anchored nodes before it.
def name (r : Reading) : Option String → Option (Nat × Nat) × Reading
  | none => (none, r)
  | some anchor =>
    let number := r.names.length
    let others := r.names.filter fun entry => entry.1 != anchor
    (some (number, r.anchored.length), { r with names := (anchor, number) :: others })

-- The node of an anchor remembered; anchored nodes inside it come before it, as they start
-- later.
def keep (r : Reading) (place : Option (Nat × Nat)) (n : Node) : Reading :=
  match place with
  | none => r
  | some (number, earlier) =>
    let inner := r.anchored.length - earlier
    { r with
      anchored := r.anchored.take inner ++ (number, n) :: r.anchored.drop inner }

def expand? (r : Reading) (handle suffix : String) : Option String :=
  if handle.isEmpty then some suffix
  else (r.tagHandles.lookup handle).map fun start => start ++ suffix

end Reading

structure Properties where
  anchor : Option String := none
  tag : Option String := none

def properties? (r : Reading) : Option (Properties × Reading) :=
  match r.tokens with
  | .anchor a :: .tag h s :: _ => do
    some ({ anchor := some a, tag := ← r.expand? h s }, r.drop.drop)
  | .tag h s :: .anchor a :: _ => do
    some ({ anchor := some a, tag := ← r.expand? h s }, r.drop.drop)
  | .anchor a :: _ => some ({ anchor := some a }, r.drop)
  | .tag h s :: _ => do some ({ tag := ← r.expand? h s }, r.drop)
  | _ => some ({}, r)

-- The tag of a scalar that is written; the lone exclamation mark is none.
def writtenTag : Option String → Option String
  | some "!" => none
  | tag => tag

def leaf (p : Properties) (s : Scalar) (r : Reading) : Node × Reading :=
  let (place, r) := r.name p.anchor
  let n := Node.scalar s
  (n, (r.keep place n).count 1)

def absent (r : Reading) : Node × Reading := (.empty, r.count 1)

def atEntryEnd : List Token → Bool
  | .blockEntry :: _ => true
  | .blockEnd :: _ => true
  | _ => false

def atIndentlessEnd : List Token → Bool
  | .blockEntry :: _ => true
  | .key :: _ => true
  | .value :: _ => true
  | .blockEnd :: _ => true
  | _ => false

def atPairEnd : List Token → Bool
  | .key :: _ => true
  | .value :: _ => true
  | .blockEnd :: _ => true
  | _ => false

def atFlowKeyEnd : List Token → Bool
  | .value :: _ => true
  | .flowEntry :: _ => true
  | .flowMappingEnd :: _ => true
  | _ => false

def atFlowValueEnd : List Token → Bool
  | .flowEntry :: _ => true
  | .flowMappingEnd :: _ => true
  | _ => false

def atItemKeyEnd : List Token → Bool
  | .value :: _ => true
  | .flowEntry :: _ => true
  | .flowSequenceEnd :: _ => true
  | _ => false

def atItemValueEnd : List Token → Bool
  | .flowEntry :: _ => true
  | .flowSequenceEnd :: _ => true
  | _ => false

def afterComma? (first : Bool) (r : Reading) : Option Reading :=
  if first then some r
  else
    match r.tokens with
    | .flowEntry :: _ => some r.drop
    | _ => none

mutual

-- A node; `indentless` allows block entries at the indentation of the mapping around them.
def node? (fuel : Nat) (block indentless : Bool) (r : Reading) : Option (Node × Reading) :=
  match fuel with
  | 0 => none
  | fuel + 1 =>
    match r.tokens with
    | .alias name :: _ => do
      let number ← r.names.lookup name
      some (.alias number, r.drop.count 1)
    | _ => do
      let (p, r) ← properties? r
      match r.tokens with
      | .scalar text style :: _ =>
        some (leaf p { text, style, tag := writtenTag p.tag } r.drop)
      | .flowSequenceStart :: _ =>
        let (place, r) := r.drop.name p.anchor
        let (items, r) ← flowItems? fuel true [] r
        let n := Node.sequence p.tag items
        some (n, (r.keep place n).count 2)
      | .flowMappingStart :: _ =>
        let (place, r) := r.drop.name p.anchor
        let (entries, r) ← flowEntries? fuel true [] r
        let n := Node.mapping p.tag entries
        some (n, (r.keep place n).count 2)
      | .blockEntry :: _ =>
        if indentless then
          let (place, r) := r.name p.anchor
          let (items, r) ← indentlessItems? fuel [] r
          let n := Node.sequence p.tag items
          some (n, (r.keep place n).count 2)
        else missing? p r
      | .blockSequenceStart :: _ =>
        if block then
          let (place, r) := r.drop.name p.anchor
          let (items, r) ← blockItems? fuel [] r
          let n := Node.sequence p.tag items
          some (n, (r.keep place n).count 2)
        else missing? p r
      | .blockMappingStart :: _ =>
        if block then
          let (place, r) := r.drop.name p.anchor
          let (entries, r) ← blockEntries? fuel [] r
          let n := Node.mapping p.tag entries
          some (n, (r.keep place n).count 2)
        else missing? p r
      | _ => missing? p r

def missing? (p : Properties) (r : Reading) : Option (Node × Reading) :=
  if p.anchor.isSome || p.tag.isSome then
    some (leaf p { text := "", style := .plain, tag := p.tag } r)
  else none

def blockItems? (fuel : Nat) (acc : List Node) (r : Reading) : Option (List Node × Reading) :=
  match fuel with
  | 0 => none
  | fuel + 1 =>
    match r.tokens with
    | .blockEntry :: rest => do
      let (n, r) ← if atEntryEnd rest then some (absent r.drop) else node? fuel true false r.drop
      blockItems? fuel (n :: acc) r
    | .blockEnd :: _ => some (acc.reverse, r.drop)
    | _ => none

def indentlessItems? (fuel : Nat) (acc : List Node) (r : Reading) :
    Option (List Node × Reading) :=
  match fuel with
  | 0 => none
  | fuel + 1 =>
    match r.tokens with
    | .blockEntry :: rest => do
      let (n, r) ←
        if atIndentlessEnd rest then some (absent r.drop) else node? fuel true false r.drop
      indentlessItems? fuel (n :: acc) r
    | _ => some (acc.reverse, r)

def blockEntries? (fuel : Nat) (acc : List (Node × Node)) (r : Reading) :
    Option (List (Node × Node) × Reading) :=
  match fuel with
  | 0 => none
  | fuel + 1 =>
    match r.tokens with
    | .key :: rest => do
      let (k, r) ← if atPairEnd rest then some (absent r.drop) else node? fuel true true r.drop
      let (v, r) ← blockValue? fuel r
      blockEntries? fuel ((k, v) :: acc) r
    | .blockEnd :: _ => some (acc.reverse, r.drop)
    | _ => none

def blockValue? (fuel : Nat) (r : Reading) : Option (Node × Reading) :=
  match fuel with
  | 0 => none
  | fuel + 1 =>
    match r.tokens with
    | .value :: rest => if atPairEnd rest then some (absent r.drop) else node? fuel true true r.drop
    | _ => some (absent r)

def flowItems? (fuel : Nat) (first : Bool) (acc : List Node) (r : Reading) :
    Option (List Node × Reading) :=
  match fuel with
  | 0 => none
  | fuel + 1 =>
    match r.tokens with
    | .flowSequenceEnd :: _ => some (acc.reverse, r.drop)
    | _ => do
      let r ← afterComma? first r
      match r.tokens with
      | .flowSequenceEnd :: _ => some (acc.reverse, r.drop)
      | .key :: _ =>
        let (n, r) ← flowPair? fuel r.drop
        flowItems? fuel false (n :: acc) r
      | _ =>
        let (n, r) ← node? fuel false false r
        flowItems? fuel false (n :: acc) r

-- A single entry of a mapping as an item of a flow sequence. Where the key is left out, the
-- indicator after it is passed over.
def flowPair? (fuel : Nat) (r : Reading) : Option (Node × Reading) :=
  match fuel with
  | 0 => none
  | fuel + 1 => do
    let (k, r) ← if atItemKeyEnd r.tokens then some (absent r.drop) else node? fuel false false r
    let (v, r) ←
      match r.tokens with
      | .value :: rest =>
        if atItemValueEnd rest then some (absent r.drop) else node? fuel false false r.drop
      | _ => some (absent r)
    some (.mapping none [(k, v)], r.count 2)

def flowEntries? (fuel : Nat) (first : Bool) (acc : List (Node × Node)) (r : Reading) :
    Option (List (Node × Node) × Reading) :=
  match fuel with
  | 0 => none
  | fuel + 1 =>
    match r.tokens with
    | .flowMappingEnd :: _ => some (acc.reverse, r.drop)
    | _ => do
      let r ← afterComma? first r
      match r.tokens with
      | .flowMappingEnd :: _ => some (acc.reverse, r.drop)
      | .key :: rest =>
        let (k, r) ←
          if atFlowKeyEnd rest then some (absent r.drop) else node? fuel false false r.drop
        let (v, r) ← flowValue? fuel r
        flowEntries? fuel false ((k, v) :: acc) r
      | _ =>
        let (k, r) ← node? fuel false false r
        let (v, r) := absent r
        flowEntries? fuel false ((k, v) :: acc) r

def flowValue? (fuel : Nat) (r : Reading) : Option (Node × Reading) :=
  match fuel with
  | 0 => none
  | fuel + 1 =>
    match r.tokens with
    | .value :: rest =>
      if atFlowValueEnd rest then some (absent r.drop) else node? fuel false false r.drop
    | _ => some (absent r)

end

def defaultHandles : List (String × String) := [("!", "!"), ("!!", "tag:yaml.org,2002:")]

-- The directives before a document: at most one version, one that is known, and no handle
-- twice.
def directives? (version : Bool) (handles : List (String × String)) :
    List Token → Option (List (String × String) × List Token)
  | .versionDirective major minor :: rest =>
    if version || major != 1 || (minor != 1 && minor != 2) then none
    else directives? true handles rest
  | .tagDirective handle start :: rest =>
    if (handles.lookup handle).isSome then none
    else directives? version ((handle, start) :: handles) rest
  | rest => some (handles, rest)

def isDirective : Token → Bool
  | .versionDirective _ _ => true
  | .tagDirective _ _ => true
  | _ => false

def endsDocument : List Token → Bool
  | [] => true
  | .documentStart :: _ => true
  | .documentEnd :: _ => true
  | t :: _ => isDirective t

def root? (explicit : Bool) (r : Reading) : Option (Node × Reading) :=
  if explicit && endsDocument r.tokens then some (absent r)
  else node? (4 * r.tokens.length + 8) true false r

def Graph.ofTokens? (tokens : List Token) : Option Graph :=
  match tokens with
  | [] => some { root := .empty, anchored := [], size := 1 }
  | first :: _ => do
    let explicit := isDirective first || first == .documentStart
    let (handles, rest) ← directives? false [] tokens
    let rest ←
      if explicit then
        match rest with
        | .documentStart :: rest => some rest
        | _ => none
      else some rest
    let (root, r) ← root? explicit { tokens := rest, tagHandles := handles ++ defaultHandles }
    if (r.tokens.dropWhile (· == .documentEnd)).isEmpty then
      some { root, anchored := r.anchored, size := r.size }
    else none

end OpenApi.Yaml
