import OpenApi.Json.Reader

set_option autoImplicit false

namespace OpenApi.Text

-- The first byte of a character: the count of further bytes, the bits it contributes, and the
-- least and greatest byte that may follow.
def leadByte? (b : Nat) : Option (Nat × Nat × Nat × Nat) :=
  if b < 0x80 then some (0, b, 0x80, 0xBF)
  else if 0xC2 ≤ b ∧ b ≤ 0xDF then some (1, b - 0xC0, 0x80, 0xBF)
  else if b = 0xE0 then some (2, 0, 0xA0, 0xBF)
  else if b = 0xED then some (2, 0xD, 0x80, 0x9F)
  else if 0xE1 ≤ b ∧ b ≤ 0xEF then some (2, b - 0xE0, 0x80, 0xBF)
  else if b = 0xF0 then some (3, 0, 0x90, 0xBF)
  else if 0xF1 ≤ b ∧ b ≤ 0xF3 then some (3, b - 0xF0, 0x80, 0xBF)
  else if b = 0xF4 then some (3, 4, 0x80, 0x8F)
  else none

-- The further bytes of a character: the code point if all of them are there, and the count of
-- those that are.
def continuation (low high : Nat) : Nat → Nat → List Nat → Option Nat × Nat
  | 0, bits, _ => (some bits, 0)
  | count + 1, bits, b :: rest =>
    if low ≤ b ∧ b ≤ high then
      let (code, used) := continuation 0x80 0xBF count (bits * 64 + (b - 0x80)) rest
      (code, used + 1)
    else (none, 0)
  | _ + 1, _, [] => (none, 0)

def nextChar (first : Nat) (rest : List Nat) : Option Char × Nat :=
  match leadByte? first with
  | none => (none, 1)
  | some (count, bits, low, high) =>
    let (code, used) := continuation low high count bits rest
    (code.map Char.ofNat, used + 1)

-- The characters of a sequence of bytes, of which there are at most `fuel`; what is no character
-- is given as none.
def readUtf8 : Nat → List Nat → List (Option Char)
  | _, [] => []
  | 0, _ => []
  | fuel + 1, first :: rest =>
    let (c, used) := nextChar first rest
    c :: readUtf8 fuel (rest.drop (used - 1))

def decodeLossy (bytes : List Nat) : List Char :=
  (readUtf8 bytes.length bytes).map fun c => c.getD '\ufffd'

def decodeStrict? (bytes : List Nat) : Option (List Char) :=
  (readUtf8 bytes.length bytes).mapM id

def utf8Bytes (c : Char) : List Nat :=
  let n := c.toNat
  if n < 0x80 then [n]
  else if n < 0x800 then [0xC0 + n / 64, 0x80 + n % 64]
  else if n < 0x10000 then [0xE0 + n / 4096, 0x80 + n / 64 % 64, 0x80 + n % 64]
  else [0xF0 + n / 262144, 0x80 + n / 4096 % 64, 0x80 + n / 64 % 64, 0x80 + n % 64]

def hexByte? (high low : Char) : Option Nat := do
  some (16 * (← Json.hexValue? high) + (← Json.hexValue? low))

def percentBytes : List Char → List Nat
  | '%' :: high :: low :: rest =>
    match hexByte? high low with
    | some b => b :: percentBytes rest
    | none => '%'.toNat :: percentBytes (high :: low :: rest)
  | c :: rest => utf8Bytes c ++ percentBytes rest
  | [] => []

def percentDecode (cs : List Char) : List Char := decodeLossy (percentBytes cs)

end OpenApi.Text
