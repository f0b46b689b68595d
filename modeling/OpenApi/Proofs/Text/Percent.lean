import OpenApi.Proofs.Text.Utf8
import OpenApi.Text.Utf8

set_option autoImplicit false

namespace OpenApi.Text

-- A choice of hexadecimal digits; there are two for each value from ten on.
structure HexDigits where
  digit : Nat → Char
  reads : ∀ n < 16, Json.hexValue? (digit n) = some n

def upperHex : HexDigits where
  digit n := Char.ofNat (if n < 10 then '0'.toNat + n else 'A'.toNat + (n - 10))
  reads := by decide

def isUnreserved (c : Char) : Bool :=
  c.isAlphanum || c == '-' || c == '.' || c == '_' || c == '~'

def encodeByte (hex : HexDigits) (b : Nat) : List Char :=
  if isUnreserved (Char.ofNat b) then [Char.ofNat b]
  else ['%', hex.digit (b / 16), hex.digit (b % 16)]

def percentEncode (hex : HexDigits) (cs : List Char) : List Char :=
  (cs.flatMap utf8Bytes).flatMap (encodeByte hex)

section Encoding

variable (hex : HexDigits)

theorem unreserved_byte : ∀ b < 256, isUnreserved (Char.ofNat b) = true →
    Char.ofNat b ≠ '%' ∧ Char.ofNat b ≠ '/' ∧ utf8Bytes (Char.ofNat b) = [b] := by
  decide +kernel

theorem percent_bytes_cons (c : Char) (rest : List Char) (plain : c ≠ '%') :
    percentBytes (c :: rest) = utf8Bytes c ++ percentBytes rest := by
  rw [percentBytes]
  exact fun high low tail isPercent => absurd isPercent plain

theorem percent_bytes_encode (b : Nat) (small : b < 256) (rest : List Char) :
    percentBytes (encodeByte hex b ++ rest) = b :: percentBytes rest := by
  rw [encodeByte]
  by_cases plain : isUnreserved (Char.ofNat b) = true
  · obtain ⟨noPercent, _, bytes⟩ := unreserved_byte b small plain
    rw [if_pos plain, List.singleton_append, percent_bytes_cons _ _ noPercent, bytes,
      List.singleton_append]
  · have value : hexByte? (hex.digit (b / 16)) (hex.digit (b % 16)) = some b := by
      rw [hexByte?, hex.reads _ (by omega), hex.reads _ (by omega)]
      exact congrArg some (Nat.div_add_mod b 16)
    rw [if_neg plain]
    simp only [List.cons_append, List.nil_append, percentBytes, value]

theorem percent_bytes_all (bytes : List Nat) (small : ∀ b ∈ bytes, b < 256) :
    percentBytes (bytes.flatMap (encodeByte hex)) = bytes := by
  induction bytes with
  | nil => rfl
  | cons b rest ih =>
      rw [List.forall_mem_cons] at small
      rw [List.flatMap_cons, percent_bytes_encode hex b small.1, ih small.2]

theorem utf8_bytes_small (cs : List Char) : ∀ b ∈ cs.flatMap utf8Bytes, b < 256 := by
  intro b member
  obtain ⟨c, _, ofChar⟩ := List.mem_flatMap.mp member
  exact utf8_byte_small c b ofChar

theorem percent_decode_encode (cs : List Char) : percentDecode (percentEncode hex cs) = cs := by
  rw [percentDecode, percentEncode, percent_bytes_all hex _ (utf8_bytes_small cs),
    decode_lossy_utf8]

theorem hex_digit_no_slash (n : Nat) (small : n < 16) : hex.digit n ≠ '/' := by
  intro isSlash
  have reads := hex.reads n small
  rw [isSlash] at reads
  cases reads

theorem percent_encode_no_slash (cs : List Char) : '/' ∉ percentEncode hex cs := by
  intro member
  obtain ⟨b, ofText, encoded⟩ := List.mem_flatMap.mp member
  have small := utf8_bytes_small cs b ofText
  rw [encodeByte] at encoded
  by_cases plain : isUnreserved (Char.ofNat b) = true
  · rw [if_pos plain] at encoded
    exact (unreserved_byte b small plain).2.1 (List.mem_singleton.mp encoded).symm
  · rw [if_neg plain] at encoded
    have high := hex_digit_no_slash hex (b / 16) (by omega)
    have low := hex_digit_no_slash hex (b % 16) (by omega)
    simp [high.symm, low.symm] at encoded

end Encoding

end OpenApi.Text
