import OpenApi.Text.Utf8

set_option autoImplicit false

namespace OpenApi.Text

theorem lead_two (bits : Nat) (least : 2 ≤ bits) (most : bits < 32) :
    leadByte? (0xC0 + bits) = some (1, bits, 0x80, 0xBF) := by
  rw [leadByte?, if_neg (by omega), if_pos (by omega), Nat.add_sub_cancel_left]

theorem lead_three : ∀ bits < 16, leadByte? (0xE0 + bits)
    = some (2, bits, if bits = 0 then 0xA0 else 0x80, if bits = 0xD then 0x9F else 0xBF) := by
  decide

theorem lead_four : ∀ bits < 5, leadByte? (0xF0 + bits)
    = some (3, bits, if bits = 0 then 0x90 else 0x80, if bits = 4 then 0x8F else 0xBF) := by
  decide

theorem continuation_step (low high count bits next : Nat) (rest : List Nat)
    (least : low ≤ 0x80 + next) (most : 0x80 + next ≤ high) :
    continuation low high (count + 1) bits ((0x80 + next) :: rest) =
      ((continuation 0x80 0xBF count (bits * 64 + next) rest).1,
        (continuation 0x80 0xBF count (bits * 64 + next) rest).2 + 1) := by
  rw [continuation, if_pos ⟨least, most⟩, Nat.add_sub_cancel_left]

theorem char_scalar (c : Char) :
    c.toNat < 0xD800 ∨ 0xDFFF < c.toNat ∧ c.toNat < 0x110000 := c.valid

-- One case for each count of bytes. The first continuation byte has bounds of its own, which
-- shorter encodings, surrogates and what is no character would leave.
theorem next_char_utf8 (c : Char) : ∃ first more, utf8Bytes c = first :: more ∧
    ∀ rest, nextChar first (more ++ rest) = (some c, more.length + 1) := by
  have scalar := char_scalar c
  rw [utf8Bytes]
  by_cases one : c.toNat < 0x80
  · rw [if_pos one]
    refine ⟨_, _, rfl, fun rest => ?_⟩
    simp only [nextChar, leadByte?, if_pos one, continuation]
    simp
  · rw [if_neg one]
    by_cases two : c.toNat < 0x800
    · rw [if_pos two]
      refine ⟨_, _, rfl, fun rest => ?_⟩
      have whole : c.toNat / 64 * 64 + c.toNat % 64 = c.toNat := by omega
      rw [nextChar, lead_two _ (by omega) (by omega)]
      simp only [List.cons_append, List.nil_append]
      rw [continuation_step _ _ _ _ _ _ (by omega) (by omega), whole]
      simp [continuation]
    · rw [if_neg two]
      by_cases three : c.toNat < 0x10000
      · rw [if_pos three]
        refine ⟨_, _, rfl, fun rest => ?_⟩
        have whole : (c.toNat / 4096 * 64 + c.toNat / 64 % 64) * 64 + c.toNat % 64 = c.toNat := by
          omega
        rw [nextChar, lead_three _ (by omega)]
        simp only [List.cons_append, List.nil_append]
        rw [continuation_step _ _ _ _ _ _ (by split <;> omega) (by split <;> omega),
          continuation_step _ _ _ _ _ _ (by omega) (by omega), whole]
        simp [continuation]
      · rw [if_neg three]
        refine ⟨_, _, rfl, fun rest => ?_⟩
        have whole : ((c.toNat / 262144 * 64 + c.toNat / 4096 % 64) * 64 + c.toNat / 64 % 64) * 64
            + c.toNat % 64 = c.toNat := by omega
        rw [nextChar, lead_four _ (by omega)]
        simp only [List.cons_append, List.nil_append]
        rw [continuation_step _ _ _ _ _ _ (by split <;> omega) (by split <;> omega),
          continuation_step _ _ _ _ _ _ (by omega) (by omega),
          continuation_step _ _ _ _ _ _ (by omega) (by omega), whole]
        simp [continuation]

theorem read_utf8_bytes (fuel : Nat) (cs : List Char)
    (enough : (cs.flatMap utf8Bytes).length ≤ fuel) :
    readUtf8 fuel (cs.flatMap utf8Bytes) = cs.map some := by
  induction cs generalizing fuel with
  | nil => cases fuel <;> rfl
  | cons c rest ih =>
      obtain ⟨first, more, bytes, reads⟩ := next_char_utf8 c
      rw [List.flatMap_cons, bytes] at enough ⊢
      simp only [List.cons_append, List.length_cons, List.length_append] at enough
      obtain ⟨fuel, rfl⟩ : ∃ n, fuel = n + 1 := ⟨fuel - 1, by omega⟩
      rw [List.cons_append, readUtf8, reads]
      dsimp only
      rw [Nat.add_sub_cancel, List.drop_left, ih fuel (by omega), List.map_cons]

theorem decode_lossy_utf8 (cs : List Char) : decodeLossy (cs.flatMap utf8Bytes) = cs := by
  rw [decodeLossy, read_utf8_bytes _ cs (Nat.le_refl _), List.map_map]
  exact List.map_id cs

theorem utf8_byte_small (c : Char) : ∀ b ∈ utf8Bytes c, b < 256 := by
  have scalar := char_scalar c
  rw [utf8Bytes]
  repeat' split
  all_goals
    simp only [List.forall_mem_cons, List.not_mem_nil, false_implies, implies_true, and_true]
    omega

end OpenApi.Text
