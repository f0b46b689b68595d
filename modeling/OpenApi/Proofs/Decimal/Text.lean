import OpenApi.Json.Printer
import OpenApi.Proofs.Text.Words

set_option autoImplicit false

namespace OpenApi.Binary64

open Text

theorem digits_ascii (n : Nat) : Ascii (Nat.toDigits 10 n) := plain_ascii _ (digits_plain n)

theorem zeros_ascii (n : Nat) : Ascii (List.replicate n '0') := fun c member => by
  rw [List.eq_of_mem_replicate member]
  decide

theorem scientific_ascii (digits : List Char) (power : Int) (ascii : Ascii digits) :
    Ascii (scientific digits power) := by
  have sign : (if power < 0 then '-' else '+').toNat < 128 := by split <;> decide
  have exponent := (ascii_cons _ _).mpr ⟨sign, digits_ascii power.natAbs⟩
  refine (ascii_append _ _).mpr ⟨?_, (ascii_cons _ _).mpr ⟨by decide, exponent⟩⟩
  split
  · decide
  · exact ascii
  · obtain ⟨first, others⟩ := (ascii_cons _ _).mp ascii
    exact (ascii_cons _ _).mpr ⟨first, (ascii_cons _ _).mpr ⟨by decide, others⟩⟩

theorem positional_ascii (digits : List Char) (place : Int) (ascii : Ascii digits) :
    Ascii (positional digits place) := by
  rw [positional]
  dsimp only
  split
  · exact (ascii_append _ _).mpr ⟨(ascii_append _ _).mpr ⟨by decide, zeros_ascii _⟩, ascii⟩
  · split
    · exact (ascii_append _ _).mpr ⟨(ascii_append _ _).mpr ⟨ascii, zeros_ascii _⟩, by decide⟩
    · refine (ascii_append _ _).mpr ⟨fun c member => ascii c (List.mem_of_mem_take member), ?_⟩
      refine (ascii_cons _ _).mpr ⟨by decide, fun c member => ascii c (List.mem_of_mem_drop member)⟩

variable (x : Binary64)

theorem shortest_ascii : Ascii x.shortest.1 := by
  intro c member
  have inDigits := (List.dropWhile_suffix _).subset (List.mem_reverse.mp member)
  exact digits_ascii _ c (List.mem_reverse.mp inDigits)

theorem text_ascii : Ascii x.text.toList := by
  have sign : Ascii (if x.negative then ['-'] else []) := by split <;> decide
  have digits := shortest_ascii x
  rw [text]
  dsimp only
  split
  · rw [String.toList_ofList]
    exact (ascii_append _ _).mpr ⟨sign, by decide⟩
  · split <;> rw [String.toList_ofList]
    · exact (ascii_append _ _).mpr ⟨sign, positional_ascii _ _ digits⟩
    · exact (ascii_append _ _).mpr ⟨sign, scientific_ascii _ _ digits⟩

end OpenApi.Binary64
