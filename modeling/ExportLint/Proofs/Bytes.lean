import Mathlib

/-!
# The bytes of a text

A text is encoded in UTF-8, character by character. A line feed is the only character with the byte 10 in
it, and comparing texts by their characters comes to comparing them by their bytes.
-/

namespace ExportLint

/-- The bytes of a text. -/
def bytes (text : String) : List UInt8 :=
  text.toByteArray.data.toList

theorem bytes_eq_flatMap (text : String) : bytes text = text.toList.flatMap String.utf8EncodeChar := by
  rw [bytes, ← String.utf8Encode_toList, List.utf8Encode, List.data_toByteArray]

@[simp]
theorem length_bytes (text : String) : (bytes text).length = text.utf8ByteSize := by
  rw [bytes, Array.length_toList, ← String.size_toByteArray]
  rfl

theorem code_lt (c : Char) : c.val.toNat < 1114112 := by
  rcases c.valid with low | high
  · exact Nat.lt_trans low (by decide)
  · exact high.2

/-! ### Line feeds -/

theorem encode_feed : String.utf8EncodeChar '\n' = [10] := by
  decide

theorem feed_notMem_encode {c : Char} (other : c ≠ '\n') : 10 ∉ String.utf8EncodeChar c := by
  have apart : c.val.toNat ≠ 10 := by
    intro same
    exact other (Char.ext (UInt32.toNat_inj.mp same))
  have bound := code_lt c
  have ten : (10 : UInt8).toNat = 10 := rfl
  unfold String.utf8EncodeChar
  dsimp only
  split_ifs <;>
    simp only [List.mem_cons, List.not_mem_nil, or_false, ← UInt8.toNat_inj, UInt8.toNat_ofNat', ten] <;>
    omega

/-! ### The order of texts -/

theorem encode_append_lt {c d : Char} (below : c < d) (u v : List UInt8) :
    String.utf8EncodeChar c ++ u < String.utf8EncodeChar d ++ v := by
  have order : c.val.toNat < d.val.toNat := below
  have bound := code_lt d
  -- no byte is cut, and each byte after the first holds six more bits
  have tail (n : Nat) : (n % 64 + 128) % 2 ^ 8 = n % 64 + 128 := by omega
  have leadC : (c.val.toNat / 262144 % 8 + 240) % 2 ^ 8 = c.val.toNat / 262144 + 240 := by omega
  have leadD : (d.val.toNat / 262144 % 8 + 240) % 2 ^ 8 = d.val.toNat / 262144 + 240 := by omega
  have sixes (n : Nat) : n / 64 / 64 = n / 4096 ∧ n / 4096 / 64 = n / 262144 :=
    ⟨Nat.div_div_eq_div_mul .., Nat.div_div_eq_div_mul ..⟩
  have ofC := sixes c.val.toNat
  have ofD := sixes d.val.toNat
  unfold String.utf8EncodeChar
  dsimp only
  split_ifs <;>
    simp only [List.cons_append, List.nil_append, List.cons_lt_cons_iff, UInt8.lt_iff_toNat_lt,
      ← UInt8.toNat_inj, UInt8.toNat_ofNat', tail, leadC, leadD] <;>
    omega

theorem flatMap_encode_lt {first second : List Char} (below : first < second) :
    first.flatMap String.utf8EncodeChar < second.flatMap String.utf8EncodeChar := by
  induction first generalizing second with
  | nil =>
    cases second with
    | nil => exact absurd below (List.not_lt_nil _)
    | cons d rest =>
      have longer : String.utf8EncodeChar d ≠ [] := String.utf8EncodeChar_ne_nil
      obtain ⟨byte, others, head⟩ := List.exists_cons_of_ne_nil longer
      rw [List.flatMap_nil, List.flatMap_cons, head]
      exact List.nil_lt_cons ..
  | cons c rest ih =>
    cases second with
    | nil => exact absurd below (List.not_lt_nil _)
    | cons d others =>
      rw [List.flatMap_cons, List.flatMap_cons]
      rcases List.cons_lt_cons_iff.mp below with less | ⟨same, later⟩
      · exact encode_append_lt less _ _
      · rw [same]
        exact List.append_left_lt (ih later)

/-- Texts are ordered as their bytes are. -/
theorem bytes_lt_iff {first second : String} : bytes first < bytes second ↔ first < second := by
  have forward {s t : String} (below : s < t) : bytes s < bytes t := by
    rw [bytes_eq_flatMap, bytes_eq_flatMap]
    exact flatMap_encode_lt (String.lt_iff_toList_lt.mp below)
  refine ⟨fun below => ?_, forward⟩
  by_contra above
  by_cases later : second < first
  · exact List.lt_asymm below (forward later)
  · rw [String.lt_antisymm above later] at below
    exact List.lt_irrefl _ below

end ExportLint
