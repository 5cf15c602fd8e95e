import ExportLint.Fault

/-!
# Offsets

A position in a text is the number of bytes before it, held in a 32-bit word. Sums and differences
of positions are exact: one that is no word is a fault.
-/

namespace ExportLint

/-- The number of bytes before a position in a text. -/
abbrev Offset := UInt32

namespace Offset

/-- The sum of two words, if it is a word. -/
def add (a b : Offset) : Except Fault Offset :=
  if a.toNat + b.toNat < UInt32.size then .ok (a + b) else .error .sumTooLarge

/-- The difference of two words, if it is not negative. -/
def sub (a b : Offset) : Except Fault Offset :=
  if b ≤ a then .ok (a - b) else .error .differenceNegative

/-- The end of a text as a position. -/
def ofText (text : String) : Offset :=
  .ofNat text.utf8ByteSize

theorem add_eq_ok_iff {a b c : Offset} : add a b = .ok c ↔ c.toNat = a.toNat + b.toNat := by
  unfold add
  have bound := c.toNat_lt
  split
  case isTrue fits =>
    rw [Except.ok.injEq, ← UInt32.toNat_inj, UInt32.toNat_add, Nat.mod_eq_of_lt fits]
    exact eq_comm
  case isFalse large =>
    have : UInt32.size = 2 ^ 32 := rfl
    simp only [reduceCtorEq, false_iff]
    omega

theorem sub_eq_ok_iff {a b c : Offset} : sub a b = .ok c ↔ c.toNat + b.toNat = a.toNat := by
  unfold sub
  split
  case isTrue le =>
    have := UInt32.le_iff_toNat_le.mp le
    rw [Except.ok.injEq, ← UInt32.toNat_inj, UInt32.toNat_sub_of_le _ _ le]
    omega
  case isFalse above =>
    have := mt UInt32.le_iff_toNat_le.mpr above
    simp only [reduceCtorEq, false_iff]
    omega

end Offset

end ExportLint
