/-!
# Rounding to nearest

Rounding a quotient to the nearest whole number, and a whole number to a given number of leading
bits. A value halfway between two candidates goes to the even one.
-/

namespace ExportLint

/-- The whole number nearest to `num / den`; halfway goes to the even neighbour. -/
def roundDiv (num den : Nat) : Nat :=
  let whole := num / den
  let twice := 2 * (num % den)
  if twice < den ∨ (twice = den ∧ whole % 2 = 0) then whole else whole + 1

/-- How many bits the binary form of a number has. -/
def bitLength (n : Nat) : Nat :=
  if n = 0 then 0 else n.log2 + 1

/-- The number nearest to `num / den` that has at most 53 significant bits, and is whole. -/
def roundBits (num den : Nat) : Nat :=
  let unit := Nat.pow 2 (bitLength (num / den) - 53)
  roundDiv num (den * unit) * unit

theorem roundDiv_near (num : Nat) {den : Nat} (pos : 0 < den) :
    2 * num ≤ 2 * (roundDiv num den * den) + den ∧ 2 * (roundDiv num den * den) ≤ 2 * num + den := by
  have split := Nat.div_add_mod num den
  have small := Nat.mod_lt num pos
  have comm := Nat.mul_comm den (num / den)
  unfold roundDiv
  simp only
  split
  · constructor <;> omega
  · next up =>
    rw [Nat.add_mul, Nat.one_mul]
    constructor <;> omega

theorem roundDiv_one (n : Nat) : roundDiv n 1 = n := by
  simp [roundDiv, Nat.mod_one]

end ExportLint
