import ExportLint.Numeric.Numeral
import ExportLint.Numeric.Rounding

/-!
# Doubles

Binary floating-point numbers of double precision, as far as comparing them needs: the finite ones
are whole multiples of the smallest positive one, so both zeros are the same value, and the value
that is not a number differs from itself.
-/

namespace ExportLint

/-- A double; `finite units` has the value `units * 2 ^ -1074`. -/
inductive Double where
  | nan
  | infinite (negative : Bool)
  | finite (units : Int)
  deriving Repr, DecidableEq

namespace Double

/-- Equality of numbers, under which `nan` has no equal. -/
def same : Double → Double → Bool
  | nan, _ | _, nan => false
  | a, b => a == b

/-- The number of units from which on a value has no finite double. -/
def unitLimit : Nat :=
  Nat.pow 2 (1024 + 1074)

/-- A value given by its sign and its size in units. -/
def ofUnits (negative : Bool) (units : Nat) : Double :=
  if unitLimit ≤ units then infinite negative
  else finite (if negative then -units else units)

/-- The double nearest to a numeral. Numerals far outside the range are settled by their length. -/
def ofNumeral (numeral : Numeral) : Double :=
  let length : Int := (Nat.toDigits 10 numeral.digits).length
  if numeral.digits = 0 ∨ length + numeral.exponent ≤ -324 then finite 0
  else if 309 < length + numeral.exponent then infinite numeral.negative
  else
    let num := numeral.digits * Nat.pow 10 numeral.exponent.toNat * Nat.pow 2 1074
    let den := Nat.pow 10 (-numeral.exponent).toNat
    ofUnits numeral.negative (roundBits num den)

/-- The words for values without digits, in lower case. -/
def ofWord? (negative : Bool) (word : String) : Option Double :=
  if word = "inf" ∨ word = "infinity" then some (infinite negative)
  else if word = "nan" then some nan
  else none

/-- Reads a double: a word in any case with an optional sign, or a numeral. -/
def parse? (text : String) : Option Double :=
  let (negative, word) := spanSign text.toList
  (ofWord? negative (String.ofList (word.map Char.toLower))).or
    ((Numeral.parse? text.toList).map ofNumeral)

theorem same_iff {a b : Double} : a.same b ↔ a = b ∧ a ≠ nan := by
  cases a <;> cases b <;> simp [same]

end Double

end ExportLint
