/-!
# Numerals

Decimal numbers as they are written: a sign, digits, and the power of ten by which they count.
-/

namespace ExportLint

/-- The number `digits * 10 ^ exponent`, or its negative. -/
structure Numeral where
  negative : Bool := false
  digits : Nat
  exponent : Int := 0
  deriving Repr, DecidableEq

/-- The value of a digit; other characters count as nothing. -/
def digitValue (c : Char) : Nat :=
  if c.isDigit then c.toNat - '0'.toNat else 0

/-- The number that a row of digits stands for. -/
def digitsValue (digits : List Char) : Nat :=
  digits.foldl (fun n c => n * 10 + digitValue c) 0

/-- A text cut after the digits that it begins with. -/
def spanDigits (text : List Char) : List Char × List Char :=
  (text.takeWhile Char.isDigit, text.dropWhile Char.isDigit)

/-- Whether a text begins with a minus sign, and the text after a sign of either kind. -/
def spanSign : List Char → Bool × List Char
  | '-' :: rest => (true, rest)
  | '+' :: rest => (false, rest)
  | text => (false, text)

namespace Numeral

/-- The exponent that the end of a numeral gives: nothing, or `e` with a signed row of digits. -/
def parseExponent? : List Char → Option Int
  | [] => some 0
  | mark :: rest =>
    let (negative, digits) := spanSign rest
    if (mark = 'e' ∨ mark = 'E') ∧ digits ≠ [] ∧ digits.all Char.isDigit then
      some (if negative then -digitsValue digits else digitsValue digits)
    else none

/-- Reads a numeral: a sign, digits with or without a point among them, and an exponent. -/
def parse? (text : List Char) : Option Numeral := do
  let (negative, text) := spanSign text
  let (whole, text) := spanDigits text
  let (fraction, text) := match text with
    | '.' :: text => spanDigits text
    | text => ([], text)
  if whole = [] ∧ fraction = [] then none
  else
    let exponent ← parseExponent? text
    return ⟨negative, digitsValue (whole ++ fraction), exponent - fraction.length⟩

end Numeral

theorem length_spanSign_le (text : List Char) : (spanSign text).2.length ≤ text.length := by
  unfold spanSign
  split <;> simp

theorem spanDigits_append (text : List Char) : (spanDigits text).1 ++ (spanDigits text).2 = text :=
  List.takeWhile_append_dropWhile

theorem length_spanDigits_le (text : List Char) : (spanDigits text).2.length ≤ text.length := by
  have := congrArg List.length (spanDigits_append text)
  rw [List.length_append] at this
  omega

end ExportLint
