import ExportLint.Json.Refusal
import ExportLint.Numeric.Numeral
import ExportLint.Numeric.Rounding

/-!
# Words, numbers and strings of JSON

Readers for the tokens of JSON. Each takes the text from where the token begins, or from just after
its first character, and gives the token with what is left of the text.
-/

namespace ExportLint.Json

/-- What is left of a text that was read in part. -/
abbrev Tail (text : List Char) := { rest : List Char // rest.length ≤ text.length }

/-- What is left of a text from which something was read. -/
abbrev Rest (text : List Char) := { rest : List Char // rest.length < text.length }

variable {text : List Char}

/-- What is left after reading on from a tail. -/
def Tail.trans (first : Tail text) (second : Tail first.1) : Tail text :=
  ⟨second.1, Nat.le_trans second.2 first.2⟩

/-- What is left after reading on from a text that something was read from. -/
def Rest.trans (first : Rest text) (second : Tail first.1) : Rest text :=
  ⟨second.1, Nat.lt_of_le_of_lt second.2 first.2⟩

/-- Reading something is reading a part. -/
def Rest.tail (rest : Rest text) : Tail text :=
  ⟨rest.1, Nat.le_of_lt rest.2⟩

/-- What is left after a character and a part of the text after it. -/
def Tail.cons (c : Char) (tail : Tail text) : Rest (c :: text) :=
  ⟨tail.1, Nat.lt_succ_of_le tail.2⟩

/-- What is left after nothing was read. -/
def Tail.whole (text : List Char) : Tail text :=
  ⟨text, Nat.le_refl _⟩

/-- The characters that may stand between tokens. -/
def isSpace (c : Char) : Bool :=
  c == ' ' || c == '\n' || c == '\t' || c == '\r'

/-- The text after the blanks that it begins with. -/
def skipSpace (text : List Char) : Tail text :=
  ⟨text.dropWhile isSpace, (List.dropWhile_sublist _).length_le⟩

/-- The first character after blanks, with the text after it. -/
def firstMark? (text : List Char) : Option (Char × Rest text) :=
  match skipSpace text with
  | ⟨[], _⟩ => none
  | ⟨c :: rest, shorter⟩ => some (c, ⟨rest, shorter⟩)

/-- Reads the letters of a word one by one. -/
def readWord : (word text : List Char) → Except Refusal (Tail text)
  | [], text => .ok (.whole text)
  | _ :: _, [] => .error (.here [] .endInValue)
  | letter :: word, c :: text => do
    if c = letter then return Rest.tail (Tail.cons c (← readWord word text))
    else throw (.next (c :: text) .expectedWord)

/-! ## Numbers -/

/-- The largest significand that is kept: a word of 64 bits. -/
def wordLimit : Nat :=
  Nat.pow 2 64 - 1

/-- Appends digits to a significand while it stays a word, and counts the digits left over. -/
def appendDigits (significand : Nat) : List Char → Nat × Nat
  | [] => (significand, 0)
  | c :: rest =>
    let longer := significand * 10 + digitValue c
    if longer ≤ wordLimit then appendDigits longer rest else (significand, rest.length + 1)

/-- The significand of a number and its power of ten. Digits of the whole part that do not fit raise
the power, and digits of the fraction that do not fit are dropped. -/
def scaled (whole fraction : List Char) : Nat × Int :=
  let (high, raised) := appendDigits 0 whole
  let (significand, dropped) := appendDigits high fraction
  (significand, raised - (fraction.length - dropped : Nat))

/-- The least number from which on rounding to a double gives infinity. -/
def doubleLimit : Nat :=
  Nat.pow 2 1024 - Nat.pow 2 970

/-- Whether a significand times a power of ten is too large for a double. Both factors are rounded
to doubles first. -/
def exceedsDouble (significand : Nat) (exponent : Int) : Bool :=
  significand ≠ 0 &&
    (308 < exponent ||
      (0 ≤ exponent && doubleLimit ≤ roundBits significand 1 * roundBits (Nat.pow 10 exponent.toNat) 1))

/-- The largest exponent that may be written. -/
def exponentLimit : Nat :=
  2147483647

/-- The digits after the one with which an exponent comes to exceed the limit. -/
def digitsPastLimit (exponent : Nat) : List Char → Option (List Char)
  | [] => none
  | c :: rest =>
    let longer := exponent * 10 + digitValue c
    if exponentLimit < longer then some rest else digitsPastLimit longer rest

/-- The digits at the beginning of a text and the text after them. -/
def readDigits (text : List Char) : List Char × Tail text :=
  ((spanDigits text).1, ⟨(spanDigits text).2, length_spanDigits_le text⟩)

/-- Reads the fraction of a number, if it has one, from its point on. -/
def readFraction (text : List Char) : Except Refusal (List Char × Tail text) :=
  match text with
  | '.' :: text =>
    let (digits, rest) := readDigits text
    if digits = [] then .error (.next rest.1 (if rest.1 = [] then .endInValue else .invalidNumber))
    else .ok (digits, Rest.tail (Tail.cons '.' rest))
  | text => .ok ([], .whole text)

/-- Reads a sign, if there is one. -/
def readSign (text : List Char) : Bool × Tail text :=
  ((spanSign text).1, ⟨(spanSign text).2, length_spanSign_le text⟩)

/-- Reads the exponent of a number, if it has one, from its letter on. An exponent past the limit is
refused as soon as it is seen to make the number too large. -/
def readExponent (significand : Nat) : (text : List Char) → Except Refusal (Int × Tail text)
  | [] => .ok (0, .whole [])
  | mark :: text =>
    if mark = 'e' ∨ mark = 'E' then
      let (negative, unsigned) := readSign text
      let (digits, rest) := readDigits unsigned.1
      if digits = [] then .error (.next rest.1 (if rest.1 = [] then .endInValue else .invalidNumber))
      else
        match digitsPastLimit 0 digits, decide (significand ≠ 0) && !negative with
        | some late, true => .error (.here (late ++ rest.1) .numberOutOfRange)
        | _, _ =>
          .ok (if negative then -digitsValue digits else digitsValue digits,
            Rest.tail (Tail.cons mark (Tail.trans unsigned rest)))
    else .ok (0, .whole (mark :: text))

/-- Reads the whole part of a number: a zero, or digits of which the first is another one. -/
def readWhole : (text : List Char) → Except Refusal (List Char × Rest text)
  | [] => .error (.here [] .endInValue)
  | first :: text =>
    if first = '0' then
      if text.head?.any Char.isDigit then .error (.next text .invalidNumber)
      else .ok (['0'], Tail.cons first (.whole text))
    else if first.isDigit then
      let (digits, rest) := readDigits text
      .ok (first :: digits, Tail.cons first rest)
    else .error (.next (first :: text) .invalidNumber)

/-- Reads a number from its first digit on. -/
def readUnsigned (negative : Bool) (text : List Char) : Except Refusal (Numeral × Rest text) := do
  let (whole, rest) ← readWhole text
  let (fraction, afterFraction) ← readFraction rest.1
  let (significand, power) := scaled whole fraction
  let (exponent, afterExponent) ← readExponent significand afterFraction.1
  if exceedsDouble significand (power + exponent) then throw (.here afterExponent.1 .numberOutOfRange)
  else
    return (⟨negative, digitsValue (whole ++ fraction), exponent - fraction.length⟩,
      Rest.trans rest (Tail.trans afterFraction afterExponent))

/-- Reads a number. -/
def readNumber (text : List Char) : Except Refusal (Numeral × Rest text) :=
  match text with
  | '-' :: text => do
    let (numeral, rest) ← readUnsigned true text
    return (numeral, Tail.cons '-' (Rest.tail rest))
  | text => readUnsigned false text

/-! ## Strings -/

/-- The value of a hexadecimal digit. -/
def hexValue? (c : Char) : Option Nat :=
  if c.isDigit then some (c.toNat - '0'.toNat)
  else if 'a' ≤ c ∧ c ≤ 'f' then some (c.toNat - 'a'.toNat + 10)
  else if 'A' ≤ c ∧ c ≤ 'F' then some (c.toNat - 'A'.toNat + 10)
  else none

/-- The number that four hexadecimal digits stand for. -/
def hexUnit? (a b c d : Char) : Option Nat := do
  return (((← hexValue? a) * 16 + (← hexValue? b)) * 16 + (← hexValue? c)) * 16 + (← hexValue? d)

/-- Reads the four hexadecimal digits of an escape. -/
def readUnit (text : List Char) : Except Refusal (Nat × Tail text) :=
  if byteCount (text.take 4) < 4 then .error (.here [] .endInString)
  else
    match text with
    | a :: b :: c :: d :: rest =>
      match hexUnit? a b c d with
      | some unit => .ok (unit, ⟨rest, Nat.le_add_right rest.length 4⟩)
      | none => .error (.after 4 text .invalidEscape)
    | _ => .error (.after 4 text .invalidEscape)

/-- Reads a character that the second half of a surrogate pair needs. -/
def readMark (mark : Char) : (text : List Char) → Except Refusal (Rest text)
  | [] => .error (.here [] .endInString)
  | c :: rest =>
    if c = mark then .ok (Tail.cons c (.whole rest)) else .error (.next (c :: rest) .brokenSurrogatePair)

/-- Whether a unit is the first half of a surrogate pair. -/
def isLeading (unit : Nat) : Bool :=
  0xD800 ≤ unit && unit ≤ 0xDBFF

/-- Whether a unit is the second half of a surrogate pair. -/
def isTrailing (unit : Nat) : Bool :=
  0xDC00 ≤ unit && unit ≤ 0xDFFF

/-- Reads the character that one unit or a surrogate pair of units stands for. -/
def readUnits (text : List Char) : Except Refusal (Char × Tail text) := do
  let (unit, rest) ← readUnit text
  if isTrailing unit then throw (.here rest.1 .loneSurrogate)
  else if isLeading unit then
    let afterSlash ← readMark '\\' rest.1
    let afterMark ← readMark 'u' afterSlash.1
    let (second, last) ← readUnit afterMark.1
    if isTrailing second then
      return (Char.ofNat (0x10000 + (unit - 0xD800) * 0x400 + (second - 0xDC00)),
        Tail.trans rest (Rest.tail (Rest.trans afterSlash (Rest.tail (Rest.trans afterMark last)))))
    else throw (.here last.1 .loneSurrogate)
  else return (Char.ofNat unit, rest)

/-- The character that a letter after a backslash stands for. -/
def escaped? : Char → Option Char
  | '"' => some '"'
  | '\\' => some '\\'
  | '/' => some '/'
  | 'b' => some '\x08'
  | 'f' => some '\x0c'
  | 'n' => some '\n'
  | 'r' => some '\r'
  | 't' => some '\t'
  | _ => none

/-- Reads an escape from just after its backslash. -/
def readEscape : (text : List Char) → Except Refusal (Char × Rest text)
  | [] => .error (.here [] .endInString)
  | c :: text =>
    if c = 'u' then do
      let (char, rest) ← readUnits text
      return (char, Tail.cons c rest)
    else
      match escaped? c with
      | some char => .ok (char, Tail.cons c (.whole text))
      | none => .error (.next (c :: text) .invalidEscape)

/-- Reads a string from just after its opening quote. -/
def readString (text : List Char) : Except Refusal (List Char × Rest text) :=
  match text with
  | [] => .error (.here [] .endInString)
  | c :: rest =>
    if c = '"' then .ok ([], Tail.cons c (.whole rest))
    else if c = '\\' then do
      let (char, after) ← readEscape rest
      let (chars, last) ← readString after.1
      return (char :: chars, Tail.cons c (Rest.tail (Rest.trans after (Rest.tail last))))
    else if c.toNat < 0x20 then .error (.next (c :: rest) .controlCharacter)
    else do
      let (chars, last) ← readString rest
      return (c :: chars, Tail.cons c (Rest.tail last))
termination_by text.length
decreasing_by
  · exact Nat.lt_succ_of_lt after.2
  · exact Nat.lt_succ_self rest.length

end ExportLint.Json
