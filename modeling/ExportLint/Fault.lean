/-!
# Faults

The reasons for which an operation has no answer. Positions are 32-bit words and types are
numbered entries of a table, so arithmetic may leave the word range and a number may name no entry.
-/

namespace ExportLint

/-- Why an operation has no answer. -/
inductive Fault where
  /-- A sum of positions does not fit in a word. -/
  | sumTooLarge
  /-- A difference of positions would be negative. -/
  | differenceNegative
  /-- A span was asked for whose end lies before its start. -/
  | boundsReversed
  /-- A number names no entry of a table with `size` entries. -/
  | noSuchEntry (size index : Nat)
  deriving Repr, DecidableEq

/-- The wording under which a fault is reported. -/
def Fault.message : Fault → String
  | .sumTooLarge => "attempt to add with overflow"
  | .differenceNegative => "attempt to subtract with overflow"
  | .boundsReversed => "assertion failed: end >= start"
  | .noSuchEntry size index => s!"index out of bounds: the len is {size} but the index is {index}"

/-- Two operations in a row have an answer where the first one has one and the second one has one for it. -/
theorem bind_eq_ok_iff {ε α β : Type} {first : Except ε α} {next : α → Except ε β} {result : β} :
    (first >>= next) = .ok result ↔ ∃ value, first = .ok value ∧ next value = .ok result := by
  cases first <;> simp [bind, Except.bind]

end ExportLint
