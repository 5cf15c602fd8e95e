import ExportLint.Text.Offset

/-!
# Spans and ranges

Two ways to mark a stretch of text: a span holds its start and its length, a range its two ends.
Diagnostics carry spans and syntax nodes carry ranges.
-/

namespace ExportLint

/-- A stretch of text given by its start and its length. -/
structure Span where
  start : Offset
  length : Offset
  deriving Repr, DecidableEq

/-- A stretch of text given by the offset of its first byte and the offset after its last. -/
structure Range where
  start : Offset
  stop : Offset
  deriving Repr, DecidableEq

namespace Span

/-- The span between two offsets in order. -/
def ofBounds (start stop : Offset) : Except Fault Span :=
  if start ≤ stop then .ok ⟨start, stop - start⟩ else .error .boundsReversed

/-- The offset after the last byte. -/
def stop (span : Span) : Except Fault Offset :=
  Offset.add span.start span.length

/-- Whether the span covers no byte. -/
def isEmpty (span : Span) : Bool :=
  span.length == 0

/-- Whether the byte at an offset is covered. The end matters only from the start on. -/
def contains (span : Span) (offset : Offset) : Except Fault Bool :=
  if span.start ≤ offset then do return decide (offset < (← span.stop)) else .ok false

/-- The same stretch as a range. -/
def range (span : Span) : Except Fault Range := do
  return ⟨span.start, ← span.stop⟩

/-- The ends in the short form `start..stop`. -/
def text (span : Span) : Except Fault String := do
  return s!"{span.start}..{← span.stop}"

/-- The ends in the form of a half-open interval. -/
def interval (span : Span) : Except Fault String := do
  return s!"[{span.start}, {← span.stop})"

end Span

namespace Range

/-- The number of bytes covered. -/
def length (range : Range) : Except Fault Offset :=
  Offset.sub range.stop range.start

/-- Whether the range covers no byte. -/
def isEmpty (range : Range) : Bool :=
  range.start == range.stop

/-- The same stretch as a span. -/
def span (range : Range) : Except Fault Span :=
  Span.ofBounds range.start range.stop

/-- The ends in the short form `start..stop`. -/
def text (range : Range) : String :=
  s!"{range.start}..{range.stop}"

end Range

theorem Span.ofBounds_eq_ok_iff {start stop : Offset} {span : Span} :
    Span.ofBounds start stop = .ok span ↔ span.start = start ∧ span.stop = .ok stop := by
  rw [Span.stop, Offset.add_eq_ok_iff, Span.ofBounds]
  obtain ⟨first, count⟩ := span
  split
  case isTrue le =>
    have := UInt32.le_iff_toNat_le.mp le
    simp only [Except.ok.injEq, Span.mk.injEq]
    constructor
    · rintro ⟨rfl, rfl⟩
      refine ⟨rfl, ?_⟩
      rw [UInt32.toNat_sub_of_le _ _ le]
      omega
    · rintro ⟨rfl, sum⟩
      refine ⟨rfl, ?_⟩
      rw [← UInt32.toNat_inj, UInt32.toNat_sub_of_le _ _ le]
      omega
  case isFalse above =>
    have := mt UInt32.le_iff_toNat_le.mpr above
    simp only [reduceCtorEq, false_iff, not_and]
    rintro rfl
    omega

end ExportLint
