import ExportLint.Proofs.Lines

/-!
# Positions and locations

Every position has its line and its column, also past the end of the text: the line counts the line feeds before
the position, and the column counts from just after the last of them. Only the greatest word has no column, and
only in a text without a line feed. So positions and their locations are in the same order.
-/

namespace ExportLint

/-- Whether a location comes before another one, by lines and then by columns. -/
def Location.Before (first second : Location) : Prop :=
  first.line < second.line ∨ first.line = second.line ∧ first.column < second.column

theorem Location.Before.asymm {first second : Location} (before : first.Before second) : ¬ second.Before first := by
  unfold Location.Before at before ⊢
  simp only [UInt32.lt_iff_toNat_lt, ← UInt32.toNat_inj] at before ⊢
  omega

/-- Whether the line that holds an offset begins at `start`: at the beginning of the text or just after a line feed,
with no line feed between there and the offset. -/
structure BeginsLine (text : String) (offset start : Nat) : Prop where
  le : start ≤ offset
  preceded : start = 0 ∨ (bytes text)[start - 1]? = some 10
  free : ∀ place, start ≤ place → place < offset → (bytes text)[place]? ≠ some 10

namespace LineMap

/-- What the line map of a text has to answer. -/
structure Exact (text : String) : Prop where
  lineCount : (ofText text).lineCount = (bytes text).count 10 + 1
  /-- Any right finding among the starts of the lines leads to the line, whichever way it was searched for. -/
  line_of_right : ∀ (finding : Finding) (offset : Offset), finding.Right (ofText text).starts offset →
    lineAt finding = .ok (feedsBefore text offset.toNat)
  line : ∀ offset : Offset, (ofText text).lineOf offset = .ok (feedsBefore text offset.toNat)
  location : ∀ offset : Offset, ∃ start, BeginsLine text offset.toNat start ∧
    if offset.toNat = 2 ^ 32 - 1 ∧ 10 ∉ bytes text then (ofText text).locate offset = .error .sumTooLarge
    else ∃ location, (ofText text).locate offset = .ok location ∧
      location.line.toNat = feedsBefore text offset.toNat + 1 ∧ location.column.toNat = offset.toNat - start + 1
  before_iff : ∀ (first second : Offset) (location other : Location), (ofText text).locate first = .ok location →
    (ofText text).locate second = .ok other → (location.Before other ↔ first < second)
  injective : ∀ (first second : Offset) (location : Location), (ofText text).locate first = .ok location →
    (ofText text).locate second = .ok location → first = second

/-! ### Where lines begin -/

theorem mem_feedEnds_iff {offset stop : Nat} {bytes : List UInt8} :
    stop ∈ feedEnds offset bytes ↔ ∃ place, stop = offset + place + 1 ∧ bytes[place]? = some 10 := by
  induction bytes generalizing offset with
  | nil => simp [feedEnds]
  | cons byte rest ih =>
    have later : stop ∈ feedEnds (offset + 1) rest ↔
        ∃ place, stop = offset + (place + 1) + 1 ∧ (byte :: rest)[place + 1]? = some 10 := by
      rw [ih]
      simp only [List.getElem?_cons_succ, Nat.add_assoc, Nat.add_comm 1]
    have firstOrLater : (∃ place, stop = offset + place + 1 ∧ (byte :: rest)[place]? = some 10) ↔
        (stop = offset + 1 ∧ byte = 10) ∨
          ∃ place, stop = offset + (place + 1) + 1 ∧ (byte :: rest)[place + 1]? = some 10 := by
      constructor
      · rintro ⟨_ | place, same, feed⟩
        · exact .inl ⟨same, Option.some.inj feed⟩
        · exact .inr ⟨place, same, feed⟩
      · rintro (⟨same, feed⟩ | ⟨place, found⟩)
        · exact ⟨0, same, congrArg some feed⟩
        · exact ⟨place + 1, found⟩
    rw [firstOrLater, ← later, feedEnds]
    by_cases feed : byte = 10
    · simp [feed]
    · simp [feed]

theorem length_feedEnds (offset : Nat) (bytes : List UInt8) : (feedEnds offset bytes).length = bytes.count 10 := by
  induction bytes generalizing offset with
  | nil => rfl
  | cons byte rest ih =>
    rw [feedEnds]
    by_cases feed : byte = 10
    · rw [if_pos feed, List.length_cons, ih, feed, List.count_cons_self]
    · rw [if_neg feed, ih, List.count_cons_of_ne feed]

theorem mem_breaks_iff {text : String} {stop : Nat} :
    stop ∈ (ofText text).breaks ↔ ∃ place, stop = place + 1 ∧ (bytes text)[place]? = some 10 := by
  rw [breaks_ofText, mem_feedEnds_iff]
  simp only [Nat.zero_add]

section
variable {text : String} {map : LineMap} {offset : Offset} {location : Location}

theorem beginsLine_lineStart (fits : (ofText text).Fits) (offset : Nat) :
    BeginsLine text offset ((ofText text).lineStart offset) := by
  have begins := fits.getElem?_lineIndex offset
  refine ⟨fits.lineStart_le offset, ?_, ?_⟩
  · rcases List.mem_cons.mp (List.mem_of_getElem? begins) with first | later
    · exact .inl first
    · obtain ⟨place, same, feed⟩ := mem_breaks_iff.mp later
      rw [same]
      exact .inr feed
  · -- the line after a feed would have begun up to the offset, so the line of the offset would not come before it
    intro place after before feed
    have listed : place + 1 ∈ (ofText text).breaks := mem_breaks_iff.mpr ⟨place, rfl, feed⟩
    obtain ⟨line, found⟩ := List.mem_iff_getElem?.mp (List.mem_cons_of_mem 0 listed)
    have reached := (fits.start_le_iff found offset).mp before
    have order := (fits.start_le_iff begins place).mp after
    have early := (fits.start_le_iff found place).not.mp (by omega)
    omega

/-- Without a line feed there is one line, and where a text is short, the last word lies behind all line feeds. -/
theorem lineStart_eq_zero_iff (fits : (ofText text).Fits) {offset : Nat} (behind : text.utf8ByteSize ≤ offset) :
    (ofText text).lineStart offset = 0 ↔ 10 ∉ bytes text := by
  have begins := beginsLine_lineStart fits offset
  constructor
  · intro zero mem
    obtain ⟨place, feed⟩ := List.mem_iff_getElem?.mp mem
    have inside := (List.getElem?_eq_some_iff.mp feed).1
    rw [length_bytes] at inside
    exact begins.free place (by omega) (by omega) feed
  · intro none
    rcases begins.preceded with zero | feed
    · exact zero
    · exact absurd (List.mem_of_getElem? feed) none

/-! ### Columns and the order of locations -/

/-- A located offset has the line after its index and the column after its distance from the start of the line. -/
theorem Fits.location_eq (fits : map.Fits) (few : map.lineIndex offset.toNat + 1 < 2 ^ 32)
    (located : map.locate offset = .ok location) : location.line.toNat = map.lineIndex offset.toNat + 1 ∧
      location.column.toNat = offset.toNat - map.lineStart offset.toNat + 1 := by
  have bound := offset.toNat_lt
  have one : (1 : UInt32).toNat = 1 := rfl
  rw [fits.locate_eq few] at located
  cases added : Offset.add (.ofNat (offset.toNat - map.lineStart offset.toNat)) 1 with
  | error fault =>
    rw [added] at located
    cases located
  | ok column =>
    rw [added] at located
    cases located
    have sum := Offset.add_eq_ok_iff.mp added
    rw [one, UInt32.toNat_ofNat', Nat.mod_eq_of_lt (by omega)] at sum
    exact ⟨by rw [UInt32.toNat_ofNat', Nat.mod_eq_of_lt few], sum⟩

/-- There is a column unless the distance from the start of the line is the greatest word. -/
theorem Fits.exists_location (fits : map.Fits) (few : map.lineIndex offset.toNat + 1 < 2 ^ 32)
    (near : offset.toNat - map.lineStart offset.toNat + 1 < 2 ^ 32) : ∃ location, map.locate offset = .ok location := by
  have one : (1 : UInt32).toNat = 1 := rfl
  have added : Offset.add (.ofNat (offset.toNat - map.lineStart offset.toNat)) 1 =
      .ok (.ofNat (offset.toNat - map.lineStart offset.toNat + 1)) := by
    rw [Offset.add_eq_ok_iff, one, UInt32.toNat_ofNat', UInt32.toNat_ofNat', Nat.mod_eq_of_lt near,
      Nat.mod_eq_of_lt (by omega)]
  rw [fits.locate_eq few, added]
  exact ⟨_, rfl⟩

theorem Fits.locate_eq_error (fits : map.Fits) (few : map.lineIndex offset.toNat + 1 < 2 ^ 32)
    (far : offset.toNat - map.lineStart offset.toNat = 2 ^ 32 - 1) : map.locate offset = .error .sumTooLarge := by
  have one : (1 : UInt32).toNat = 1 := rfl
  have size : UInt32.size = 2 ^ 32 := rfl
  have added : Offset.add (.ofNat (offset.toNat - map.lineStart offset.toNat)) 1 = .error .sumTooLarge := by
    rw [Offset.add, one, UInt32.toNat_ofNat', Nat.mod_eq_of_lt (by omega), if_neg (by omega)]
  rw [fits.locate_eq few, added]
  rfl

theorem lineIndex_mono (map : LineMap) {first second : Nat} (le : first ≤ second) :
    map.lineIndex first ≤ map.lineIndex second := by
  refine List.countP_mono_left fun stop _ before => ?_
  rw [decide_eq_true_eq] at before ⊢
  omega

variable {first second : Offset} {other : Location}

/-- A later offset lies on a later line, or farther to the right on the same line. -/
theorem Fits.before_of_lt (fits : map.Fits) (few : ∀ offset, map.lineIndex offset + 1 < 2 ^ 32)
    (located : map.locate first = .ok location) (located' : map.locate second = .ok other) (less : first < second) :
    location.Before other := by
  rw [UInt32.lt_iff_toNat_lt] at less
  obtain ⟨line, column⟩ := fits.location_eq (few _) located
  obtain ⟨line', column'⟩ := fits.location_eq (few _) located'
  have lines := map.lineIndex_mono (Nat.le_of_lt less)
  have start := fits.lineStart_le first.toNat
  rcases Nat.lt_or_eq_of_le lines with earlier | same
  · left
    rw [UInt32.lt_iff_toNat_lt]
    omega
  · have begins : map.lineStart first.toNat = map.lineStart second.toNat := by
      have here := fits.getElem?_lineIndex first.toNat
      rw [same, fits.getElem?_lineIndex] at here
      exact (Option.some.inj here).symm
    right
    rw [← UInt32.toNat_inj, UInt32.lt_iff_toNat_lt]
    omega

/-- Offsets are in the order of their locations. -/
theorem Fits.before_iff (fits : map.Fits) (few : ∀ offset, map.lineIndex offset + 1 < 2 ^ 32)
    (located : map.locate first = .ok location) (located' : map.locate second = .ok other) :
    location.Before other ↔ first < second := by
  constructor
  · intro before
    by_contra least
    by_cases same : first = second
    · subst same
      cases located.symm.trans located'
      exact before.asymm before
    · have greater : second < first := UInt32.lt_of_le_of_ne (UInt32.not_lt.mp least) (Ne.symm same)
      exact before.asymm (fits.before_of_lt few located' located greater)
  · exact fits.before_of_lt few located located'

theorem Fits.eq_of_located (fits : map.Fits) (few : ∀ offset, map.lineIndex offset + 1 < 2 ^ 32)
    (located : map.locate first = .ok location) (located' : map.locate second = .ok location) : first = second := by
  have never : ¬ location.Before location := fun both => both.asymm both
  have notLess := (fits.before_iff few located located').not.mp never
  have notGreater := (fits.before_iff few located' located).not.mp never
  exact UInt32.le_antisymm (UInt32.not_lt.mp notGreater) (UInt32.not_lt.mp notLess)

end

/-- There are no more line feeds than bytes, so a line of a short text can be counted. -/
theorem lineIndex_few {text : String} (short : text.utf8ByteSize < 2 ^ 32 - 1) (offset : Nat) :
    (ofText text).lineIndex offset + 1 < 2 ^ 32 := by
  have lines : (ofText text).lineIndex offset ≤ (ofText text).breaks.length := List.countP_le_length
  have feeds : (bytes text).count 10 ≤ (bytes text).length := List.count_le_length
  rw [breaks_ofText, length_feedEnds] at lines
  rw [length_bytes] at feeds
  omega

/-- An offset has its line and its column, unless it is the greatest word and there is no line feed. -/
theorem exists_location_or_overflow {text : String} (short : text.utf8ByteSize < 2 ^ 32 - 1) (offset : Offset) :
    ∃ start, BeginsLine text offset.toNat start ∧
      if offset.toNat = 2 ^ 32 - 1 ∧ 10 ∉ bytes text then (ofText text).locate offset = .error .sumTooLarge
      else ∃ location, (ofText text).locate offset = .ok location ∧
        location.line.toNat = feedsBefore text offset.toNat + 1 ∧
        location.column.toNat = offset.toNat - start + 1 := by
  have fits : (ofText text).Fits := fits_ofText (by omega)
  have few := lineIndex_few short offset.toNat
  have bound := offset.toNat_lt
  refine ⟨_, beginsLine_lineStart fits offset.toNat, ?_⟩
  by_cases far : offset.toNat = 2 ^ 32 - 1 ∧ 10 ∉ bytes text
  · have behind : text.utf8ByteSize ≤ offset.toNat := by omega
    have zero := (lineStart_eq_zero_iff fits behind).mpr far.2
    rw [if_pos far]
    apply fits.locate_eq_error few
    omega
  · have near : offset.toNat - (ofText text).lineStart offset.toNat + 1 < 2 ^ 32 := by
      by_contra large
      have last : offset.toNat = 2 ^ 32 - 1 := by omega
      have behind : text.utf8ByteSize ≤ offset.toNat := by omega
      exact far ⟨last, (lineStart_eq_zero_iff fits behind).mp (by omega)⟩
    obtain ⟨location, located⟩ := fits.exists_location few near
    rw [if_neg far, ← lineIndex_ofText]
    exact ⟨location, located, fits.location_eq few located⟩

/-- In a text that is shorter than the greatest word, every position has the line and the column that the line feeds
before it give, but for the greatest word in a text without a line feed. -/
theorem exact_of_short {text : String} (short : text.utf8ByteSize < 2 ^ 32 - 1) : Exact text := by
  have fits : (ofText text).Fits := fits_ofText (by omega)
  have few := lineIndex_few short
  constructor
  · rw [lineCount, breaks_ofText, length_feedEnds]
  · intro finding offset right
    rw [fits.lineAt_of_right right, lineIndex_ofText]
  · intro offset
    rw [fits.lineOf_eq, lineIndex_ofText]
  · exact exists_location_or_overflow short
  · intro first second location other located located'
    exact fits.before_iff few located located'
  · intro first second location located located'
    exact fits.eq_of_located few located located'

/-- Positions past the end of a text have locations, but for the last one where there is no line feed. -/
theorem exact_of_short_past_end :
    (ofText "ab").locate 4294967295 = .error .sumTooLarge ∧
      ∃ location, (ofText "a\n\nb").locate 4294967295 = .ok location ∧
        location.line.toNat = 3 ∧ location.column.toNat = 4294967293 := by
  have one : Exact "ab" := exact_of_short (by decide)
  have lines : Exact "a\n\nb" := exact_of_short (by decide)
  have greatest : (4294967295 : Offset).toNat = 2 ^ 32 - 1 := rfl
  constructor
  · obtain ⟨start, _, located⟩ := one.location 4294967295
    rwa [if_pos ⟨greatest, by decide⟩] at located
  · obtain ⟨start, begins, located⟩ := lines.location 4294967295
    rw [if_neg (by decide), greatest] at located
    obtain ⟨location, found, line, column⟩ := located
    -- the two line feeds stand at 1 and 2, so the last line begins at 3
    have after : 3 ≤ start := by
      by_contra early
      exact begins.free 2 (by omega) (by decide) (by decide)
    have before : start ≤ 3 := by
      by_contra late
      rcases begins.preceded with zero | feed
      · omega
      · obtain ⟨place, rfl⟩ : ∃ place, start = place + 4 := ⟨start - 4, by omega⟩
        have inside : place + 3 < (bytes "a\n\nb").length := (List.getElem?_eq_some_iff.mp feed).1
        have four : (bytes "a\n\nb").length = 4 := by decide
        obtain rfl : place = 0 := by omega
        exact absurd feed (by decide)
    have feeds : feedsBefore "a\n\nb" (2 ^ 32 - 1) = 2 := by
      have whole : (bytes "a\n\nb").take (2 ^ 32 - 1) = bytes "a\n\nb" := List.take_of_length_le (by decide)
      rw [feedsBefore, whole]
      decide
    refine ⟨location, found, ?_, ?_⟩
    · rw [line, feeds]
    · omega

end LineMap

end ExportLint
