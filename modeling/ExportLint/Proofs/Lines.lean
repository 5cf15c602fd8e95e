import ExportLint.Proofs.Bytes
import ExportLint.Text.LineMap

/-!
# Lines in bytes

A line map finds the lines by the characters of a text. What it answers is said in bytes here: the index of a
line is the number of line feeds among the bytes before the offset, and the line begins just after the last of
them. This holds at every offset, also inside of a character and past the end of the text. A search among the
starts of the lines leads to this line, whether it meets the start of a line or a place between two of them.
-/

namespace ExportLint

/-- The number of line feeds among the first bytes of a text. -/
def feedsBefore (text : String) (offset : Nat) : Nat :=
  ((bytes text).take offset).count 10

/-- How many bytes come after the last line feed. -/
def sinceFeed (bytes : List UInt8) : Nat :=
  (bytes.rtakeWhile (· ≠ 10)).length

/-- The number of bytes after the last line feed among the first bytes of a text. -/
def bytesSinceFeed (text : String) (offset : Nat) : Nat :=
  sinceFeed ((bytes text).take offset)

theorem sinceFeed_le (bytes : List UInt8) : sinceFeed bytes ≤ bytes.length := by
  rw [sinceFeed, List.rtakeWhile, List.length_reverse]
  have shorter := (List.takeWhile_sublist (· ≠ (10 : UInt8)) (l := bytes.reverse)).length_le
  rwa [List.length_reverse] at shorter

theorem sinceFeed_concat (bytes : List UInt8) (byte : UInt8) :
    sinceFeed (bytes ++ [byte]) = if byte = 10 then 0 else sinceFeed bytes + 1 := by
  unfold sinceFeed
  by_cases feed : byte = 10
  · rw [if_pos feed, List.rtakeWhile_concat_neg _ _ _ (by simp [feed])]
    rfl
  · rw [if_neg feed, List.rtakeWhile_concat_pos _ _ _ (by simp [feed]), List.length_append]
    rfl

namespace LineMap

/-! ### Breaks in bytes -/

/-- The offsets just after each line feed of bytes that begin at `offset`. -/
def feedEnds (offset : Nat) : List UInt8 → List Nat
  | [] => []
  | byte :: rest => if byte = 10 then (offset + 1) :: feedEnds (offset + 1) rest else feedEnds (offset + 1) rest

theorem feedEnds_append {first : List UInt8} (free : 10 ∉ first) (offset : Nat) (rest : List UInt8) :
    feedEnds offset (first ++ rest) = feedEnds (offset + first.length) rest := by
  induction first generalizing offset with
  | nil => rfl
  | cons byte others ih =>
    rw [List.mem_cons, not_or] at free
    rw [List.cons_append, feedEnds, if_neg (Ne.symm free.1), ih free.2, List.length_cons]
    congr 1
    omega

theorem breaksFrom_eq (offset : Nat) (text : List Char) :
    breaksFrom offset text = feedEnds offset (text.flatMap String.utf8EncodeChar) := by
  induction text generalizing offset with
  | nil => rfl
  | cons c rest ih =>
    rw [breaksFrom, List.flatMap_cons]
    by_cases feed : c = '\n'
    · rw [if_pos feed, ih, feed, encode_feed]
      rfl
    · rw [if_neg feed, ih, feedEnds_append (feed_notMem_encode feed), String.length_utf8EncodeChar]

theorem breaks_ofText (text : String) : (ofText text).breaks = feedEnds 0 (bytes text) := by
  rw [bytes_eq_flatMap]
  exact breaksFrom_eq 0 text.toList

theorem lt_of_mem_feedEnds {offset stop : Nat} {bytes : List UInt8} (mem : stop ∈ feedEnds offset bytes) :
    offset < stop := by
  induction bytes generalizing offset with
  | nil => cases mem
  | cons byte rest ih =>
    rw [feedEnds] at mem
    split at mem
    · rcases List.mem_cons.mp mem with here | later
      · omega
      · have := ih later
        omega
    · have := ih mem
      omega

theorem filter_feedEnds_here (offset : Nat) (bytes : List UInt8) :
    (feedEnds offset bytes).filter (· ≤ offset) = [] := by
  rw [List.filter_eq_nil_iff]
  intro stop mem
  have := lt_of_mem_feedEnds mem
  simp only [decide_eq_true_eq]
  omega

theorem length_filter_feedEnds (offset count : Nat) (bytes : List UInt8) :
    ((feedEnds offset bytes).filter (· ≤ offset + count)).length = (bytes.take count).count 10 := by
  induction bytes generalizing offset count with
  | nil => simp [feedEnds]
  | cons byte rest ih =>
    cases count with
    | zero => simp [filter_feedEnds_here]
    | succ count =>
      have later := ih (offset + 1) count
      rw [Nat.add_right_comm, Nat.add_assoc] at later
      rw [feedEnds, List.take_succ_cons]
      by_cases feed : byte = 10
      · rw [if_pos feed, List.filter_cons_of_pos (by simp), List.length_cons, later, feed, List.count_cons_self]
      · rw [if_neg feed, later, List.count_cons_of_ne feed]

/-- Where the last line has begun, and what has come of it. The bytes before the breaks are `seen`. -/
theorem getLast?_filter_feedEnds (seen rest : List UInt8) (count : Nat) :
    ((feedEnds seen.length rest).filter (· ≤ seen.length + count)).getLast?.getD (seen.length - sinceFeed seen) +
      sinceFeed (seen ++ rest.take count) = seen.length + min count rest.length := by
  have nothing : seen.length - sinceFeed seen + sinceFeed seen = seen.length :=
    Nat.sub_add_cancel (sinceFeed_le seen)
  induction rest generalizing seen count with
  | nil => simpa [feedEnds] using nothing
  | cons byte rest ih =>
    cases count with
    | zero => simpa [filter_feedEnds_here] using nothing
    | succ count =>
      have later := ih (seen ++ [byte]) count (Nat.sub_add_cancel (sinceFeed_le _))
      rw [List.length_append, List.length_singleton, sinceFeed_concat, List.append_assoc, List.singleton_append,
        Nat.add_right_comm, Nat.add_assoc] at later
      rw [feedEnds, List.take_succ_cons, List.length_cons, Nat.add_min_add_right]
      by_cases feed : byte = 10
      · rw [if_pos feed] at later ⊢
        rw [Nat.sub_zero] at later
        rw [List.filter_cons_of_pos (by simp), List.getLast?_cons, Option.getD_some]
        omega
      · rw [if_neg feed] at later ⊢
        rw [Nat.add_sub_add_right] at later
        omega

/-! ### The search for a line -/

/-- The numbers up to a bound stand first among ascending numbers. -/
theorem getElem_le_iff {numbers : List Nat} (ascending : numbers.Pairwise (· < ·)) (bound : Nat) {place : Nat}
    (inside : place < numbers.length) : numbers[place] ≤ bound ↔ place < numbers.countP (· ≤ bound) := by
  induction numbers generalizing place with
  | nil => cases inside
  | cons first rest ih =>
    obtain ⟨above, rising⟩ := List.pairwise_cons.mp ascending
    by_cases le : first ≤ bound
    · rw [List.countP_cons_of_pos (by simpa using le)]
      cases place with
      | zero => simpa using le
      | succ place =>
        rw [List.getElem_cons_succ, ih rising]
        omega
    · have none : (first :: rest).countP (· ≤ bound) = 0 := by
        refine List.countP_eq_zero.mpr fun number mem small => ?_
        have small : number ≤ bound := by simpa using small
        rcases List.mem_cons.mp mem with rfl | later
        · exact le small
        · have := above number later
          omega
      have large : bound < (first :: rest)[place] := by
        rcases List.mem_cons.mp (List.getElem_mem inside) with here | later
        · omega
        · have := above _ later
          omega
      omega

theorem filter_le_eq_take {numbers : List Nat} (ascending : numbers.Pairwise (· < ·)) (bound : Nat) :
    numbers.filter (· ≤ bound) = numbers.take (numbers.countP (· ≤ bound)) := by
  have halves := congrArg (List.filter (· ≤ bound)) (List.take_append_drop (numbers.countP (· ≤ bound)) numbers)
  have before : ∀ number ∈ numbers.take (numbers.countP (· ≤ bound)), decide (number ≤ bound) = true := by
    intro number mem
    obtain ⟨place, inside, rfl⟩ := List.mem_take_iff_getElem.mp mem
    have few : place < numbers.countP (· ≤ bound) := by omega
    simpa using (getElem_le_iff ascending bound (by omega)).mpr few
  have after : ∀ number ∈ numbers.drop (numbers.countP (· ≤ bound)), ¬ decide (number ≤ bound) = true := by
    intro number mem small
    obtain ⟨place, inside, rfl⟩ := List.mem_drop_iff_getElem.mp mem
    have few := (getElem_le_iff ascending bound _).mp (of_decide_eq_true small)
    omega
  rw [List.filter_append, List.filter_eq_self.mpr before, List.filter_eq_nil_iff.mpr after, List.append_nil] at halves
  exact halves.symm

/-- Whether the lines of a map begin at ascending offsets that are words. -/
structure Fits (map : LineMap) : Prop where
  ascending : (0 :: map.breaks).Pairwise (· < ·)
  words : ∀ start ∈ 0 :: map.breaks, start < 2 ^ 32

section
variable {map : LineMap}

theorem getElem?_starts (map : LineMap) (line : Nat) : map.starts[line]? = (0 :: map.breaks)[line]?.map .ofNat := by
  rw [starts, List.getElem?_toArray, List.getElem?_map]

theorem Fits.toNat_starts (fits : map.Fits) {line : Nat} (inside : line < map.starts.size) :
    ∃ start, (0 :: map.breaks)[line]? = some start ∧ map.starts[line].toNat = start := by
  have found := map.getElem?_starts line
  rw [Array.getElem?_eq_getElem inside] at found
  obtain ⟨start, listed, same⟩ := Option.map_eq_some_iff.mp found.symm
  refine ⟨start, listed, ?_⟩
  rw [← same, UInt32.toNat_ofNat', Nat.mod_eq_of_lt (fits.words start (List.mem_of_getElem? listed))]

theorem Fits.starts_ascending (fits : map.Fits) : map.starts.toList.Pairwise (· < ·) := by
  rw [starts]
  refine List.pairwise_map.mpr (fits.ascending.imp_of_mem fun {a b} memA memB before => ?_)
  rw [UInt32.lt_iff_toNat_lt, UInt32.toNat_ofNat', UInt32.toNat_ofNat', Nat.mod_eq_of_lt (fits.words a memA),
    Nat.mod_eq_of_lt (fits.words b memB)]
  exact before

/-- A line begins up to an offset exactly if it is the line of the offset or an earlier one. -/
theorem Fits.start_le_iff (fits : map.Fits) {line start : Nat} (listed : (0 :: map.breaks)[line]? = some start)
    (offset : Nat) : start ≤ offset ↔ line ≤ map.lineIndex offset := by
  cases line with
  | zero =>
    cases listed
    simp
  | succ line =>
    rw [List.getElem?_cons_succ] at listed
    obtain ⟨inside, rfl⟩ := List.getElem?_eq_some_iff.mp listed
    exact getElem_le_iff (List.pairwise_cons.mp fits.ascending).2 offset inside

theorem Fits.getElem?_lineIndex (fits : map.Fits) (offset : Nat) :
    (0 :: map.breaks)[map.lineIndex offset]? = some (map.lineStart offset) := by
  have count : map.lineIndex offset ≤ map.breaks.length := List.countP_le_length
  rw [lineStart, filter_le_eq_take (List.pairwise_cons.mp fits.ascending).2, List.getLast?_take, ← lineIndex]
  cases index : map.lineIndex offset with
  | zero => simp
  | succ line =>
    rw [index] at count
    rw [List.getElem?_cons_succ, if_neg (Nat.succ_ne_zero line), Nat.add_sub_cancel,
      List.getElem?_eq_getElem count]
    rfl

theorem Fits.lineStart_le (fits : map.Fits) (offset : Nat) : map.lineStart offset ≤ offset :=
  (fits.start_le_iff (fits.getElem?_lineIndex offset) offset).mpr (Nat.le_refl _)

/-- Whatever is right about an offset among the starts of the lines leads to its line. -/
theorem Fits.lineAt_of_right (fits : map.Fits) {finding : Finding} {offset : Offset}
    (right : finding.Right map.starts offset) : lineAt finding = .ok (map.lineIndex offset.toNat) := by
  have count : map.lineIndex offset.toNat ≤ map.breaks.length := List.countP_le_length
  have size : map.starts.size = map.breaks.length + 1 := by simp [starts]
  have index (line : Nat) (inside : line < map.starts.size) :
      map.starts[line] ≤ offset ↔ line ≤ map.lineIndex offset.toNat := by
    obtain ⟨start, listed, same⟩ := fits.toNat_starts inside
    rw [UInt32.le_iff_toNat_le, same]
    exact fits.start_le_iff listed offset.toNat
  cases finding with
  | found line =>
    -- the line begins at the offset, so no later line has begun
    obtain ⟨inside, here⟩ := Array.getElem?_eq_some_iff.mp right
    have reached : line ≤ map.lineIndex offset.toNat := by
      rw [← index line inside, here]
      exact UInt32.le_refl _
    have last : map.lineIndex offset.toNat ≤ line := by
      apply Nat.le_of_not_lt
      intro later
      have order := List.pairwise_iff_getElem.mp fits.starts_ascending line _ (by simpa using inside)
        (by rw [Array.length_toList]; omega) later
      rw [Array.getElem_toList, Array.getElem_toList, here] at order
      exact UInt32.not_le.mpr order ((index _ (by omega)).mpr (Nat.le_refl _))
    exact congrArg Except.ok (Nat.le_antisymm reached last)
  | absent place =>
    obtain ⟨bound, sides⟩ := right
    cases place with
    | zero =>
      -- the first line begins at zero, which is above no offset
      have above := (sides 0 (by omega)).2 (Nat.le_refl 0)
      exact absurd ((index 0 (by omega)).mpr (Nat.zero_le _)) (UInt32.not_le.mpr above)
    | succ line =>
      have reached : line ≤ map.lineIndex offset.toNat := by
        rw [← index line (by omega)]
        exact UInt32.le_of_lt ((sides line (by omega)).1 (Nat.lt_succ_self line))
      have last : map.lineIndex offset.toNat ≤ line := by
        apply Nat.le_of_not_lt
        intro later
        have above := (sides (map.lineIndex offset.toNat) (by omega)).2 later
        exact UInt32.not_le.mpr above ((index _ (by omega)).mpr (Nat.le_refl _))
      exact congrArg Except.ok (Nat.le_antisymm reached last)

theorem Fits.lineOf_eq (fits : map.Fits) (offset : Offset) : map.lineOf offset = .ok (map.lineIndex offset.toNat) :=
  fits.lineAt_of_right (Offset.search_right fits.starts_ascending offset)

theorem Fits.startOf_lineIndex (fits : map.Fits) (offset : Nat) :
    map.startOf (map.lineIndex offset) = .ok (.ofNat (map.lineStart offset)) := by
  rw [startOf, getElem?_starts, fits.getElem?_lineIndex]
  rfl

/-- The line of an offset is its index and one, and the column counts from the start of the line. -/
theorem Fits.locate_eq (fits : map.Fits) {offset : Offset} (few : map.lineIndex offset.toNat + 1 < 2 ^ 32) :
    map.locate offset = (Offset.add (.ofNat (offset.toNat - map.lineStart offset.toNat)) 1).map fun column =>
      ⟨.ofNat (map.lineIndex offset.toNat + 1), column⟩ := by
  have one : (1 : UInt32).toNat = 1 := rfl
  have bound := offset.toNat_lt
  have start := fits.lineStart_le offset.toNat
  have line : Offset.add (.ofNat (map.lineIndex offset.toNat)) 1 = .ok (.ofNat (map.lineIndex offset.toNat + 1)) := by
    rw [Offset.add_eq_ok_iff, one, UInt32.toNat_ofNat', UInt32.toNat_ofNat', Nat.mod_eq_of_lt (by omega),
      Nat.mod_eq_of_lt (by omega)]
  have column : Offset.sub offset (.ofNat (map.lineStart offset.toNat)) =
      .ok (.ofNat (offset.toNat - map.lineStart offset.toNat)) := by
    rw [Offset.sub_eq_ok_iff, UInt32.toNat_ofNat', UInt32.toNat_ofNat', Nat.mod_eq_of_lt (by omega),
      Nat.mod_eq_of_lt (by omega)]
    omega
  unfold locate
  rw [fits.lineOf_eq]
  simp only [bind, Except.bind, line, fits.startOf_lineIndex, column]
  rfl

end

/-! ### What a line map answers -/

theorem lineIndex_ofText (text : String) (offset : Nat) : (ofText text).lineIndex offset = feedsBefore text offset := by
  have count := length_filter_feedEnds 0 offset (bytes text)
  rw [Nat.zero_add] at count
  rw [lineIndex, breaks_ofText, List.countP_eq_length_filter, count, feedsBefore]

/-- The line of an offset begins just after the last line feed before the offset. -/
theorem lineStart_ofText (text : String) (offset : Nat) :
    (ofText text).lineStart offset + bytesSinceFeed text offset = min offset text.utf8ByteSize := by
  have last := getLast?_filter_feedEnds [] (bytes text) offset
  simpa [lineStart, breaks_ofText, bytesSinceFeed, sinceFeed] using last

theorem le_of_mem_feedEnds {offset stop : Nat} {bytes : List UInt8} (mem : stop ∈ feedEnds offset bytes) :
    stop ≤ offset + bytes.length := by
  induction bytes generalizing offset with
  | nil => cases mem
  | cons byte rest ih =>
    rw [List.length_cons]
    rw [feedEnds] at mem
    split at mem
    · rcases List.mem_cons.mp mem with here | later
      · omega
      · have := ih later
        omega
    · have := ih mem
      omega

theorem fits_ofText {text : String} (short : text.utf8ByteSize < 2 ^ 32) : (ofText text).Fits where
  ascending := List.pairwise_cons.mpr ⟨fun _ => lt_of_mem_breaksFrom, breaksFrom_sorted 0 text.toList⟩
  words := by
    intro start mem
    rcases List.mem_cons.mp mem with rfl | later
    · decide
    · rw [breaks_ofText] at later
      have := le_of_mem_feedEnds later
      rw [length_bytes] at this
      omega

theorem feedsBefore_le (text : String) (offset : Nat) : feedsBefore text offset ≤ offset := by
  have counted : feedsBefore text offset ≤ _ := List.count_le_length
  exact counted.trans (List.length_take_le offset (bytes text))

/-- The line and the column of an offset inside of a short text. -/
theorem locate_ofText {text : String} (short : text.utf8ByteSize < 2 ^ 32) {offset : Offset}
    (inside : offset.toNat < text.utf8ByteSize) : ∃ location, (ofText text).locate offset = .ok location ∧
      location.line.toNat = feedsBefore text offset.toNat + 1 ∧
      location.column.toNat = bytesSinceFeed text offset.toNat + 1 := by
  have starts := lineStart_ofText text offset.toNat
  rw [Nat.min_eq_left (Nat.le_of_lt inside)] at starts
  have feeds := feedsBefore_le text offset.toNat
  let line : UInt32 := .ofNat (feedsBefore text offset.toNat + 1)
  let column : UInt32 := .ofNat (bytesSinceFeed text offset.toNat + 1)
  have columnIs : column.toNat = bytesSinceFeed text offset.toNat + 1 := by
    rw [UInt32.toNat_ofNat', Nat.mod_eq_of_lt (by omega)]
  have added : Offset.add (.ofNat (offset.toNat - (ofText text).lineStart offset.toNat)) 1 = .ok column := by
    rw [Offset.add_eq_ok_iff, columnIs, UInt32.toNat_ofNat', Nat.mod_eq_of_lt (by omega)]
    have one : (1 : UInt32).toNat = 1 := rfl
    omega
  refine ⟨⟨line, column⟩, ?_, ?_, columnIs⟩
  · rw [(fits_ofText short).locate_eq (by rw [lineIndex_ofText]; omega), added, lineIndex_ofText]
    rfl
  · rw [UInt32.toNat_ofNat', Nat.mod_eq_of_lt (by omega)]

end LineMap

end ExportLint
