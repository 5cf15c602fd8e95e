import ExportLint.Text.Offset

/-!
# Searching among offsets

Where an offset stands among ascending offsets, or where it would have to stand among them. The search
halves the stretch in which the offset may lie until it meets the offset or nothing is left.
-/

namespace ExportLint

/-- What a search has found out. -/
inductive Finding where
  /-- The offset stands at a place. -/
  | found (place : Nat)
  /-- The offset does not occur; put in at the place, it would stand in order. -/
  | absent (place : Nat)
  deriving Repr, DecidableEq

/-- Whether a finding is right about an offset among ascending offsets. -/
def Finding.Right (offsets : Array Offset) (offset : Offset) : Finding → Prop
  | found place => offsets[place]? = some offset
  | absent place => place ≤ offsets.size ∧
    ∀ (other : Nat) (inside : other < offsets.size),
      (other < place → offsets[other] < offset) ∧ (place ≤ other → offset < offsets[other])

namespace Offset

/-- Searches the places from `lower` up to `upper`. -/
def searchBetween (offsets : Array Offset) (offset : Offset) (lower upper : Nat) (inside : upper ≤ offsets.size) :
    Finding :=
  if open' : lower < upper then
    let middle := lower + (upper - lower) / 2
    let other := offsets[middle]
    if other = offset then .found middle
    else if other < offset then searchBetween offsets offset (middle + 1) upper inside
    else searchBetween offsets offset lower middle (by omega)
  else .absent lower
termination_by upper - lower

/-- Searches all places. -/
def search (offsets : Array Offset) (offset : Offset) : Finding :=
  searchBetween offsets offset 0 offsets.size (Nat.le_refl _)

variable {offsets : Array Offset} {offset : Offset} {lower upper : Nat}

/-- The search is right if the offset can only stand where it searches: what comes before is below the offset,
and what comes after is above it. -/
theorem searchBetween_right (ascending : offsets.toList.Pairwise (· < ·)) (inside : upper ≤ offsets.size)
    (ordered : lower ≤ upper) (below : ∀ (i : Nat) (_ : i < offsets.size), i < lower → offsets[i] < offset)
    (above : ∀ (i : Nat) (_ : i < offsets.size), upper ≤ i → offset < offsets[i]) :
    (searchBetween offsets offset lower upper inside).Right offsets offset := by
  have rising (i j : Nat) (_ : i < offsets.size) (_ : j < offsets.size) (before : i < j) :
      offsets[i] < offsets[j] := by
    have listed := List.pairwise_iff_getElem.mp ascending i j (by simpa) (by simpa) before
    rwa [Array.getElem_toList, Array.getElem_toList] at listed
  fun_induction searchBetween offsets offset lower upper inside with
  | case1 lower upper inside open' middle other same =>
    exact Array.getElem?_eq_some_iff.mpr ⟨_, same⟩
  | case2 lower upper inside open' middle other apart less ih =>
    refine ih (by omega) (fun i bound before => ?_) above
    rcases Nat.lt_or_eq_of_le (Nat.le_of_lt_succ before) with earlier | here
    · exact UInt32.lt_trans (rising i middle bound (by omega) earlier) less
    · simpa only [here] using less
  | case3 lower upper inside open' middle other apart notLess ih =>
    have greater : offset < offsets[middle] := UInt32.lt_of_le_of_ne (UInt32.not_lt.mp notLess) (Ne.symm apart)
    refine ih (by omega) below (fun i bound after => ?_)
    rcases Nat.lt_or_eq_of_le after with later | here
    · exact UInt32.lt_trans greater (rising middle i (by omega) bound later)
    · simpa only [here] using greater
  | case4 lower upper inside closed =>
    obtain rfl : lower = upper := by omega
    exact ⟨inside, fun i bound => ⟨below i bound, above i bound⟩⟩

theorem search_right (ascending : offsets.toList.Pairwise (· < ·)) (offset : Offset) :
    (search offsets offset).Right offsets offset := by
  apply searchBetween_right ascending
  · exact Nat.zero_le _
  · intro i _ before
    exact absurd before (Nat.not_lt_zero i)
  · intro i bound after
    exact absurd bound (Nat.not_lt.mpr after)

end Offset

end ExportLint
