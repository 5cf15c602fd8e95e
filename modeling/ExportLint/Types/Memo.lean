import Std.Data.TreeMap
import ExportLint.Types.Table

/-!
# Remembered answers

Which types have been found to fit which. A memo gains answers and changes those it has, but loses
none; how many pairs of types of a table are still without an answer bounds how many questions can
be asked for the first time.
-/

namespace ExportLint

/-- Pairs of numbers are ordered by the first number, then by the second. -/
abbrev comparePairs : Nat × Nat → Nat × Nat → Ordering :=
  compareLex (compareOn (·.1)) (compareOn (·.2))

/-- The answers to the questions whether one type fits another. -/
structure Memo where
  answers : Std.TreeMap (Nat × Nat) Bool comparePairs

namespace Memo

/-- No answers. -/
def empty : Memo :=
  ⟨∅⟩

/-- The answer for a pair of types. -/
def find? (memo : Memo) (source target : TypeId) : Option Bool :=
  memo.answers[(source.index, target.index)]?

/-- The memo with an answer, in place of the one that it had. -/
def record (memo : Memo) (source target : TypeId) (answer : Bool) : Memo :=
  ⟨memo.answers.insert (source.index, target.index) answer⟩

@[simp]
theorem find?_empty (source target : TypeId) : empty.find? source target = none := by
  simp [find?, empty]

theorem comparePairs_eq_iff {a b c d : Nat} : comparePairs (a, b) (c, d) = .eq ↔ a = c ∧ b = d := by
  simp [comparePairs, compareLex, compareOn, Ordering.then_eq_eq]

theorem find?_record (memo : Memo) (source target s t : TypeId) (answer : Bool) :
    (memo.record source target answer).find? s t =
      if s = source ∧ t = target then some answer else memo.find? s t := by
  obtain ⟨source⟩ := source
  obtain ⟨target⟩ := target
  obtain ⟨s⟩ := s
  obtain ⟨t⟩ := t
  simp only [find?, record, Std.TreeMap.getElem?_insert, comparePairs_eq_iff, TypeId.mk.injEq]
  grind

/-- All pairs of types of a table with `size` entries. -/
def pairs (size : Nat) : List (TypeId × TypeId) :=
  (List.range size).flatMap fun source => (List.range size).map fun target => (⟨source⟩, ⟨target⟩)

theorem mem_pairs {size : Nat} {source target : TypeId} :
    (source, target) ∈ pairs size ↔ source.index < size ∧ target.index < size := by
  obtain ⟨source⟩ := source
  obtain ⟨target⟩ := target
  simp [pairs]

/-- How many pairs of types of a table have no answer. -/
def undecided (memo : Memo) (size : Nat) : Nat :=
  (pairs size).countP fun pair => (memo.find? pair.1 pair.2).isNone

theorem undecided_record_le (memo : Memo) (size : Nat) (source target : TypeId) (answer : Bool) :
    (memo.record source target answer).undecided size ≤ memo.undecided size := by
  refine List.countP_mono_left fun pair _ still => ?_
  rw [find?_record] at still
  split at still
  · simp at still
  · exact still

theorem countP_lt_countP {α : Type} {p q : α → Bool} {l : List α} {a : α} (weaker : ∀ x, p x → q x)
    (mem : a ∈ l) (fails : ¬ p a) (holds : q a) : l.countP p < l.countP q := by
  induction l with
  | nil => simp at mem
  | cons first rest ih =>
    rw [List.countP_cons, List.countP_cons]
    have other : rest.countP p ≤ rest.countP q := List.countP_mono_left fun x _ => weaker x
    rcases List.mem_cons.mp mem with rfl | later
    · simp only [fails, holds]
      simp only [Bool.false_eq_true, if_false, if_true]
      omega
    · have := ih later
      by_cases here : p first
      · simp only [here, weaker first here, if_true]
        omega
      · simp only [here]
        simp only [Bool.false_eq_true, if_false]
        split <;> omega

theorem undecided_record_lt {memo : Memo} {size : Nat} {source target : TypeId} (answer : Bool)
    (unknown : memo.find? source target = none) (inside : source.index < size ∧ target.index < size) :
    (memo.record source target answer).undecided size < memo.undecided size := by
  refine countP_lt_countP (fun pair still => ?_) (mem_pairs.mpr inside) ?_ ?_
  · rw [find?_record] at still
    split at still
    · simp at still
    · exact still
  · simp [find?_record]
  · simp [unknown]

end Memo

end ExportLint
