import ExportLint.Diagnostic.Collection
import ExportLint.Program.Basic
import Mathlib

/-!
# Stable sorting

A stable sort leaves what is tied in its order, so a sorted list is determined by the order in which it holds the
items of each tie. Diagnostics that come file by file, in the order of their places, are therefore sorted by
putting the files in order.
-/

namespace ExportLint

section
variable {α : Type} {le : α → α → Bool} {first second items : List α}

/-- Whether two items may stand in either order. -/
def tied (le : α → α → Bool) (pivot item : α) : Bool :=
  le pivot item && le item pivot

theorem tied_iff {pivot item : α} : tied le pivot item = true ↔ le pivot item = true ∧ le item pivot = true := by
  simp [tied]

theorem tied_self (total : ∀ a b, (le a b || le b a) = true) (item : α) : tied le item item = true := by
  have order := total item item
  simp_all [tied]

theorem mem_iff_of_ties (total : ∀ a b, (le a b || le b a) = true)
    (ties : ∀ pivot, first.filter (tied le pivot) = second.filter (tied le pivot)) (item : α) :
    item ∈ first ↔ item ∈ second := by
  have same : item ∈ first.filter (tied le item) ↔ item ∈ second.filter (tied le item) := by rw [ties]
  simpa [tied_self total item] using same

/-- Sorted lists are equal if they hold the items of each tie in the same order. -/
theorem eq_of_ties (total : ∀ a b, (le a b || le b a) = true) (sorted : first.Pairwise fun a b => le a b = true)
    (sorted' : second.Pairwise fun a b => le a b = true)
    (ties : ∀ pivot, first.filter (tied le pivot) = second.filter (tied le pivot)) : first = second := by
  have reflexive (item : α) : le item item = true := (tied_iff.mp (tied_self total item)).1
  have mem_iff := mem_iff_of_ties total ties
  induction first generalizing second with
  | nil =>
    cases second with
    | nil => rfl
    | cons b second => simpa using mem_iff b
  | cons a first ih =>
    cases second with
    | nil => simpa using mem_iff a
    | cons b second =>
      rw [List.pairwise_cons] at sorted sorted'
      -- each of the two heads is in the other list, so neither comes after the other
      have forth : le a b = true := by
        rcases List.mem_cons.mp ((mem_iff b).mpr List.mem_cons_self) with rfl | later
        · exact reflexive b
        · exact sorted.1 b later
      have back : le b a = true := by
        rcases List.mem_cons.mp ((mem_iff a).mp List.mem_cons_self) with rfl | later
        · exact reflexive a
        · exact sorted'.1 a later
      have heads := ties a
      rw [List.filter_cons_of_pos (tied_self total a), List.filter_cons_of_pos (tied_iff.mpr ⟨forth, back⟩)] at heads
      obtain ⟨rfl, _⟩ := List.cons.inj heads
      have rests (pivot : α) : first.filter (tied le pivot) = second.filter (tied le pivot) := by
        have whole := ties pivot
        by_cases here : tied le pivot a = true
        · simpa [List.filter_cons, here] using whole
        · simpa [List.filter_cons, here] using whole
      rw [ih sorted.2 sorted'.2 rests (mem_iff_of_ties total rests)]

variable (trans : ∀ a b c, le a b = true → le b c = true → le a c = true) (total : ∀ a b, (le a b || le b a) = true)
include trans total

/-- Sorting leaves the items of each tie as they are. -/
theorem filter_mergeSort (items : List α) (pivot : α) :
    (items.mergeSort le).filter (tied le pivot) = items.filter (tied le pivot) := by
  have sorted : (items.filter (tied le pivot)).Pairwise fun a b => le a b = true := by
    refine List.pairwise_of_forall_mem_list fun a memA b memB => ?_
    have before := (tied_iff.mp (List.mem_filter.mp memA).2).2
    have after := (tied_iff.mp (List.mem_filter.mp memB).2).1
    exact trans a pivot b before after
  have kept := (List.sublist_mergeSort trans total sorted List.filter_sublist).filter (tied le pivot)
  simp only [List.filter_filter, Bool.and_self] at kept
  exact (kept.eq_of_length ((List.mergeSort_perm items le).filter _).length_eq.symm).symm

/-- What is sorted and holds the items of each tie in their order is what sorting gives. -/
theorem mergeSort_eq_of_ties (sorted : first.Pairwise fun a b => le a b = true)
    (ties : ∀ pivot, first.filter (tied le pivot) = items.filter (tied le pivot)) : items.mergeSort le = first := by
  refine eq_of_ties total (List.pairwise_mergeSort trans total items) sorted fun pivot => ?_
  rw [filter_mergeSort trans total, ties]

end

/-! ### One item at most -/

section
variable {α β : Type} {first second : List α} {key : α → Bool}

/-- Where at most one item has a property, lists of the same items hold alike what has it. -/
theorem filter_eq_of_perm (perm : first.Perm second) (few : first.countP key ≤ 1) :
    first.filter key = second.filter key := by
  rw [List.countP_eq_length_filter] at few
  have kept := perm.filter key
  cases found : first.filter key with
  | nil =>
    rw [found] at kept
    rw [kept.nil_eq]
  | cons item rest =>
    rw [found, List.length_cons] at few
    obtain rfl : rest = [] := List.length_eq_zero_iff.mp (by omega)
    rw [found] at kept
    rw [kept.singleton_eq]

theorem flatMap_filter {f : α → List β} (empty : ∀ item ∈ first, key item = false → f item = []) :
    (first.filter key).flatMap f = first.flatMap f := by
  induction first with
  | nil => rfl
  | cons item rest ih =>
    have others := ih fun other mem => empty other (List.mem_cons_of_mem _ mem)
    by_cases here : key item = true
    · simp [here, others]
    · simp [here, others, empty item List.mem_cons_self (by simpa using here)]

end

/-! ### Diagnostics in order -/

namespace Collection

variable {a b : Diagnostic}

theorem inOrder_iff : inOrder a b = true ↔ a.file < b.file ∨ a.file = b.file ∧ a.span.start ≤ b.span.start := by
  simp [inOrder]

theorem inOrder_trans (a b c : Diagnostic) (before : inOrder a b = true) (after : inOrder b c = true) :
    inOrder a c = true := by
  rw [inOrder_iff] at before after ⊢
  rcases before with before | ⟨same, before⟩
  · rcases after with after | ⟨same', _⟩
    · exact .inl (lt_trans before after)
    · exact .inl (same' ▸ before)
  · rcases after with after | ⟨same', after⟩
    · exact .inl (same ▸ after)
    · exact .inr ⟨same.trans same', UInt32.le_trans before after⟩

theorem inOrder_total (a b : Diagnostic) : (inOrder a b || inOrder b a) = true := by
  rw [Bool.or_eq_true, inOrder_iff, inOrder_iff]
  rcases lt_trichotomy a.file b.file with before | same | after
  · exact .inl (.inl before)
  · rcases UInt32.le_total a.span.start b.span.start with le | ge
    · exact .inl (.inr ⟨same, le⟩)
    · exact .inr (.inr ⟨same.symm, ge⟩)
  · exact .inr (.inl after)

theorem file_eq_of_tied (ties : tied inOrder a b = true) : b.file = a.file := by
  obtain ⟨forth, back⟩ := tied_iff.mp ties
  rw [inOrder_iff] at forth back
  rcases forth with before | ⟨same, _⟩
  · rcases back with after | ⟨same, _⟩
    · exact absurd after (lt_asymm before)
    · exact same
  · exact same.symm

variable {files ordered : List SourceFile} {blocks : SourceFile → Collection}

/-- Diagnostics that come file by file, each time in the order of their places, are sorted with the files. -/
theorem sort_blocks (perm : ordered.Perm files)
    (names : ordered.Pairwise fun earlier later => earlier.name < later.name)
    (own : ∀ file ∈ files, ∀ diagnostic ∈ (blocks file).items, diagnostic.file = file.name)
    (rising : ∀ file ∈ files,
      (blocks file).items.Pairwise fun earlier later => earlier.span.start ≤ later.span.start) :
    (files.flatMap fun file => (blocks file).items).mergeSort inOrder =
      ordered.flatMap fun file => (blocks file).items := by
  refine mergeSort_eq_of_ties inOrder_trans inOrder_total ?_ fun pivot => ?_
  · refine List.pairwise_flatMap.mpr ⟨fun file mem => ?_, ?_⟩
    · have listed := perm.mem_iff.mp mem
      refine (rising file listed).imp_of_mem fun {a b} memA memB le => inOrder_iff.mpr (.inr ⟨?_, le⟩)
      rw [own file listed a memA, own file listed b memB]
    · refine names.imp_of_mem fun {earlier later} memE memL before a memA b memB => inOrder_iff.mpr (.inl ?_)
      rw [own earlier (perm.mem_iff.mp memE) a memA, own later (perm.mem_iff.mp memL) b memB]
      exact before
  · -- what is tied lies in one file, and no two files have its name
    have elsewhere : ∀ file ∈ files, (file.name == pivot.file) = false →
        (blocks file).items.filter (tied inOrder pivot) = [] := by
      intro file mem other
      refine List.filter_eq_nil_iff.mpr fun diagnostic inBlock ties => ?_
      have same := file_eq_of_tied ties
      rw [own file mem diagnostic inBlock] at same
      simp [same] at other
    have few : ordered.countP (·.name == pivot.file) ≤ 1 := by
      have distinct : (ordered.map (·.name)).Nodup := List.pairwise_map.mpr (names.imp fun before => before.ne)
      have count := List.nodup_iff_count_le_one.mp distinct pivot.file
      rwa [List.count, List.countP_map] at count
    rw [List.filter_flatMap, List.filter_flatMap, ← flatMap_filter elsewhere,
      ← flatMap_filter fun file mem => elsewhere file (perm.mem_iff.mp mem), filter_eq_of_perm perm few]

end Collection

end ExportLint
