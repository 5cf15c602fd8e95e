import ExportLint.Proofs.Bytes
import ExportLint.Proofs.Sorting

/-!
# Sorting in batches

Sorting a collection gives the one arrangement of its diagnostics that is in order and leaves those of one place
as they came. So it does not matter how often parts of a collection were sorted while it was gathered: sorted in
the end, it is what sorting gives once for all that was reported.
-/

namespace ExportLint

namespace Diagnostic

/-- Whether a diagnostic may come before another one: by the bytes of the file names, then by the starts. -/
def MayPrecede (first second : Diagnostic) : Prop :=
  bytes first.file < bytes second.file ∨ first.file = second.file ∧ first.span.start ≤ second.span.start

/-- Whether two diagnostics are of one file and have one start. -/
def sharesPlace (pivot diagnostic : Diagnostic) : Bool :=
  diagnostic.file == pivot.file && diagnostic.span.start == pivot.span.start

end Diagnostic

namespace Collection

open Diagnostic (MayPrecede sharesPlace)

/-- Whether a collection holds the diagnostics of another one in order, and those of each place as they were. -/
structure Arranges (sorted collection : Collection) : Prop where
  perm : sorted.items.Perm collection.items
  ordered : sorted.items.Pairwise MayPrecede
  stable : ∀ pivot : Diagnostic,
    sorted.items.filter pivot.sharesPlace = collection.items.filter pivot.sharesPlace

/-- A collection that was gathered, with all that was reported in it, in the order of the reports. -/
inductive Gathered : Collection → List Diagnostic → Prop
  | empty : Gathered {} []
  | add {collection : Collection} {reported : List Diagnostic} (gathered : Gathered collection reported)
    (diagnostic : Diagnostic) : Gathered (collection.add diagnostic) (reported ++ [diagnostic])
  | extend {first second : Collection} {reported others : List Diagnostic} (gathered : Gathered first reported)
    (further : Gathered second others) : Gathered (first ++ second) (reported ++ others)
  | sort {collection : Collection} {reported : List Diagnostic} (gathered : Gathered collection reported) :
    Gathered collection.sort reported

/-- What sorting does to a collection that may be gathered further, where `reported` came into it. -/
structure SortsCanonically (first second : Collection) (reported : List Diagnostic) : Prop where
  /-- Sorting gives the arrangement of the collection, and no other collection is one. -/
  arranges_iff : ∀ sorted : Collection, sorted.Arranges first ↔ sorted = first.sort
  again : first.sort.sort = first.sort
  merge : (first ++ second).sort = (first.sort ++ second.sort).sort
  /-- Whatever was sorted on the way, nothing was lost and nothing came twice. -/
  perm : first.items.Perm reported
  /-- Sorting in the end gives what sorting once gives for all that was reported. -/
  once : first.sort = Collection.sort ⟨reported⟩
  errorCount_sort : first.sort.errorCount = first.errorCount
  hasErrors_sort : first.sort.hasErrors = first.hasErrors
  errorCount_append : (first ++ second).errorCount = first.errorCount + second.errorCount
  hasErrors_iff : first.hasErrors = true ↔ 0 < first.errorCount

variable {a b : Diagnostic} {collection first second sorted : Collection} {reported others : List Diagnostic}

/-! ### The arrangement that sorting gives -/

theorem mayPrecede_iff_inOrder : a.MayPrecede b ↔ inOrder a b = true := by
  rw [inOrder_iff, MayPrecede, bytes_lt_iff]

/-- Two diagnostics may stand in either order exactly if they share their place. -/
theorem tied_eq_sharesPlace (pivot : Diagnostic) : tied inOrder pivot = pivot.sharesPlace := by
  funext diagnostic
  rw [Bool.eq_iff_iff, tied_iff, inOrder_iff, inOrder_iff, sharesPlace, Bool.and_eq_true, beq_iff_eq, beq_iff_eq]
  constructor
  · intro ties
    have same : diagnostic.file = pivot.file := by
      apply file_eq_of_tied
      rw [tied_iff, inOrder_iff, inOrder_iff]
      exact ties
    rw [same] at ties
    simp only [lt_irrefl, false_or, true_and] at ties
    exact ⟨same, UInt32.le_antisymm ties.2 ties.1⟩
  · rintro ⟨sameFile, sameStart⟩
    rw [sameFile, sameStart]
    exact ⟨.inr ⟨rfl, UInt32.le_refl _⟩, .inr ⟨rfl, UInt32.le_refl _⟩⟩

theorem sort_arranges (collection : Collection) : collection.sort.Arranges collection where
  perm := collection.sort_perm
  ordered := (List.pairwise_mergeSort inOrder_trans inOrder_total collection.items).imp mayPrecede_iff_inOrder.mpr
  stable pivot := by
    rw [← tied_eq_sharesPlace]
    exact filter_mergeSort inOrder_trans inOrder_total collection.items pivot

/-- What is in order and holds the diagnostics of each place as a collection does is what sorting gives. -/
theorem eq_sort_of_ordered (ordered : sorted.items.Pairwise MayPrecede) (ties : ∀ pivot : Diagnostic,
    sorted.items.filter pivot.sharesPlace = collection.items.filter pivot.sharesPlace) :
    sorted = collection.sort := by
  refine congrArg Collection.mk (mergeSort_eq_of_ties inOrder_trans inOrder_total ?_ fun pivot => ?_).symm
  · exact ordered.imp mayPrecede_iff_inOrder.mp
  · rw [tied_eq_sharesPlace]
    exact ties pivot

theorem sort_congr (ties : ∀ pivot : Diagnostic,
    first.items.filter pivot.sharesPlace = second.items.filter pivot.sharesPlace) : first.sort = second.sort := by
  apply eq_sort_of_ordered (sort_arranges first).ordered
  intro pivot
  rw [(sort_arranges first).stable, ties]

/-! ### What is gathered -/

/-- Adding, extending and sorting all leave the diagnostics of a place in the order of their reports. -/
theorem Gathered.stable (gathered : collection.Gathered reported) (pivot : Diagnostic) :
    collection.items.filter pivot.sharesPlace = reported.filter pivot.sharesPlace := by
  induction gathered with
  | empty => rfl
  | add _ diagnostic ih => rw [Collection.add, List.filter_append, List.filter_append, ih]
  | extend _ _ ih further => rw [items_append, List.filter_append, List.filter_append, ih, further]
  | sort _ ih => rw [(sort_arranges _).stable, ih]

theorem Gathered.perm (gathered : collection.Gathered reported) : collection.items.Perm reported := by
  induction gathered with
  | empty => exact .refl _
  | add _ diagnostic ih => exact ih.append_right [diagnostic]
  | extend _ _ ih further => exact ih.append further
  | sort _ ih => exact (sort_perm _).trans ih

/-- Sorting the parts first makes no difference, whatever the parts are. -/
theorem sort_append_sort (first second : Collection) : (first ++ second).sort = (first.sort ++ second.sort).sort := by
  apply sort_congr
  intro pivot
  rw [items_append, items_append, List.filter_append, List.filter_append, (sort_arranges first).stable,
    (sort_arranges second).stable]

theorem hasErrors_eq_true_iff (collection : Collection) :
    collection.hasErrors = true ↔ 0 < collection.errorCount := by
  rw [hasErrors, errorCount, List.any_eq_true, List.countP_pos_iff]

/-- Sorting merges stably: in whatever batches diagnostics were gathered and sorted, what comes out is the one
arrangement of all of them. -/
theorem sorts_canonically (gathered : first.Gathered reported) (second : Collection) :
    first.SortsCanonically second reported := by
  constructor
  · intro sorted
    constructor
    · intro arranged
      exact eq_sort_of_ordered arranged.ordered arranged.stable
    · rintro rfl
      exact sort_arranges first
  · apply sort_congr
    exact (sort_arranges first).stable
  · exact sort_append_sort first second
  · exact gathered.perm
  · apply sort_congr
    exact gathered.stable
  · exact first.errorCount_sort
  · exact first.sort_perm.any_eq
  · exact List.countP_append
  · exact first.hasErrors_eq_true_iff

/-- Two diagnostics of one place stay in the order of their reports, though one of them was sorted earlier. -/
theorem sorts_canonically_tied :
    let raise (file name : String) (start : Offset) : Diagnostic :=
      .raise .invalidExportType ⟨some name, "Id"⟩ file ⟨start, 4⟩ ⟨1, 1⟩
    let batch : Collection := ((Collection.add {} (raise "b.ts" "x" 0)).add (raise "a.ts" "y" 9)).sort
    (batch.add (raise "a.ts" "z" 9)).sort.items = [raise "a.ts" "y" 9, raise "a.ts" "z" 9, raise "b.ts" "x" 0] := by
  intro raise batch
  have gathered : (batch.add (raise "a.ts" "z" 9)).Gathered
      [raise "b.ts" "x" 0, raise "a.ts" "y" 9, raise "a.ts" "z" 9] :=
    (((Gathered.empty.add _).add _).sort).add _
  have behind : ¬ "b.ts" < "a.ts" := by decide
  rw [(sorts_canonically gathered {}).once]
  simp [Collection.sort, List.mergeSort, inOrder, raise, Diagnostic.raise, behind]

end Collection

end ExportLint
