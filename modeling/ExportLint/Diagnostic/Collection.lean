import ExportLint.Diagnostic.Report

/-!
# Collections of diagnostics

What a run has reported, in the order in which it was reported. Sorting brings the diagnostics into
the order of their files and of their places, and leaves those of one place as they were.
-/

namespace ExportLint

/-- Diagnostics in the order of their report. -/
structure Collection where
  items : List Diagnostic := []
  deriving Repr, DecidableEq

namespace Collection

/-- The collection with one more diagnostic at its end. -/
def add (collection : Collection) (diagnostic : Diagnostic) : Collection :=
  ⟨collection.items ++ [diagnostic]⟩

instance : Append Collection where
  append a b := ⟨a.items ++ b.items⟩

/-- How many diagnostics there are. -/
def size (collection : Collection) : Nat :=
  collection.items.length

/-- Whether nothing was reported. -/
def isEmpty (collection : Collection) : Bool :=
  collection.items.isEmpty

/-- How many diagnostics are errors. -/
def errorCount (collection : Collection) : Nat :=
  collection.items.countP Diagnostic.isError

/-- Whether some diagnostic is an error. -/
def hasErrors (collection : Collection) : Bool :=
  collection.items.any Diagnostic.isError

/-- Whether the first diagnostic may stand before the second: by file name, then by start. -/
def inOrder (a b : Diagnostic) : Bool :=
  a.file < b.file || (a.file == b.file && a.span.start ≤ b.span.start)

/-- The collection in the order of files and starts. -/
def sort (collection : Collection) : Collection :=
  ⟨collection.items.mergeSort inOrder⟩

@[simp]
theorem items_append (a b : Collection) : (a ++ b).items = a.items ++ b.items :=
  rfl

theorem sort_perm (collection : Collection) : collection.sort.items.Perm collection.items :=
  List.mergeSort_perm ..

theorem errorCount_sort (collection : Collection) : collection.sort.errorCount = collection.errorCount :=
  (collection.sort_perm).countP_eq _

end Collection

end ExportLint
