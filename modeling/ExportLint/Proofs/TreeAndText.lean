import ExportLint.Proofs.SingleCalls

/-!
# Tree and text

In a finished file every node lies in the text, what is below a node lies between its two ends and in
order, and every identifier stands where its range says. So a diagnostic that points at a node points
at its text.
-/

namespace ExportLint

open Workspace (Made)

variable {origin : Nat → Nat} {workspace : Workspace} {number : Nat} {file : SourceFile}

/-- The tree of a finished file is laid out in its text. -/
theorem Workspace.Made.laid (made : Made origin workspace) (finished : workspace.finished? number = some file) :
    Laid file.text 0 file.text.utf8ByteSize [file.outline] := by
  have sound := made.sound.files number _ (finished?_eq_some_iff.mp finished)
  have below : Laid file.text 0 file.text.utf8ByteSize (Statement.outlines file.statements) := sound.laid
  exact .branch (Nat.le_refl _) rfl below (.nil (Nat.le_refl _) (Nat.le_refl _))

/-- Whatever calls have built a file, its tree agrees with its text, as long as offsets are not cut. The
file itself covers the whole text. -/
theorem SourceFile.outline_placed (made : Made origin workspace) (finished : workspace.finished? number = some file)
    (short : file.text.utf8ByteSize < 2 ^ 32) :
    (file.outline.start = 0 ∧ file.outline.stop = file.text.utf8ByteSize) ∧
      ∀ part ∈ file.outline.parts, part.Placed file.text := by
  constructor
  · constructor
    · rfl
    · show (UInt32.ofNat file.text.utf8ByteSize).toNat = file.text.utf8ByteSize
      rw [UInt32.toNat_ofNat', Nat.mod_eq_of_lt short]
  · intro part mem
    refine (made.laid finished).placed short part ?_
    rw [Outline.flatten_eq_flatMap, List.flatMap_singleton]
    exact mem

/-- Namespaces in each other, with names that are empty. -/
theorem SourceFile.outline_placed_nested :
    let declarations := [Declaration.space ModifierFlags.exported "outer" [
      .space .none "" [.variableDecl .none NodeFlags.constList [{ binding := .object ["a", ""], type := some "" }]]],
      .exportNames false ["outer"] none]
    let file := Workspace.soleFile "mod.ts" declarations
    (file.outline.start = 0 ∧ file.outline.stop = file.text.utf8ByteSize) ∧
      ∀ part ∈ file.outline.parts, part.Placed file.text := by
  intro declarations file
  have made := Workspace.sole_made "mod.ts" declarations
  have finished : (Workspace.sole "mod.ts" declarations).finished? 0 = some file := rfl
  have short : file.text.utf8ByteSize < 2 ^ 32 := by decide +kernel
  exact SourceFile.outline_placed made finished short

end ExportLint
