import ExportLint.Proofs.Shifting
import ExportLint.Proofs.SingleCalls
import ExportLint.Proofs.TreeAndText
import ExportLint.Proofs.WrittenText

/-!
# Files put one behind the other

A file that is built by some calls and then others is the file built by the first ones with the file built by the
others behind it. The text of the whole is one text behind the other, and its tree is one behind the other, with the
second one shifted by what the first one takes of the text and of the ids. So each statement is a row of the text of
its own, made by its call alone, with one line feed after it; and a namespace holds the file that the calls in it
would build, behind its header.
-/

namespace ExportLint

/-- The file that a new builder makes of calls, one after the other. -/
def Workspace.build? (name : String) (calls : List Declaration) : Option SourceFile := do
  let filled ← performAll 0 (initial.openFile 0 name) calls
  let (file, _) ← filled.finish 0
  return file

/-- Whether a statement stands in a text at an offset as what a call makes. What is in a namespace is the file that
the calls in it build, behind the header of the namespace. -/
structure Statement.Row (text : String) (offset : Nat) (call : Declaration) (statement : Statement) : Prop where
  starts : statement.node.range.start.toNat = offset
  stops : statement.node.range.stop.toNat = offset + call.text.utf8ByteSize
  stands : StandsAt text offset call.text
  space : ∀ modifiers name body, call = .space modifiers name body → ∃ node identifier inner file,
    statement = .module node identifier inner ∧ Workspace.build? name body = some file ∧
    call.text = Declaration.spaceHead modifiers name ++ file.text ++ "\x7d" ∧
    inner.map Statement.spelled = file.statements.map fun statement =>
      (statement.shift (offset + (Declaration.spaceHead modifiers name).utf8ByteSize) (node.id.index + 2)).spelled

/-- Whether statements are the rows of a text from an offset to its end: one for each call, and after each of them a
line feed that is in none of them. -/
inductive Rows (text : String) : Nat → List Declaration → List Statement → Prop
  | nil : Rows text text.utf8ByteSize [] []
  | cons {offset : Nat} {call : Declaration} {calls : List Declaration} {statement : Statement}
    {statements : List Statement} (row : statement.Row text offset call)
    (feed : StandsAt text (offset + call.text.utf8ByteSize) "\n")
    (others : Rows text (offset + call.text.utf8ByteSize + 1) calls statements) :
    Rows text offset (call :: calls) (statement :: statements)

/-- Whether a file is two others, one behind the other. -/
structure SourceFile.Joins (whole head tail : SourceFile) : Prop where
  text : whole.text = head.text ++ tail.text
  statements : ∃ moved, whole.statements = head.statements ++ moved ∧
    moved.map Statement.spelled =
      tail.statements.map fun statement => (statement.shift head.text.utf8ByteSize head.id.index).spelled
  id : whole.id.index = head.id.index + tail.id.index
  /-- The first file has used up an id for each node in it. -/
  used : Outline.indices (Statement.outlines head.statements) = List.range head.id.index
  /-- No offset of the second file becomes too large. -/
  inside : ∀ part ∈ Outline.flatten (Statement.outlines tail.statements),
    part.start ≤ part.stop ∧ part.stop + head.text.utf8ByteSize ≤ whole.text.utf8ByteSize

/-! ### Rows -/

namespace Layout

/-- A draft is ahead of an empty one by its text and by the ids that are drawn. -/
theorem ahead_of_empty (draft : Draft) :
    Draft.Ahead draft.text.utf8ByteSize draft.nextId { interner := .empty } draft := by
  constructor
  · simp
  · simp

/-- What is in a namespace is laid out as in a file of its own, behind the header and two more nodes. -/
theorem exists_module (modifiers : ModifierFlags) (name : String) (body : List Declaration) (draft : Draft) :
    ∃ node identifier inner, ((statement (.space modifiers name body)).run draft).1 = .module node identifier inner ∧
      inner.map Statement.spelled = (Workspace.layout body).1.map fun statement =>
        (statement.shift (draft.text.utf8ByteSize + (Declaration.spaceHead modifiers name).utf8ByteSize)
          (node.id.index + 2)).spelled := by
  let entered := ((enterSpace modifiers name).run draft).2
  have text : entered.text = draft.text ++ Declaration.spaceHead modifiers name :=
    writes_enterSpace modifiers name draft
  have drawn : entered.nextId = draft.nextId + 2 := rfl
  have ahead := ahead_of_empty entered
  rw [text, String.utf8ByteSize_append, drawn] at ahead
  obtain ⟨node, identifier, made, id⟩ : ∃ node identifier, ((statement (.space modifiers name body)).run draft).1 =
      .module node identifier ((statements body).run entered).1 ∧ node.id.index = draft.nextId := by
    rw [statement]
    exact ⟨_, _, rfl, rfl⟩
  refine ⟨node, identifier, _, made, ?_⟩
  rw [id]
  exact spelled_statements ahead body

end Layout

namespace Workspace

theorem build?_eq (name : String) (calls : List Declaration) : build? name calls = some (soleFile name calls) := by
  rw [build?, performAll_opened]
  rfl

theorem text_soleFile (name : String) (calls : List Declaration) :
    (soleFile name calls).text = Declaration.lines calls := by
  have text := Layout.writes_statements calls { interner := .empty }
  rw [String.empty_append] at text
  exact text

/-- A statement is the row of its call, in any text that goes on from where the statement ends. -/
theorem row_statement (call : Declaration) (draft : Draft) {text : String} (more : String)
    (split : text = draft.text ++ call.text ++ more) (short : text.utf8ByteSize < 2 ^ 32) :
    ((Layout.statement call).run draft).1.Row text draft.text.utf8ByteSize call := by
  have range := Layout.range_statement call draft
  rw [Layout.writes_statement call draft] at range
  have size : text.utf8ByteSize = draft.text.utf8ByteSize + call.text.utf8ByteSize + more.utf8ByteSize := by
    rw [split, String.utf8ByteSize_append, String.utf8ByteSize_append]
  constructor
  · rw [range]
    show (UInt32.ofNat draft.text.utf8ByteSize).toNat = _
    rw [UInt32.toNat_ofNat', Nat.mod_eq_of_lt (by omega)]
  · rw [range]
    show (UInt32.ofNat (draft.text ++ call.text).utf8ByteSize).toNat = _
    rw [String.utf8ByteSize_append, UInt32.toNat_ofNat', Nat.mod_eq_of_lt (by omega)]
  · rw [split]
    exact (standsAt_append _ _).grow more
  · rintro modifiers name body rfl
    obtain ⟨node, identifier, inner, made, spelled⟩ := Layout.exists_module modifiers name body draft
    refine ⟨node, identifier, inner, soleFile name body, made, build?_eq name body, ?_, spelled⟩
    rw [text_soleFile, Declaration.text]

/-- Statements that are laid out are the rows of what is written, one each and in order. -/
theorem rows_statements (calls : List Declaration) (draft : Draft) {text : String}
    (split : text = draft.text ++ Declaration.lines calls) (short : text.utf8ByteSize < 2 ^ 32) :
    Rows text draft.text.utf8ByteSize calls ((Layout.statements calls).run draft).1 := by
  induction calls generalizing draft with
  | nil =>
    rw [Declaration.lines, String.append_empty] at split
    rw [Layout.statements, split]
    exact .nil
  | cons call calls ih =>
    let fed := ((Layout.write "\n").run ((Layout.statement call).run draft).2).2
    have fedText : fed.text = draft.text ++ call.text ++ "\n" :=
      congrArg (· ++ "\n") (Layout.writes_statement call draft)
    have fedSize : fed.text.utf8ByteSize = draft.text.utf8ByteSize + call.text.utf8ByteSize + 1 := by
      rw [fedText, String.utf8ByteSize_append, String.utf8ByteSize_append]
      rfl
    rw [Declaration.lines] at split
    have others := ih fed (by rw [split, fedText]; simp only [String.append_assoc])
    rw [fedSize] at others
    rw [Layout.statements]
    refine .cons ?_ ?_ others
    · refine row_statement call draft ("\n" ++ Declaration.lines calls) ?_ short
      rw [split]
      simp only [String.append_assoc]
    · have stands := (standsAt_append (draft.text ++ call.text) "\n").grow (Declaration.lines calls)
      rw [String.utf8ByteSize_append] at stands
      rw [split]
      simpa only [String.append_assoc] using stands

/-! ### Two files in one -/

theorem adds_layout (calls : List Declaration) :
    Draft.Adds { interner := .empty } (layout calls).2 (Statement.outlines (layout calls).1) := by
  obtain ⟨new, made, adds⟩ := Layout.lays_statements calls [] { interner := .empty }
  have outlines : Statement.outlines (layout calls).1 = new := made
  rw [outlines]
  exact adds

theorem joins_soleFile (name name' name'' : String) (first second : List Declaration)
    (short : (Declaration.lines (first ++ second)).utf8ByteSize < 2 ^ 32) :
    (soleFile name (first ++ second)).Joins (soleFile name' first) (soleFile name'' second) := by
  let middle := (layout first).2
  let last := (Layout.statements second).run middle
  have split : layout (first ++ second) = ((layout first).1 ++ last.1, last.2) :=
    Layout.run_statements_append first second { interner := .empty }
  have ahead := Layout.ahead_of_empty middle
  have aheadLast : (layout second).2.Ahead middle.text.utf8ByteSize middle.nextId last.2 :=
    (Layout.steady_statements _ _ second _ _ ahead).2
  constructor
  · rw [text_soleFile, text_soleFile, text_soleFile, Declaration.lines_append]
  · refine ⟨last.1, ?_, ?_⟩
    · exact congrArg Prod.fst split
    · exact Layout.spelled_statements ahead second
  · show (layout (first ++ second)).2.nextId = middle.nextId + (layout second).2.nextId
    rw [split, Nat.add_comm]
    exact aheadLast.nextId
  · obtain ⟨count, drawn, indices⟩ := (adds_layout first).numbered
    have counted : middle.nextId = 0 + count := drawn
    show Outline.indices (Statement.outlines (layout first).1) = List.range middle.nextId
    rw [indices, counted, Nat.zero_add, List.range_eq_range']
  · intro part mem
    have sizes : (Declaration.lines (first ++ second)).utf8ByteSize =
        (Declaration.lines first).utf8ByteSize + (Declaration.lines second).utf8ByteSize := by
      rw [Declaration.lines_append, String.utf8ByteSize_append]
    have laid := (adds_layout second).laid
    have tailText : (layout second).2.text = Declaration.lines second := text_soleFile name'' second
    rw [tailText] at laid
    have placed := laid.placed (by omega) part mem
    have stops := placed.inside
    rw [text_soleFile, text_soleFile]
    exact ⟨placed.ordered, by omega⟩

/-- Calls after other calls build the two files that they build alone, one behind the other, where the text as a
whole is short enough for its offsets. Each statement is the row of its call. -/
theorem build?_append (name name' name'' : String) (first second : List Declaration)
    (short : (Declaration.lines (first ++ second)).utf8ByteSize < 2 ^ 32) :
    ∃ whole head tail, build? name (first ++ second) = some whole ∧ build? name' first = some head ∧
      build? name'' second = some tail ∧ whole.text = Declaration.lines (first ++ second) ∧ whole.Joins head tail ∧
      Rows whole.text 0 (first ++ second) whole.statements := by
  refine ⟨_, _, _, build?_eq name _, build?_eq name' first, build?_eq name'' second, text_soleFile name _,
    joins_soleFile name name' name'' first second short, ?_⟩
  rw [text_soleFile]
  exact rows_statements (first ++ second) { interner := .empty } String.empty_append.symm short

/-- A namespace in a namespace, with a type alias behind them. -/
theorem build?_append_nested :
    let first := [Declaration.space ModifierFlags.exported "outer" [.space .none "inner" [.enum .none "E" []], .empty]]
    let second := [Declaration.typeAlias .none "Id" "string"]
    ∃ whole head tail, build? "mod.ts" (first ++ second) = some whole ∧ build? "a.ts" first = some head ∧
      build? "b.ts" second = some tail ∧ whole.text = Declaration.lines (first ++ second) ∧ whole.Joins head tail ∧
      Rows whole.text 0 (first ++ second) whole.statements := by
  intro first second
  have short : (Declaration.lines (first ++ second)).utf8ByteSize < 2 ^ 32 := by decide +kernel
  exact build?_append "mod.ts" "a.ts" "b.ts" first second short

end Workspace

end ExportLint
