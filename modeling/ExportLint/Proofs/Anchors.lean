import ExportLint.Proofs.Lines
import ExportLint.Proofs.OracleAnswers

/-!
# Where diagnostics point

A run over files that builders have made comes to an end where its oracle answers, and what it reports points at
the statements that were written for the exports: each span covers the text of a declaration, no more and no less,
so it can be shown in the file, and its start is given by line and column.
-/

namespace ExportLint

open Relation (ReflTransGen)
open TypeOracle (Questioned Responds)

/-- Whether a span covers a piece of a text, no more and no less. -/
structure Span.Covers (span : Span) (text piece : String) : Prop where
  stands : StandsAt text span.start.toNat piece
  length : span.length.toNat = piece.utf8ByteSize

/-- Whether a diagnostic points at a statement of a file that was written for a declaration. -/
structure Diagnostic.Anchored (diagnostic : Diagnostic) (file : SourceFile) (statement : Statement)
    (declaration : Declaration) : Prop where
  inFile : diagnostic.file = file.name
  exported : statement ∈ file.namedExports
  written : statement.Written file.text declaration
  declares : ∃ name, diagnostic.payload.exportName = some name ∧ some name ∈ declaration.boundNames ∧
    ∃ entity ∈ statement.entities, ∃ node, entity.checked? = some (name, node)
  range : diagnostic.span.range = .ok statement.node.range
  nonempty : diagnostic.span.isEmpty = false
  inside : diagnostic.span.start.toNat + diagnostic.span.length.toNat ≤ file.text.utf8ByteSize
  covers : diagnostic.span.Covers file.text declaration.text
  report : ∃ report, diagnostic.report file.text = .ok report ∧ report.offset = diagnostic.span.start ∧
    report.length = diagnostic.span.length ∧ report.sourceName = file.name ∧ report.source = file.text
  shown : (∃ ends, diagnostic.span.text = .ok ends) ∧ ∃ interval, diagnostic.span.interval = .ok interval
  line : diagnostic.start.line.toNat = feedsBefore file.text diagnostic.span.start.toNat + 1
  column : diagnostic.start.column.toNat = bytesSinceFeed file.text diagnostic.span.start.toNat + 1

/-! ### Spans of ranges -/

namespace Span

variable {span : Span} {range : Range} {text piece : String}

/-- A span that was taken from a range gives back the range. -/
theorem range_eq_ok (spans : range.span = .ok span) : span.range = .ok range := by
  obtain ⟨starts, stops⟩ := ofBounds_eq_ok_iff.mp spans
  rw [Span.range, stops, starts]
  rfl

theorem length_eq_ok (spans : range.span = .ok span) : range.length = .ok span.length := by
  obtain ⟨starts, stops⟩ := ofBounds_eq_ok_iff.mp spans
  have sum := Offset.add_eq_ok_iff.mp stops
  rw [Range.length, Offset.sub_eq_ok_iff, ← starts]
  omega

theorem shown (spans : range.span = .ok span) :
    (∃ ends, span.text = .ok ends) ∧ ∃ interval, span.interval = .ok interval := by
  obtain ⟨_, stops⟩ := ofBounds_eq_ok_iff.mp spans
  rw [Span.text, Span.interval, stops]
  exact ⟨⟨_, rfl⟩, ⟨_, rfl⟩⟩

theorem Covers.inside (covers : span.Covers text piece) :
    span.start.toNat + span.length.toNat ≤ text.utf8ByteSize := by
  rw [covers.length]
  exact covers.stands.inside

theorem Covers.length_pos (covers : span.Covers text piece) (filled : piece ≠ "") : 0 < span.length.toNat := by
  have size := mt String.utf8ByteSize_eq_zero_iff.mp filled
  rw [covers.length]
  omega

theorem isEmpty_eq_false (filled : 0 < span.length.toNat) : span.isEmpty = false := by
  rw [isEmpty, beq_eq_false_iff_ne]
  intro empty
  have none : span.length.toNat = 0 := congrArg UInt32.toNat empty
  omega

end Span

/-- A diagnostic whose span was taken from a range can be rendered. -/
theorem Diagnostic.report_eq_ok {diagnostic : Diagnostic} {range : Range} (spans : range.span = .ok diagnostic.span)
    (source : String) : diagnostic.report source = .ok {
      message := diagnostic.message, code := diagnostic.code, severity := diagnostic.category,
      label := diagnostic.label, offset := diagnostic.span.start, length := diagnostic.span.length,
      sourceName := diagnostic.file, source } := by
  have starts := (Span.ofBounds_eq_ok_iff.mp spans).1
  rw [Diagnostic.report, Span.range_eq_ok spans, starts]
  simp only [bind, Except.bind, Span.length_eq_ok spans]
  rfl

/-! ### Reports at statements -/

/-- The names that a statement is checked under are among those that were asked for. -/
theorem Statement.Written.declares {text : String} {statement : Statement} {declaration : Declaration}
    (written : statement.Written text declaration) {entity : Entity} (mem : entity ∈ statement.entities) {name : String}
    {node : NodeId} (checked : entity.checked? = some (name, node)) : some name ∈ declaration.boundNames := by
  obtain ⟨asked, among, same⟩ := exists_mem_of_forall₂ written.entities mem
  rw [checked] at same
  obtain ⟨spelled, rfl, pair⟩ := Option.map_eq_some_iff.mp same.symm
  cases pair
  exact among

section
variable {file : SourceFile} {statement : Statement} {declaration : Declaration}

/-- In a short text the range of a statement gives a span, which covers what was written for the declaration. -/
theorem Statement.Written.exists_span (written : statement.Written file.text declaration)
    (short : file.text.utf8ByteSize < 2 ^ 32) :
    ∃ span : Span, statement.node.range.span = .ok span ∧ span.Covers file.text declaration.text := by
  obtain ⟨start, stands, range⟩ := written.covers
  have inside := stands.inside
  have startWord : (UInt32.ofNat start).toNat = start := by
    rw [UInt32.toNat_ofNat', Nat.mod_eq_of_lt (by omega)]
  have lengthWord : (UInt32.ofNat declaration.text.utf8ByteSize).toNat = declaration.text.utf8ByteSize := by
    rw [UInt32.toNat_ofNat', Nat.mod_eq_of_lt (by omega)]
  refine ⟨_, range ▸ stands.span_eq_ok short, ?_, lengthWord⟩
  rw [startWord]
  exact stands

/-- A statement that was written for a declaration is reported without a fault, and the report points at it. -/
theorem Statement.Written.exists_report (written : statement.Written file.text declaration)
    (short : file.text.utf8ByteSize < 2 ^ 32) (exported : statement ∈ file.namedExports) {entity : Entity}
    (mem : entity ∈ statement.entities) {name : String} {node : NodeId}
    (checked : entity.checked? = some (name, node)) (message : Message) {payload : Payload}
    (named : payload.exportName = some name) :
    ∃ diagnostic, file.report statement.node message payload = .ok diagnostic ∧
      diagnostic.Anchored file statement declaration := by
  obtain ⟨span, spans, covers⟩ := written.exists_span short
  have filled := covers.length_pos declaration.text_ne_empty
  have before : span.start.toNat < file.text.utf8ByteSize := by
    have inside := covers.inside
    omega
  obtain ⟨location, located, line, column⟩ := LineMap.locate_ofText short before
  refine ⟨.raise message payload file.name span location,
    SourceFile.report_eq_ok_iff.mpr ⟨span, location, spans, located, rfl⟩, ?_⟩
  exact {
    inFile := rfl
    exported, written
    declares := ⟨name, named, written.declares mem checked, entity, mem, node, checked⟩
    range := Span.range_eq_ok spans
    nonempty := Span.isEmpty_eq_false filled
    inside := covers.inside
    covers := covers
    report := ⟨_, Diagnostic.report_eq_ok spans file.text, rfl, rfl, rfl, rfl⟩
    shown := Span.shown spans
    line := line
    column := column }

end

/-! ### Runs over programs -/

variable {σ : Type} [TypeOracle σ] {rule : Rule} {program : Program} {names : Interner} {oracle : σ}
  {exported : CheckedExport}

/-- What is checked is a named export of a file, under a name that it declares. -/
theorem Program.namedExport_of_mem (mem : exported ∈ program.checkedExports) :
    exported.file ∈ program.files ∧ exported.statement ∈ exported.file.namedExports ∧
      ∃ entity ∈ exported.statement.entities, entity.checked? = some (exported.name, exported.node) := by
  obtain ⟨file, listed, inFile⟩ := List.mem_flatMap.mp mem
  obtain ⟨⟨statement, checked⟩, checkedMem, rfl⟩ := List.mem_map.mp inFile
  obtain ⟨other, named, among⟩ := List.mem_flatMap.mp checkedMem
  obtain ⟨pair, found, same⟩ := List.mem_map.mp among
  cases same
  obtain ⟨entity, inStatement, check⟩ := List.mem_filterMap.mp found
  exact ⟨listed, named, entity, inStatement, check⟩

namespace Workspace

variable {origin : Nat → Nat} {workspace : Workspace} {number : Nat}

/-- Every statement of a finished file was written for a declaration. -/
theorem Made.exists_written {file : SourceFile} {statement : Statement} (made : Made origin workspace)
    (finished : workspace.finished? number = some file) (mem : statement ∈ file.statements) :
    ∃ declaration, statement.Written file.text declaration := by
  obtain ⟨log, logged⟩ := made.exists_logged
  obtain ⟨record, _, made⟩ := logged.exists_made finished
  obtain ⟨⟨start, call⟩, _, stands, placed⟩ := exists_mem_of_forall₂ made.standing mem
  exact ⟨call.declaration, placed.made.records, start, stands, placed.range⟩

/-- In a program of files that builders have made, every export can be reported, and the report points at it. -/
theorem Made.exists_report (made : Made origin workspace)
    (found : workspace.program? number = some (program, names))
    (short : ∀ file ∈ program.files, file.text.utf8ByteSize < 2 ^ 32) (mem : exported ∈ program.checkedExports)
    (message : Message) {payload : Payload} (named : payload.exportName = some exported.name) :
    ∃ diagnostic declaration, exported.file.report exported.statement.node message payload = .ok diagnostic ∧
      diagnostic.Anchored exported.file exported.statement declaration := by
  obtain ⟨_, present, same⟩ := Option.map_eq_some_iff.mp found
  cases same
  obtain ⟨listed, namedExport, entity, among, checked⟩ := Program.namedExport_of_mem mem
  obtain ⟨other, finished⟩ := made.program_files present listed
  obtain ⟨declaration, written⟩ := made.exists_written finished (List.mem_of_mem_filter namedExport)
  obtain ⟨diagnostic, reported, anchored⟩ :=
    written.exists_report (short _ listed) namedExport among checked message named
  exact ⟨diagnostic, declaration, reported, anchored⟩

theorem Made.reportable (made : Made origin workspace)
    (found : workspace.program? number = some (program, names))
    (short : ∀ file ∈ program.files, file.text.utf8ByteSize < 2 ^ 32) (mem : exported ∈ program.checkedExports) :
    exported.Reportable := by
  intro message payload named
  obtain ⟨diagnostic, _, reported, _⟩ := made.exists_report found short mem message named
  exact ⟨diagnostic, reported⟩

/-- A run over files that builders have made comes to an end where its oracle answers. -/
theorem Made.exists_checkProgram (made : Made origin workspace)
    (found : workspace.program? number = some (program, names))
    (short : ∀ file ∈ program.files, file.text.utf8ByteSize < 2 ^ 32) (rule : Rule) (responds : Responds oracle) :
    ∃ reported after, rule.checkProgram program names oracle = .ok (reported, after) := by
  have judged : ∃ outcomes after, rule.judgeAll program names program.checkedExports oracle = .ok (outcomes, after) :=
    rule.exists_judgeAll_of_responds responds fun _ mem => made.reportable found short mem
  obtain ⟨outcomes, after, run⟩ := judged
  rw [Rule.checkProgram_eq]
  exact ⟨_, after, Rule.collect_eq_ok_iff.mpr ⟨outcomes, run, rfl⟩⟩

/-- What a run over files that builders have made reports was raised at an export of the program. -/
theorem Made.diagnostic_anchored (made : Made origin workspace)
    (found : workspace.program? number = some (program, names))
    (short : ∀ file ∈ program.files, file.text.utf8ByteSize < 2 ^ 32) {rule : Rule} {reported : Collection} {after : σ}
    (run : rule.checkProgram program names oracle = .ok (reported, after)) {diagnostic : Diagnostic}
    (mem : diagnostic ∈ reported.items) :
    ∃ file ∈ program.files, ∃ statement declaration, diagnostic.Anchored file statement declaration := by
  rw [Rule.checkProgram_eq] at run
  obtain ⟨outcomes, judged, rfl⟩ := Rule.collect_eq_ok_iff.mp run
  have among := List.reduceOption_mem_iff.mp mem
  obtain ⟨exported, listed, before, next, outcome⟩ := Rule.exists_judge_of_mem judged among
  obtain ⟨message, payload, named, raised⟩ := (Rule.judge_eq_ok_iff.mp outcome).reported
  obtain ⟨other, declaration, same, anchored⟩ := made.exists_report found short listed message named
  rw [raised] at same
  cases same
  exact ⟨exported.file, (Program.namedExport_of_mem listed).1, exported.statement, declaration, anchored⟩

/-- A run over files that builders have made comes to an end where its oracle answers, and every diagnostic points
at a named export of a file of the program that declares the name it speaks of. -/
theorem Made.diagnostics_anchored (made : Made origin workspace)
    (found : workspace.program? number = some (program, names))
    (short : ∀ file ∈ program.files, file.text.utf8ByteSize < 2 ^ 32) (rule : Rule)
    (responds : Responds oracle) :
    ∃ reported after, rule.checkProgram program names oracle = .ok (reported, after) ∧
      ∀ diagnostic ∈ reported.items, ∃ file ∈ program.files, ∃ statement declaration,
        diagnostic.Anchored file statement declaration := by
  obtain ⟨reported, after, run⟩ := made.exists_checkProgram found short rule responds
  exact ⟨reported, after, run, fun _ => made.diagnostic_anchored found short run⟩

/-- A constant whose expected type is declared nowhere, on the second line of a file. -/
theorem diagnostics_anchored_missing :
    let declarations := [Declaration.interface .none "Props" [],
      .variableDecl ModifierFlags.exported NodeFlags.constList [{ binding := .name "id", value := some "[\n1]" }]]
    let rule : Rule := { typeMap := .ofList [("*", "Missing")] }
    ∃ program names reported after, (Workspace.sole "mod.ts" declarations).program? 0 = some (program, names) ∧
      rule.checkProgram program names (Checker.initial false) = .ok (reported, after) ∧
      reported.items.map (·.start) = [⟨2, 1⟩] ∧
      ∀ diagnostic ∈ reported.items, ∃ file ∈ program.files, ∃ statement declaration,
        diagnostic.Anchored file statement declaration := by
  intro declarations rule
  have tabled : (Checker.initial false).Tabled := (Checker.initial_coherent false).toTabled
  have responds : Responds (Checker.initial false) :=
    tabled.responds (by decide) (Checker.initial_bindsInside false)
  have present : (Workspace.sole "mod.ts" declarations).program? 0 = some (_, _) := rfl
  have short : ∀ file ∈ [Workspace.soleFile "mod.ts" declarations], file.text.utf8ByteSize < 2 ^ 32 := by
    intro file mem
    cases List.mem_singleton.mp mem
    decide
  obtain ⟨reported, after, run, anchored⟩ :=
    (Workspace.sole_made "mod.ts" declarations).diagnostics_anchored present short rule responds
  refine ⟨_, _, reported, after, present, run, ?_, anchored⟩
  have starts := congrArg (Except.map (·.1.items.map (·.start))) run
  exact Except.ok.inj (starts.symm.trans (by decide +kernel))

end Workspace

end ExportLint
