import ExportLint.Proofs.Anchors
import ExportLint.Proofs.Sorting
import ExportLint.Proofs.TreeAndText

/-!
# The order of files

A run reports file by file, and within a file in the order of the statements. So sorting what it reports by file and
place only moves the reports of whole files. Which file comes first matters to a run where several files declare a
type of one name; where no configured name is declared twice, the sorted reports are the same in every order.
-/

namespace ExportLint

open Relation (ReflTransGen)
open TypeOracle (Questioned)

variable {σ : Type} [TypeOracle σ] {rule : Rule} {program other : Program} {names : Interner} {oracle : σ}
  {answers : Answers}

/-! ### Reports of one file -/

namespace Answers

/-- What a run over a file reports where the table gives the answers. -/
def block (answers : Answers) (rule : Rule) (program : Program) (names : Interner) (file : SourceFile) : Collection :=
  ⟨(CheckedExport.ofFile file).filterMap (answers.outcome rule program names)⟩

theorem Fixes.checkFile_eq (fixes : answers.Fixes oracle) {file : SourceFile}
    (report : ∀ exported ∈ CheckedExport.ofFile file, exported.Reportable) :
    ∃ after, rule.checkFile program names file oracle = .ok (answers.block rule program names file, after) := by
  have alike : rule.ResolvesAlike program program names answers := fun _ _ _ => rfl
  obtain ⟨after, run⟩ := fixes.judgeAll_eq alike report
  rw [Rule.checkFile_eq]
  refine ⟨after, Rule.collect_eq_ok_iff.mpr ⟨_, run, ?_⟩⟩
  simp [block, List.reduceOption, List.filterMap_map]

/-- A run over a program reports what the runs over its files report, one after the other. -/
theorem Fixes.checkProgram_eq (fixes : answers.Fixes oracle) (alike : rule.ResolvesAlike program other names answers)
    (report : ∀ exported ∈ other.checkedExports, exported.Reportable) :
    ∃ after, rule.checkProgram other names oracle =
      .ok (⟨other.files.flatMap fun file => (answers.block rule program names file).items⟩, after) := by
  obtain ⟨after, run⟩ := fixes.judgeAll_eq alike report
  rw [Rule.checkProgram_eq]
  refine ⟨after, Rule.collect_eq_ok_iff.mpr ⟨_, run, ?_⟩⟩
  simp [block, List.reduceOption, List.filterMap_map, Program.checkedExports_eq, List.filterMap_flatMap]

end Answers

theorem SourceFile.report_placed {file : SourceFile} {node : Node} {message : Message} {payload : Payload}
    {diagnostic : Diagnostic} (reported : file.report node message payload = .ok diagnostic) :
    diagnostic.file = file.name ∧ diagnostic.span.start = node.range.start := by
  obtain ⟨span, start, spans, _, rfl⟩ := SourceFile.report_eq_ok_iff.mp reported
  exact ⟨rfl, (Span.ofBounds_eq_ok_iff.mp spans).1⟩

theorem CheckedExport.file_of_mem {file : SourceFile} {exported : CheckedExport}
    (mem : exported ∈ CheckedExport.ofFile file) : exported.file = file := by
  obtain ⟨_, _, rfl⟩ := List.mem_map.mp mem
  rfl

/-- Whether the statements of a file begin one after the other. -/
def SourceFile.Rising (file : SourceFile) : Prop :=
  file.statements.Pairwise fun earlier later => earlier.node.range.start ≤ later.node.range.start

/-- The exports of a file come in the order of their statements. -/
theorem CheckedExport.ofFile_rising {file : SourceFile} (rising : file.Rising) :
    (CheckedExport.ofFile file).Pairwise fun earlier later =>
      earlier.statement.node.range.start ≤ later.statement.node.range.start := by
  have named : file.namedExports.Pairwise fun earlier later =>
      earlier.node.range.start ≤ later.node.range.start := List.Pairwise.filter _ rising
  refine List.pairwise_map.mpr (List.pairwise_flatMap.mpr ⟨fun statement _ => ?_, ?_⟩)
  · refine List.pairwise_map.mpr (List.pairwise_of_forall_mem_list fun _ _ _ _ => ?_)
    exact UInt32.le_refl _
  · refine named.imp fun {earlier later} le first memFirst second memSecond => ?_
    obtain ⟨_, _, rfl⟩ := List.mem_map.mp memFirst
    obtain ⟨_, _, rfl⟩ := List.mem_map.mp memSecond
    exact le

namespace Answers

variable {file : SourceFile}

/-- What is reported for a file names it. -/
theorem file_of_mem_block (report : ∀ exported ∈ CheckedExport.ofFile file, exported.Reportable)
    {diagnostic : Diagnostic} (mem : diagnostic ∈ (answers.block rule program names file).items) :
    diagnostic.file = file.name := by
  obtain ⟨exported, listed, found⟩ := List.mem_filterMap.mp mem
  obtain ⟨_, _, reported⟩ := outcome_reported (report exported listed) found
  rw [(SourceFile.report_placed reported).1, CheckedExport.file_of_mem listed]

/-- What is reported for a file comes in the order of the places, since statements lie one after the other. -/
theorem block_rising (report : ∀ exported ∈ CheckedExport.ofFile file, exported.Reportable)
    (rising : file.Rising) :
    (answers.block rule program names file).items.Pairwise fun earlier later =>
      earlier.span.start ≤ later.span.start := by
  refine List.pairwise_filterMap.mpr ?_
  refine (CheckedExport.ofFile_rising rising).imp_of_mem ?_
  intro earlier later memE memL le first isFirst second isSecond
  obtain ⟨_, _, reported⟩ := outcome_reported (report earlier memE) isFirst
  obtain ⟨_, _, reported'⟩ := outcome_reported (report later memL) isSecond
  rw [(SourceFile.report_placed reported).2, (SourceFile.report_placed reported').2]
  exact le

/-- The files of a program in any order give the same sorted reports, where the configured names mean the same. -/
theorem Fixes.exists_sorted (fixes : answers.Fixes oracle) (alike : rule.ResolvesAlike program other names answers)
    (same : other.files.Perm program.files) {ordered : List SourceFile} (perm : ordered.Perm program.files)
    (sorted : ordered.Pairwise fun earlier later => earlier.name < later.name)
    (report : ∀ file ∈ program.files, ∀ exported ∈ CheckedExport.ofFile file, exported.Reportable)
    (rising : ∀ file ∈ program.files, file.Rising) :
    ∃ reported after, rule.checkProgram other names oracle = .ok (reported, after) ∧
      reported.sort.items = ordered.flatMap fun file => (answers.block rule program names file).items := by
  have reports : ∀ exported ∈ other.checkedExports, exported.Reportable := by
    intro exported mem
    obtain ⟨file, listed, inFile⟩ := List.mem_flatMap.mp mem
    exact report file (same.mem_iff.mp listed) exported inFile
  obtain ⟨after, run⟩ := fixes.checkProgram_eq alike reports
  refine ⟨_, after, run, Collection.sort_blocks (perm.trans same.symm) sorted ?_ ?_⟩
  · intro file mem diagnostic inBlock
    exact file_of_mem_block (report file (same.mem_iff.mp mem)) inBlock
  · intro file mem
    exact block_rising (report file (same.mem_iff.mp mem)) (rising file (same.mem_iff.mp mem))

end Answers

/-! ### Names in another order of files -/

/-- A name that is declared once at most has the same meaning in every order of the files. -/
theorem Program.resolve?_eq_of_perm (perm : other.files.Perm program.files) {typeName : String}
    (few : program.typeDeclarations.countP (·.name.name == typeName) ≤ 1) :
    other.resolve? names oracle typeName = program.resolve? names oracle typeName := by
  have declared : other.typeDeclarations.Perm program.typeDeclarations := perm.flatMap_right _
  have spelled := filter_eq_of_perm declared.symm few
  have same : other.declaration? names typeName = program.declaration? names typeName := by
    unfold Program.declaration?
    cases names.find? typeName with
    | none => rfl
    | some symbol =>
      -- the search among all declarations is a search among those with the spelling
      have narrow (declarations : List TypeDeclaration) :
          (declarations.find? fun declared => declared.name.symbol == symbol && declared.name.name == typeName) =
            (declarations.filter (·.name.name == typeName)).find? (·.name.symbol == symbol) := by
        rw [List.find?_filter]
        congr 1
        funext declared
        rw [Bool.eq_iff_iff]
        simp [and_comm]
      show List.find? _ _ = List.find? _ _
      rw [narrow, narrow, spelled]
  unfold Program.resolve?
  rw [same]

/-! ### Sorted runs -/

namespace Workspace

variable {origin : Nat → Nat} {workspace : Workspace} {number : Nat}

/-- The statements of a finished file begin one after the other. -/
theorem Made.statements_rising {file : SourceFile} (made : Made origin workspace)
    (finished : workspace.finished? number = some file) (short : file.text.utf8ByteSize < 2 ^ 32) : file.Rising := by
  have sound := made.sound.files number _ (finished?_eq_some_iff.mp finished)
  have laid : Laid file.text 0 file.text.utf8ByteSize (Statement.outlines file.statements) := sound.laid
  have apart := (laid.trees short).2
  rw [Statement.outlines_eq_map] at apart laid
  refine (List.pairwise_map.mp apart).imp_of_mem fun {earlier later} mem _ before => ?_
  have ordered : earlier.outline.start ≤ earlier.outline.stop :=
    (laid.placed short _ ((Outline.sublist_flatten _).subset (List.mem_map_of_mem mem))).ordered
  have le : earlier.outline.start ≤ later.outline.start := Nat.le_trans ordered before
  rw [Outline.start, Outline.start, Statement.node_outline, Statement.node_outline] at le
  exact UInt32.le_iff_toNat_le.mpr le

/-- Files of different names can be put in the order of their names. -/
theorem exists_ordered {files : List SourceFile} (distinct : (files.map (·.name)).Nodup) :
    ∃ ordered : List SourceFile, ordered.Perm files ∧
      ordered.Pairwise fun earlier later => earlier.name < later.name := by
  let byName (earlier later : SourceFile) : Bool := decide (earlier.name ≤ later.name)
  have sorted : (files.mergeSort byName).Pairwise fun earlier later => byName earlier later = true := by
    refine List.pairwise_mergeSort (fun a b c before after => ?_) (fun a b => ?_) files
    · simp only [byName, decide_eq_true_eq] at before after ⊢
      exact le_trans before after
    · simpa [byName] using le_total a.name b.name
  have perm := List.mergeSort_perm files byName
  have apart := List.pairwise_map.mp ((perm.map (·.name)).nodup_iff.mpr distinct)
  refine ⟨_, perm, (sorted.and apart).imp fun both => ?_⟩
  exact lt_of_le_of_ne (of_decide_eq_true both.1) both.2

/-- Sorting what a run over files of different names reports gives the reports of the files in the order of the
names, each as it was reported. Where no configured name is declared twice, the files may come in any order. -/
theorem Made.sort_checkProgram (made : Made origin workspace)
    (found : workspace.program? number = some (program, names))
    (short : ∀ file ∈ program.files, file.text.utf8ByteSize < 2 ^ 32)
    (distinct : (program.files.map (·.name)).Nodup) (rule : Rule) (fixes : answers.Fixes oracle) :
    ∃ (blocks : SourceFile → Collection) (ordered : List SourceFile) (reported : Collection) (after : σ),
      (∀ file ∈ program.files, ∀ before, ReflTransGen Questioned oracle before →
        ∃ next, rule.checkFile program names file before = .ok (blocks file, next)) ∧
      ordered.Perm program.files ∧
      (ordered.Pairwise fun earlier later => bytes earlier.name < bytes later.name) ∧
      rule.checkProgram program names oracle = .ok (reported, after) ∧
      reported.sort.items = (ordered.flatMap fun file => (blocks file).items) ∧
      ((∀ exportName typeName, rule.typeMap.expectedType? exportName = some typeName →
          program.typeDeclarations.countP (·.name.name == typeName) ≤ 1) →
        ∀ other : Program, other.files.Perm program.files → ∃ reported' after',
          rule.checkProgram other names oracle = .ok (reported', after') ∧ reported'.sort = reported.sort) := by
  have reportable : ∀ file ∈ program.files, ∀ exported ∈ CheckedExport.ofFile file, exported.Reportable := by
    intro file mem exported listed
    exact made.reportable found short (List.mem_flatMap.mpr ⟨file, mem, listed⟩)
  have rising : ∀ file ∈ program.files, file.Rising := by
    intro file mem
    obtain ⟨_, present, same⟩ := Option.map_eq_some_iff.mp found
    cases same
    obtain ⟨other, finished⟩ := made.program_files present mem
    exact made.statements_rising finished (short file mem)
  obtain ⟨ordered, perm, sorted⟩ := exists_ordered distinct
  have alike : rule.ResolvesAlike program program names answers := fun _ _ _ => rfl
  obtain ⟨reported, after, run, items⟩ := fixes.exists_sorted alike (.refl _) perm sorted reportable rising
  refine ⟨answers.block rule program names, ordered, reported, after, ?_, perm, ?_, run, items, ?_⟩
  · intro file mem before history
    exact (fixes.history history).checkFile_eq (reportable file mem)
  · exact sorted.imp fun before => bytes_lt_iff.mpr before
  · intro few other same
    have alike : rule.ResolvesAlike program other names answers :=
      fun exportName typeName configured => Program.resolve?_eq_of_perm same (few exportName typeName configured)
    obtain ⟨reported', after', run', items'⟩ := fixes.exists_sorted alike same perm sorted reportable rising
    exact ⟨reported', after', run', congrArg Collection.mk (items'.trans items.symm)⟩

/-- Two files that can be checked in either order, with two exports in one statement. -/
theorem sort_checkProgram_pair :
    let first := [Declaration.typeAlias .none "Id" "number", .variableDecl ModifierFlags.exported NodeFlags.constList
      [{ binding := .name "y" }, { binding := .name "z" }]]
    let second := [Declaration.variableDecl ModifierFlags.exported NodeFlags.constList [{ binding := .name "x" }]]
    let program : Program := ⟨⟨0⟩, [soleFile "b.ts" first, nextFile "a.ts" first second]⟩
    let swapped : Program := ⟨⟨0⟩, [nextFile "a.ts" first second, soleFile "b.ts" first]⟩
    let rule : Rule := { typeMap := .ofList [("*", "Id")] }
    let checker := (Checker.initial false).bind ⟨0⟩ .number
    ∃ names reported reported' after after',
      (pair "b.ts" "a.ts" first second).program? 1 = some (program, names) ∧
      rule.checkProgram program names checker = .ok (reported, after) ∧
      reported.items.map (·.payload.exportName) = [some "y", some "z", some "x"] ∧
      rule.checkProgram swapped names checker = .ok (reported', after') ∧
      reported'.items.map (·.payload.exportName) = [some "x", some "y", some "z"] ∧
      reported'.sort = reported.sort := by
  intro first second program swapped rule checker
  have made := pair_made "b.ts" "a.ts" first second
  have found : (pair "b.ts" "a.ts" first second).program? 1 = some (program, _) := rfl
  have short : ∀ file ∈ program.files, file.text.utf8ByteSize < 2 ^ 32 := by decide +kernel
  have reached : checker.ReachedOrderly := .single (.bound _ ⟨0⟩ .number)
  have bound : checker.BindsInside := (Checker.initial_bindsInside false).bind ⟨0⟩ (by decide)
  have declared : program.typeDeclarations.length = 1 := by decide +kernel
  obtain ⟨_, _, reported, after, _, _, _, run, _, orders⟩ :=
    made.sort_checkProgram found short (by decide) rule (reached.fixes bound)
  obtain ⟨reported', after', run', same⟩ :=
    orders (fun _ _ _ => declared ▸ List.countP_le_length) swapped (.swap ..)
  have names := congrArg (Except.map (·.1.items.map (·.payload.exportName))) run
  have names' := congrArg (Except.map (·.1.items.map (·.payload.exportName))) run'
  refine ⟨_, reported, reported', after, after', found, run, ?_, run', ?_, same⟩
  · exact Except.ok.inj (names.symm.trans (by decide +kernel))
  · exact Except.ok.inj (names'.symm.trans (by decide +kernel))

end Workspace

end ExportLint
