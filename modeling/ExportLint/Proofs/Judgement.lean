import ExportLint.Proofs.CheckerHistory
import ExportLint.Rule

/-!
# Judging exports

How a run of the rule comes to its diagnostics. The loops over files and over the exports of a file
are one loop over all exports of the program, which leaves one outcome for each of them and passes
the oracle on; for each outcome there is one rule by which it is come to.
-/

namespace ExportLint

/-- A named export that a run judges, with its file. -/
structure CheckedExport where
  file : SourceFile
  statement : Statement
  name : String
  node : NodeId

/-- The named exports of a program in the order in which they are judged. -/
def Program.checkedExports (program : Program) : List CheckedExport :=
  program.files.flatMap fun file =>
    file.checkedExports.map fun (statement, name, node) => { file, statement, name, node }

/-- The named exports of one file. -/
def CheckedExport.ofFile (file : SourceFile) : List CheckedExport :=
  file.checkedExports.map fun (statement, name, node) => { file, statement, name, node }

theorem Program.checkedExports_eq (program : Program) :
    program.checkedExports = program.files.flatMap CheckedExport.ofFile :=
  rfl

theorem SourceFile.report_eq_ok_iff {file : SourceFile} {node : Node} {message : Message} {payload : Payload}
    {diagnostic : Diagnostic} : file.report node message payload = .ok diagnostic ↔
      ∃ span start, node.range.span = .ok span ∧ file.locate span.start = .ok start ∧
        diagnostic = .raise message payload file.name span start := by
  unfold SourceFile.report
  cases node.range.span with
  | error fault => simp [bind, Except.bind]
  | ok span =>
    cases located : file.locate span.start with
    | error fault => simp [bind, Except.bind, located]
    | ok start => simp [bind, Except.bind, pure, Except.pure, located, eq_comm]

/-- Where one message can be raised at a node, every message can. -/
theorem SourceFile.exists_report {file : SourceFile} {node : Node} {message other : Message}
    {payload payload' : Payload} {diagnostic : Diagnostic}
    (reported : file.report node message payload = .ok diagnostic) :
    ∃ raised, file.report node other payload' = .ok raised := by
  obtain ⟨span, start, spans, located, _⟩ := SourceFile.report_eq_ok_iff.mp reported
  exact ⟨_, SourceFile.report_eq_ok_iff.mpr ⟨span, start, spans, located, rfl⟩⟩

namespace Rule

variable {σ : Type} [TypeOracle σ] {rule : Rule} {program : Program} {store : Interner} {exported : CheckedExport}
  {before after oracle : σ} {outcome : Option Diagnostic}

/-- Judges an export in its file. -/
def judge (rule : Rule) (program : Program) (store : Interner) (exported : CheckedExport) (oracle : σ) :
    Except Fault (Option Diagnostic × σ) :=
  rule.checkExport program store exported.file exported.statement exported.name exported.node oracle

/-- Judges exports one after the other, with an outcome for each. -/
def judgeAll (rule : Rule) (program : Program) (store : Interner) :
    List CheckedExport → σ → Except Fault (List (Option Diagnostic) × σ)
  | [], oracle => .ok ([], oracle)
  | exported :: rest, oracle => do
    let (outcome, oracle) ← rule.judge program store exported oracle
    let (outcomes, oracle) ← judgeAll rule program store rest oracle
    return (outcome :: outcomes, oracle)

/-! ### The run over a program -/

/-- What a run reports, given the outcomes of the exports. -/
def collect (run : Except Fault (List (Option Diagnostic) × σ)) : Except Fault (Collection × σ) :=
  run.map fun (outcomes, oracle) => (⟨outcomes.reduceOption⟩, oracle)

omit [TypeOracle σ] in
theorem collect_eq_ok_iff {run : Except Fault (List (Option Diagnostic) × σ)} {found : Collection} :
    collect run = .ok (found, after) ↔ ∃ outcomes, run = .ok (outcomes, after) ∧ found = ⟨outcomes.reduceOption⟩ := by
  rcases run with _ | ⟨outcomes, last⟩
  · simp [collect, Except.map]
  · simp [collect, Except.map, eq_comm, and_comm]

theorem judgeAll_append (first second : List CheckedExport) (oracle : σ) :
    rule.judgeAll program store (first ++ second) oracle = do
      let (outcomes, oracle) ← rule.judgeAll program store first oracle
      let (others, oracle) ← rule.judgeAll program store second oracle
      return (outcomes ++ others, oracle) := by
  induction first generalizing oracle with
  | nil =>
    simp only [List.nil_append, judgeAll, bind, Except.bind, pure, Except.pure]
    cases rule.judgeAll program store second oracle <;> rfl
  | cons exported rest ih =>
    simp only [List.cons_append, judgeAll, ih, bind, Except.bind, pure, Except.pure]
    cases rule.judge program store exported oracle with
    | error fault => rfl
    | ok judged =>
      cases rested : rule.judgeAll program store rest judged.2 with
      | error fault => simp [rested]
      | ok result =>
        cases last : rule.judgeAll program store second result.2 <;> simp [rested, last]

private theorem checkExports_eq (file : SourceFile) (exports : List (Statement × String × NodeId)) (oracle : σ) :
    rule.checkExports program store file exports oracle =
      collect (rule.judgeAll program store
        (exports.map fun (statement, name, node) => { file, statement, name, node }) oracle) := by
  induction exports generalizing oracle with
  | nil => rfl
  | cons exported rest ih =>
    obtain ⟨statement, name, node⟩ := exported
    simp only [checkExports, List.map_cons, judgeAll, judge, ih, collect, bind, Except.bind]
    cases rule.checkExport program store file statement name node oracle with
    | error fault => rfl
    | ok judged =>
      obtain ⟨outcome, oracle⟩ := judged
      dsimp only
      generalize rule.judgeAll program store _ oracle = rested
      cases rested with
      | error fault => rfl
      | ok result => cases outcome <;> rfl

/-- A run over a file reports what judging its exports one after the other comes to. -/
theorem checkFile_eq (file : SourceFile) : rule.checkFile program store file oracle =
    collect (rule.judgeAll program store (CheckedExport.ofFile file) oracle) :=
  checkExports_eq file file.checkedExports oracle

/-- A run over a program reports what judging its exports one after the other comes to. -/
theorem checkProgram_eq : rule.checkProgram program store oracle =
    collect (rule.judgeAll program store program.checkedExports oracle) := by
  unfold checkProgram Program.checkedExports
  induction program.files generalizing oracle with
  | nil => rfl
  | cons file rest ih =>
    simp only [checkFiles, checkFile, checkExports_eq, ih, List.flatMap_cons, judgeAll_append, collect, bind,
      Except.bind, pure, Except.pure]
    generalize rule.judgeAll program store _ oracle = first
    cases first with
    | error fault => rfl
    | ok result =>
      dsimp only [Except.map]
      generalize rule.judgeAll program store _ result.2 = second
      cases second with
      | error fault => rfl
      | ok others =>
        simp only [List.reduceOption_append]
        rfl

/-! ### The outcome for one export -/

/-- How an export is judged: with which outcome, and with which oracle after it. -/
inductive Judges (rule : Rule) (program : Program) (store : Interner) (exported : CheckedExport) :
    σ → Option Diagnostic → σ → Prop
  /-- The options name no type for the export. -/
  | unconfigured {oracle : σ} (free : rule.typeMap.expectedType? exported.name = none) :
    Judges rule program store exported oracle none oracle
  /-- The program declares no such type. -/
  | undeclared {oracle : σ} {typeName : String} {diagnostic : Diagnostic}
    (configured : rule.typeMap.expectedType? exported.name = some typeName)
    (unknown : program.resolve? store oracle typeName = none)
    (reported : exported.file.report exported.statement.node .unresolvedType
      { exportName := some exported.name, typeName } = .ok diagnostic) :
    Judges rule program store exported oracle (some diagnostic) oracle
  /-- The export could not be typed. -/
  | untyped {oracle : σ} {typeName : String} {expected : Resolution} {aliased : Option String}
    {diagnostic : Diagnostic} (configured : rule.typeMap.expectedType? exported.name = some typeName)
    (known : program.resolve? store oracle typeName = some expected)
    (failed : TypeOracle.isError oracle (TypeOracle.typeAt oracle exported.node) = .ok true)
    (named : TypeOracle.aliasName oracle (TypeOracle.typeAt oracle exported.node) = .ok aliased)
    (reported : exported.file.report exported.statement.node .unresolvedType
      { exportName := some exported.name, typeName := aliased.getD errorTypeName } = .ok diagnostic) :
    Judges rule program store exported oracle (some diagnostic) oracle
  | fitting {before after : σ} {typeName : String} {expected : Resolution}
    (configured : rule.typeMap.expectedType? exported.name = some typeName)
    (known : program.resolve? store before typeName = some expected)
    (typed : TypeOracle.isError before (TypeOracle.typeAt before exported.node) = .ok false)
    (fits : TypeOracle.fits before (TypeOracle.typeAt before exported.node) expected.type = .ok (true, after)) :
    Judges rule program store exported before none after
  | unfitting {before after : σ} {typeName : String} {expected : Resolution} {diagnostic : Diagnostic}
    (configured : rule.typeMap.expectedType? exported.name = some typeName)
    (known : program.resolve? store before typeName = some expected)
    (typed : TypeOracle.isError before (TypeOracle.typeAt before exported.node) = .ok false)
    (unfit : TypeOracle.fits before (TypeOracle.typeAt before exported.node) expected.type = .ok (false, after))
    (reported : exported.file.report exported.statement.node .invalidExportType
      { exportName := some exported.name, typeName } = .ok diagnostic) :
    Judges rule program store exported before (some diagnostic) after

private theorem judges_of_judge (judged : rule.judge program store exported before = .ok (outcome, after)) :
    rule.Judges program store exported before outcome after := by
  unfold judge checkExport at judged
  match configured : rule.typeMap.expectedType? exported.name with
  | none =>
    simp only [configured, pure, Except.pure, Except.ok.injEq, Prod.mk.injEq] at judged
    obtain ⟨rfl, rfl⟩ := judged
    exact .unconfigured configured
  | some typeName =>
    match known : program.resolve? store before typeName with
    | none =>
      match reported : exported.file.report exported.statement.node .unresolvedType
          { exportName := some exported.name, typeName } with
      | .error fault => simp [configured, known, reported, bind, Except.bind, Functor.map, Except.map] at judged
      | .ok diagnostic =>
        simp only [configured, known, reported, bind, Except.bind, Functor.map, Except.map, pure, Except.pure,
          Except.ok.injEq, Prod.mk.injEq] at judged
        obtain ⟨rfl, rfl⟩ := judged
        exact .undeclared configured known reported
    | some expected =>
      simp only [configured, known, bind, Except.bind] at judged
      match failed : TypeOracle.isError before (TypeOracle.typeAt before exported.node) with
      | .error fault => simp [failed] at judged
      | .ok true =>
        match named : TypeOracle.aliasName before (TypeOracle.typeAt before exported.node) with
        | .error fault => simp [failed, named] at judged
        | .ok aliased =>
          match reported : exported.file.report exported.statement.node .unresolvedType
              { exportName := some exported.name, typeName := aliased.getD errorTypeName } with
          | .error fault => simp [failed, named, reported, Functor.map, Except.map] at judged
          | .ok diagnostic =>
            simp only [failed, named, reported, Functor.map, Except.map, pure, Except.pure, if_true,
              Except.ok.injEq, Prod.mk.injEq] at judged
            obtain ⟨rfl, rfl⟩ := judged
            exact .untyped configured known failed named reported
      | .ok false =>
        match fits : TypeOracle.fits before (TypeOracle.typeAt before exported.node) expected.type with
        | .error fault => simp [failed, fits] at judged
        | .ok (true, after') =>
          simp only [failed, fits, pure, Except.pure, if_true, Bool.false_eq_true, if_false, Except.ok.injEq,
            Prod.mk.injEq] at judged
          obtain ⟨rfl, rfl⟩ := judged
          exact .fitting configured known failed fits
        | .ok (false, after') =>
          match reported : exported.file.report exported.statement.node .invalidExportType
              { exportName := some exported.name, typeName } with
          | .error fault => simp [failed, fits, reported, Functor.map, Except.map] at judged
          | .ok diagnostic =>
            simp only [failed, fits, reported, Functor.map, Except.map, pure, Except.pure, Bool.false_eq_true,
              if_false, Except.ok.injEq, Prod.mk.injEq] at judged
            obtain ⟨rfl, rfl⟩ := judged
            exact .unfitting configured known failed fits reported

theorem judge_eq_ok_iff : rule.judge program store exported before = .ok (outcome, after) ↔
    rule.Judges program store exported before outcome after := by
  constructor
  · exact judges_of_judge
  · intro judges
    unfold judge checkExport
    cases judges with
    | unconfigured free => simp [free, pure, Except.pure]
    | undeclared configured unknown reported =>
      simp [configured, unknown, reported, pure, Except.pure, bind, Except.bind, Functor.map, Except.map]
    | untyped configured known failed named reported =>
      simp [configured, known, failed, named, reported, pure, Except.pure, bind, Except.bind, Functor.map,
        Except.map]
    | fitting configured known typed fits =>
      simp [configured, known, typed, fits, pure, Except.pure, bind, Except.bind]
    | unfitting configured known typed unfit reported =>
      simp [configured, known, typed, unfit, reported, pure, Except.pure, bind, Except.bind, Functor.map,
        Except.map]

/-! ### The outcomes of a run -/

variable {exports : List CheckedExport} {outcomes : List (Option Diagnostic)} {keeps : σ → Prop}

theorem judgeAll_cons_eq_ok_iff : rule.judgeAll program store (exported :: exports) before = .ok (outcomes, after) ↔
    ∃ outcome middle others, rule.judge program store exported before = .ok (outcome, middle) ∧
      rule.judgeAll program store exports middle = .ok (others, after) ∧ outcomes = outcome :: others := by
  constructor
  · intro run
    simp only [judgeAll, bind, Except.bind] at run
    match judged : rule.judge program store exported before with
    | .error fault => simp [judged] at run
    | .ok (outcome, middle) =>
      match rested : rule.judgeAll program store exports middle with
      | .error fault => simp [judged, rested] at run
      | .ok (others, last) =>
        simp only [judged, rested, pure, Except.pure, Except.ok.injEq, Prod.mk.injEq] at run
        obtain ⟨rfl, rfl⟩ := run
        exact ⟨outcome, middle, others, rfl, rested, rfl⟩
  · rintro ⟨outcome, middle, others, judged, rested, rfl⟩
    simp [judgeAll, judged, rested, bind, Except.bind, pure, Except.pure]

/-- A run has the outcomes that its exports have, if these do not depend on what earlier exports do
to the oracle. -/
theorem judgeAll_eq_ok (each : List.Forall₂ (fun exported outcome => ∀ before, keeps before →
      ∃ after, rule.judge program store exported before = .ok (outcome, after) ∧ keeps after) exports outcomes)
    (start : keeps oracle) :
    ∃ after, rule.judgeAll program store exports oracle = .ok (outcomes, after) ∧ keeps after := by
  induction each generalizing oracle with
  | nil => exact ⟨oracle, rfl, start⟩
  | cons first _ ih =>
    obtain ⟨middle, judged, kept⟩ := first oracle start
    obtain ⟨after, rest, keptAfter⟩ := ih kept
    exact ⟨after, judgeAll_cons_eq_ok_iff.mpr ⟨_, middle, _, judged, rest, rfl⟩, keptAfter⟩

/-- A run comes to an end where each of its exports can be judged. -/
theorem exists_judgeAll (each : ∀ exported ∈ exports, ∀ before, keeps before →
      ∃ outcome after, rule.judge program store exported before = .ok (outcome, after) ∧ keeps after)
    (start : keeps oracle) : ∃ outcomes after, rule.judgeAll program store exports oracle = .ok (outcomes, after) := by
  induction exports generalizing oracle with
  | nil => exact ⟨[], oracle, rfl⟩
  | cons exported rest ih =>
    obtain ⟨outcome, middle, judged, kept⟩ := each exported List.mem_cons_self oracle start
    obtain ⟨others, after, rested⟩ := ih (fun other mem => each other (List.mem_cons_of_mem _ mem)) kept
    exact ⟨_, after, judgeAll_cons_eq_ok_iff.mpr ⟨outcome, middle, others, judged, rested, rfl⟩⟩

/-- Each outcome of a run is come to from an oracle that earlier exports have left. -/
theorem forall₂_of_judgeAll
    (step : ∀ exported before outcome after, keeps before →
      rule.judge program store exported before = .ok (outcome, after) → keeps after)
    (start : keeps before) (run : rule.judgeAll program store exports before = .ok (outcomes, after)) :
    List.Forall₂ (fun exported outcome => ∃ middle next, keeps middle ∧
      rule.judge program store exported middle = .ok (outcome, next)) exports outcomes := by
  induction exports generalizing before outcomes with
  | nil =>
    cases run
    exact .nil
  | cons exported rest ih =>
    obtain ⟨outcome, middle, others, judged, rested, rfl⟩ := judgeAll_cons_eq_ok_iff.mp run
    exact .cons ⟨before, middle, start, judged⟩ (ih (step exported before outcome middle start judged) rested)

/-- Each outcome of a run is what some export was judged with. -/
theorem exists_judge_of_mem (run : rule.judgeAll program store exports before = .ok (outcomes, after))
    (mem : outcome ∈ outcomes) :
    ∃ exported ∈ exports, ∃ middle next : σ, rule.judge program store exported middle = .ok (outcome, next) := by
  induction exports generalizing before outcomes with
  | nil =>
    cases run
    cases mem
  | cons exported rest ih =>
    obtain ⟨first, middle, others, judged, rested, rfl⟩ := judgeAll_cons_eq_ok_iff.mp run
    rcases List.mem_cons.mp mem with rfl | later
    · exact ⟨exported, List.mem_cons_self, before, middle, judged⟩
    · obtain ⟨other, listed, judged⟩ := ih rested later
      exact ⟨other, List.mem_cons_of_mem _ listed, judged⟩

/-- Where related oracles judge each export with outcomes that match, and stay related, whole runs have
outcomes that match. -/
theorem judgeAll_simulates {τ : Type} [TypeOracle τ] (related : σ → τ → Prop)
    (agrees : Option Diagnostic → Option Diagnostic → Prop) {other : τ}
    (step : ∀ exported (first : σ) (second : τ) outcome next, related first second →
      rule.judge program store exported first = .ok (outcome, next) → ∃ outcome' next',
        rule.judge program store exported second = .ok (outcome', next') ∧ agrees outcome outcome' ∧ related next next')
    (start : related before other) (run : rule.judgeAll program store exports before = .ok (outcomes, after)) :
    ∃ outcomes' after', rule.judgeAll program store exports other = .ok (outcomes', after') ∧
      List.Forall₂ agrees outcomes outcomes' ∧ related after after' := by
  induction exports generalizing before other outcomes with
  | nil =>
    cases run
    exact ⟨[], other, rfl, .nil, start⟩
  | cons exported rest ih =>
    obtain ⟨outcome, middle, others, judged, rested, rfl⟩ := judgeAll_cons_eq_ok_iff.mp run
    obtain ⟨outcome', middle', judged', agree, related'⟩ := step exported before other outcome middle start judged
    obtain ⟨others', after', rested', agreeing, last⟩ := ih related' rested
    exact ⟨outcome' :: others', after',
      judgeAll_cons_eq_ok_iff.mpr ⟨outcome', middle', others', judged', rested', rfl⟩, .cons agree agreeing, last⟩

end Rule

/-- A name that resolves for one checker resolves for another one, to a type that is related to the first
one's as the types of every node are. -/
theorem Program.exists_resolve? {program : Program} {names : Interner} {first second : Checker}
    (rel : TypeId → TypeId → Prop) (refl : ∀ id, rel id id)
    (nodes : ∀ node, rel (first.typeOf node) (second.typeOf node))
    {typeName : String} {expected : Resolution} (known : program.resolve? names first typeName = some expected) :
    ∃ expected', program.resolve? names second typeName = some expected' ∧ rel expected.type expected'.type := by
  unfold resolve? at known ⊢
  cases kind : Primitive.ofKeyword? typeName with
  | some kind =>
    simp only [kind] at known
    cases known
    exact ⟨_, rfl, refl _⟩
  | none =>
    simp only [kind, Option.map_eq_some_iff] at known ⊢
    obtain ⟨declared, found, rfl⟩ := known
    exact ⟨_, ⟨declared, found, rfl⟩, nodes declared.node⟩

/-- Whether a name resolves does not depend on the checker. -/
theorem Program.resolve?_eq_none {program : Program} {names : Interner} {first : Checker} {typeName : String}
    (unknown : program.resolve? names first typeName = none) (second : Checker) :
    program.resolve? names second typeName = none := by
  cases known : program.resolve? names second typeName with
  | none => rfl
  | some expected =>
    have everything : ∀ node, (fun _ _ => True) (second.typeOf node) (first.typeOf node) := fun _ => trivial
    obtain ⟨_, known', _⟩ := exists_resolve? (fun _ _ => True) (fun _ => trivial) everything known
    cases unknown.symm.trans known'

namespace Checker

open Relation (ReflTransGen)

variable {checker : Checker}

/-- Judging an export asks at most one question. -/
theorem asked_of_judge {rule : Rule} {program : Program} {store : Interner} (exported : CheckedExport)
    (before : Checker) (outcome : Option Diagnostic) (after : Checker) (history : ReflTransGen Asked checker before)
    (judged : rule.judge program store exported before = .ok (outcome, after)) :
    ReflTransGen Asked checker after := by
  cases Rule.judge_eq_ok_iff.mp judged with
  | unconfigured => exact history
  | undeclared => exact history
  | untyped => exact history
  | fitting _ _ _ fits => exact history.tail ⟨_, _, _, fits⟩
  | unfitting _ _ _ unfit => exact history.tail ⟨_, _, _, unfit⟩

/-! ### One checker in place of another -/

/-- Whether a checker can take the place of another one when exports are judged: the types that the two give to a
node are related, related types are errors for both or for none, and where the first one answers a question with
yes, so does the second one for related types. -/
structure Replaces (rel : TypeId → TypeId → Prop) (first second : Checker) : Prop where
  refl : ∀ id, rel id id
  nodes : ∀ node, rel (first.typeOf node) (second.typeOf node)
  error : ∀ {id other failed}, rel id other → TypeOracle.isError first id = .ok failed →
    TypeOracle.isError second other = .ok failed
  named : ∀ {id other name}, rel id other → TypeOracle.aliasName first id = .ok name →
    ∃ name', TypeOracle.aliasName second other = .ok name'
  answers : ∀ {source source' target target' answer}, rel source source' → rel target target' →
    first.answerTo source target = .ok answer →
      ∃ answer', second.answerTo source' target' = .ok answer' ∧ (answer = true → answer' = true)

/-- An export that passes with a checker passes with every checker that replaces it. Where it is reported by the
second one it is reported by the first one, in the same words if its type has the same name for both. -/
theorem Replaces.judge {rel : TypeId → TypeId → Prop} {first second after : Checker}
    (replaces : Replaces rel first second) {rule : Rule} {program : Program} {names : Interner}
    {exported : CheckedExport} {outcome : Option Diagnostic}
    (judged : rule.judge program names exported first = .ok (outcome, after)) : ∃ outcome' after',
      rule.judge program names exported second = .ok (outcome', after') ∧ (outcome = none → outcome' = none) ∧
      ∀ reported', outcome' = some reported' → ∃ reported, outcome = some reported ∧
        (TypeOracle.aliasName second (second.typeOf exported.node) =
            TypeOracle.aliasName first (first.typeOf exported.node) → reported' = reported) := by
  have location := replaces.nodes exported.node
  have resolves {typeName : String} {expected : Resolution}
      (known : program.resolve? names first typeName = some expected) :=
    Program.exists_resolve? rel replaces.refl replaces.nodes known
  have passes {after' : Checker} (judges : rule.Judges program names exported second none after') :=
    Rule.judge_eq_ok_iff.mpr judges
  cases Rule.judge_eq_ok_iff.mp judged with
  | unconfigured free => exact ⟨none, second, passes (.unconfigured free), fun _ => rfl, by simp⟩
  | undeclared configured unknown reported =>
    have unknown' := Program.resolve?_eq_none unknown second
    exact ⟨_, second, Rule.judge_eq_ok_iff.mpr (.undeclared configured unknown' reported), by simp, by simp⟩
  | untyped configured known failed named reported =>
    obtain ⟨_, known', _⟩ := resolves known
    obtain ⟨name', named'⟩ := replaces.named location named
    have failed' := replaces.error location failed
    -- the report may show another name for what could not be typed
    obtain ⟨raised, reported'⟩ := SourceFile.exists_report reported
    refine ⟨_, second, Rule.judge_eq_ok_iff.mpr (.untyped configured known' failed' named' reported'), by simp, ?_⟩
    rintro _ ⟨⟩
    refine ⟨_, rfl, fun same => ?_⟩
    cases named'.symm.trans (same.trans named)
    cases reported'.symm.trans reported
    rfl
  | fitting configured known typed yes =>
    obtain ⟨_, known', types⟩ := resolves known
    obtain ⟨answer, answered, granted⟩ := replaces.answers location types (answerTo_eq_ok_iff.mpr ⟨_, yes⟩)
    cases granted rfl
    obtain ⟨after', yes'⟩ := answerTo_eq_ok_iff.mp answered
    have typed' := replaces.error location typed
    exact ⟨none, after', passes (.fitting configured known' typed' yes'), fun _ => rfl, by simp⟩
  | unfitting configured known typed no reported =>
    obtain ⟨_, known', types⟩ := resolves known
    have typed' := replaces.error location typed
    obtain ⟨answer, answered, _⟩ := replaces.answers location types (answerTo_eq_ok_iff.mpr ⟨_, no⟩)
    obtain ⟨after', fits⟩ := answerTo_eq_ok_iff.mp answered
    cases answer with
    | true => exact ⟨none, after', passes (.fitting configured known' typed' fits), fun _ => rfl, by simp⟩
    | false =>
      exact ⟨_, after', Rule.judge_eq_ok_iff.mpr (.unfitting configured known' typed' fits reported), by simp, by simp⟩

end Checker

end ExportLint
