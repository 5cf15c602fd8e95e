import ExportLint.Proofs.Judgement
import ExportLint.Proofs.Lines
import ExportLint.Proofs.Namespaces
import ExportLint.Proofs.PlainRecursion

/-!
# The rule as a specification

Which diagnostics a run of the rule has to report, said of the calls that built the files and of the ids that these
calls returned: without trees, without symbols, without remembered answers and without a state that one export leaves
to the next. For a program whose files come from one builder, and a checker whose types were built from earlier
types, a run reports exactly these, whatever the checker has been asked before.
-/

namespace ExportLint

/-- A named export as the calls on its file say: where the text of its declaration begins, its name, and the id that
was returned for it. -/
structure LoggedExport where
  log : FileLog
  start : Nat
  declaration : Declaration
  name : String
  node : NodeId

namespace LoggedExport

/-- The stretch of text of the declaration. -/
def span (exported : LoggedExport) : Span :=
  ⟨.ofNat exported.start, .ofNat exported.declaration.text.utf8ByteSize⟩

/-- The line and the column at which the declaration starts. -/
def location (exported : LoggedExport) : Location :=
  ⟨.ofNat (feedsBefore exported.log.text exported.start + 1),
    .ofNat (bytesSinceFeed exported.log.text exported.start + 1)⟩

end LoggedExport

/-- The plainly named things that a call asked for, each with the id that the call returned for it: the call for a
variable statement returns one id for each declarator. -/
def CallRecord.bindings (record : CallRecord) : List (String × NodeId) :=
  -- a thing that no id was returned for is not passed over, but has an id that no node has
  record.declaration.boundNames.zipIdx.filterMap fun (name, place) =>
    name.map (·, record.returned.getD place .invalid)

namespace FileLog

/-- The plainly named things that exported declarations bind, in order. -/
def exports (log : FileLog) : List LoggedExport :=
  ((CallRecord.placed 0 log.calls).filter (·.2.isNamedExport)).flatMap fun (start, record) =>
    record.bindings.map fun (name, node) => { log, start, declaration := record.declaration, name, node }

/-- The aliases and interfaces at top level, in order, with the ids that their calls returned. -/
def declaredTypes (log : FileLog) : List (String × NodeId) :=
  log.typeCalls.map fun (_, name, _, returned) => (name, returned.headD .invalid)

end FileLog

/-- What the checks know: the options, the types of the table and of the nodes, and the types that
the calls declared. -/
structure Setting where
  typeMap : TypeMap
  table : TypeTable
  strict : Bool
  typeOf : NodeId → TypeId
  declared : List (String × NodeId)

namespace Setting

/-- The type name for an export: the first one that is not empty among its own and that for `*`. -/
def wantedName? (setting : Setting) (exportName : String) : Option String :=
  ([exportName, "*"].filterMap (setting.typeMap.entries.lookup ·)).find? fun typeName => !typeName.isEmpty

/-- The type of a keyword, or else of the first declaration of that name. -/
def typeOfName? (setting : Setting) (typeName : String) : Option TypeId :=
  if typeName = "number" then some .number
  else if typeName = "string" then some .string
  else if typeName = "boolean" then some .boolean
  else (setting.declared.lookup typeName).map setting.typeOf

/-- The name to show for a type that stands for what could not be typed. -/
def errorName? (setting : Setting) (type : TypeId) : Option String := do
  let entry ← setting.table.find? type
  if entry.isError then some (entry.aliasName.getD "<error>") else none

/-- What is wrong with an export, if anything: the message, and the type name in it. -/
noncomputable def objection? (setting : Setting) (exportName : String) (node : NodeId) : Option (Message × String) := do
  let typeName ← setting.wantedName? exportName
  match setting.typeOfName? typeName with
  | none => some (.unresolvedType, typeName)
  | some wanted =>
    match setting.errorName? (setting.typeOf node) with
    | some shown => some (.unresolvedType, shown)
    | none =>
      if (setting.table.evaluate setting.strict (.fits (setting.typeOf node) wanted)).run = some (.ok true) then none
      else some (.invalidExportType, typeName)

/-- The diagnostic for an export, if there is one, at the place of its declaration. -/
noncomputable def diagnostic? (setting : Setting) (exported : LoggedExport) : Option Diagnostic :=
  (setting.objection? exported.name exported.node).map fun (message, typeName) =>
    .raise message { exportName := some exported.name, typeName } exported.log.name exported.span exported.location

end Setting

/-- The setting of a rule, a checker and the calls on files. The answers that the checker remembers are no part
of it. -/
def Rule.setting (rule : Rule) (checker : Checker) (logs : List FileLog) : Setting where
  typeMap := rule.typeMap
  table := checker.table
  strict := checker.strict
  typeOf := checker.typeOf
  declared := logs.flatMap FileLog.declaredTypes

/-- The diagnostics for files, in the order of the files and of the exports in them. -/
noncomputable def Rule.specification (rule : Rule) (checker : Checker) (logs : List FileLog) : List Diagnostic :=
  (logs.flatMap FileLog.exports).filterMap (rule.setting checker logs).diagnostic?

/-! ### Exports of calls and of files -/

/-- The entities of a statement have the nodes that were given out for it. -/
theorem Statement.Gives.node_eq {statement : Statement} {declaration : Declaration} {returned : List NodeId}
    (gives : statement.Gives declaration returned) (kind : statement.kind = declaration.kind) {place : Nat}
    {entity : Entity} (found : statement.entities[place]? = some entity) : returned[place]? = some entity.node := by
  cases gives with
  | @declarators node list =>
    rw [Statement.entities, List.getElem?_map, Option.map_eq_some_iff] at found
    obtain ⟨declared, here, rfl⟩ := found
    rw [List.getElem?_map, here, Option.map_some, Entity.ofDeclarator]
    split <;> rfl
  | whole other =>
    rw [← kind] at other
    cases statement with
    | variableDecl node list => exact absurd rfl other
    | function node name | classDecl node name => cases name <;> cases place <;> cases found <;> rfl
    | _ => cases found

/-- Entities that have the plain names and the ids of a list are checked under these names with these ids. -/
theorem Entity.checked_eq {names : List (Option String)} {entities : List Entity} (idAt : Nat → NodeId)
    (named : List.Forall₂ (fun name entity => entity.checked? = name.map (·, entity.node)) names entities)
    (start : Nat) (nodes : ∀ place entity, entities[place]? = some entity → idAt (start + place) = entity.node) :
    entities.filterMap checked? = (names.zipIdx start).filterMap fun (name, place) => name.map (·, idAt place) := by
  induction named generalizing start with
  | nil => rfl
  | @cons name entity names entities same _ ih =>
    have first : idAt start = entity.node := nodes 0 entity rfl
    have others := ih (start + 1) fun place other found => by
      rw [Nat.add_assoc, Nat.add_comm 1]
      exact nodes (place + 1) other found
    simp only [List.filterMap_cons, List.zipIdx_cons, same, first, others]

/-- The checked entities of a statement are the plain names with the ids that were returned. -/
theorem CallRecord.Made.bindings {record : CallRecord} {statement : Statement} (made : record.Made statement) :
    statement.entities.filterMap Entity.checked? = record.bindings := by
  refine Entity.checked_eq (record.returned.getD · .invalid) made.records.entities 0 fun place entity found => ?_
  rw [Nat.zero_add, List.getD_eq_getElem?_getD, made.gives.node_eq made.records.kind found, Option.getD_some]

/-- Whether an export that calls have asked for is one of a file, at its place in the text. -/
structure LoggedExport.Matches (logged : LoggedExport) (exported : CheckedExport) : Prop where
  file : exported.file.name = logged.log.name
  text : exported.file.text = logged.log.text
  stands : StandsAt exported.file.text logged.start logged.declaration.text
  range : exported.statement.node.range =
    ⟨.ofNat logged.start, .ofNat (logged.start + logged.declaration.text.utf8ByteSize)⟩
  name : exported.name = logged.name
  node : exported.node = logged.node

/-- The exports of a file that are checked are those that its calls asked for. -/
theorem FileLog.Made.exports {log : FileLog} {file : SourceFile} (made : log.Made file) :
    List.Forall₂ LoggedExport.Matches log.exports (CheckedExport.ofFile file) := by
  have named := List.rel_filter (p := (·.2.isNamedExport)) (q := Statement.isNamedExport)
    (fun call statement placed => by simp only [placed.2.made.isNamedExport]) made.standing
  rw [CheckedExport.ofFile, SourceFile.checkedExports, List.map_flatMap]
  refine List.rel_flatMap named fun call statement placed => ?_
  obtain ⟨stands, placed⟩ := placed
  have text : file.text = log.text := by
    rw [made.text, FileLog.text, made.closed, SpaceLog.front, String.empty_append]
  rw [List.map_map, placed.made.bindings, List.forall₂_map_left_iff, List.forall₂_map_right_iff, List.forall₂_same]
  exact fun _ _ => ⟨made.name, text, stands, placed.range, rfl, rfl⟩

namespace Program

variable {program : Program} {names : Interner} {logs : List FileLog}

theorem BuiltBy.exports (built : program.BuiltBy names logs) :
    List.Forall₂ LoggedExport.Matches (logs.flatMap FileLog.exports) program.checkedExports :=
  List.rel_flatMap built.made fun _ _ made => made.exports

private theorem lookup_map {α : Type} (name : String) (key : α → String) (value : α → NodeId) (elements : List α) :
    (elements.map fun element => (key element, value element)).lookup name =
      (elements.find? fun element => key element == name).map value := by
  induction elements with
  | nil => rfl
  | cons first rest ih =>
    rw [List.map_cons, Keyed.lookup_cons, List.find?_cons, ih]
    by_cases same : key first = name
    · simp [same]
    · have other : (key first == name) = false := beq_false_of_ne same
      rw [if_neg (Ne.symm same), other]

theorem BuiltBy.declaration? (built : program.BuiltBy names logs) (name : String) :
    (program.declaration? names name).map (·.node) = (logs.flatMap FileLog.declaredTypes).lookup name := by
  have declared := congrArg (List.map fun (_, name, _, returned) => (name, returned.headD NodeId.invalid))
    built.typeDeclarations
  rw [List.map_map, List.map_flatMap] at declared
  rw [declaration?_eq_find? built.known, ← lookup_map]
  exact congrArg (List.lookup name) declared

end Program

/-! ### Judging an export -/

section
variable {rule : Rule} {checker middle : Checker} {program : Program} {logs : List FileLog}
  {names : Interner} {exported : CheckedExport} {logged : LoggedExport}

theorem Rule.wantedName?_setting (rule : Rule) (exportName : String) :
    (rule.setting checker logs).wantedName? exportName = rule.typeMap.expectedType? exportName := by
  have single (found : Option String) (rest : List String) :
      (found.toList ++ rest).find? (fun typeName => !typeName.isEmpty) =
        (found.filter fun typeName => !typeName.isEmpty).or (rest.find? fun typeName => !typeName.isEmpty) := by
    cases found with
    | none => rfl
    | some typeName => cases empty : typeName.isEmpty <;> simp [empty, Option.filter]
  have both (entries : String → Option String) : [exportName, "*"].filterMap entries =
      (entries exportName).toList ++ ((entries "*").toList ++ []) := by
    cases own : entries exportName <;> cases all : entries "*" <;> simp [own, all]
  unfold Setting.wantedName? Rule.setting
  dsimp only
  rw [both, single, single, List.find?_nil, Option.or_none]
  rfl

theorem Rule.typeOfName?_setting (rule : Rule) (built : program.BuiltBy names logs) (typeName : String) :
    (rule.setting checker logs).typeOfName? typeName =
      (program.resolve? names checker typeName).map Resolution.type := by
  unfold Setting.typeOfName? Program.resolve?
  rw [Primitive.ofKeyword?_eq]
  by_cases number : typeName = "number"
  · rw [if_pos number, if_pos number]
    rfl
  by_cases string : typeName = "string"
  · rw [if_neg number, if_neg number, if_pos string, if_pos string]
    rfl
  by_cases boolean : typeName = "boolean"
  · rw [if_neg number, if_neg number, if_neg string, if_neg string, if_pos boolean, if_pos boolean]
    rfl
  rw [if_neg number, if_neg number, if_neg string, if_neg string, if_neg boolean, if_neg boolean]
  unfold Rule.setting
  dsimp only
  rw [← built.declaration?, Option.map_map, Option.map_map]
  rfl

/-- Whether nodes were bound to types of the table only. -/
def Checker.BindsInside (checker : Checker) : Prop :=
  ∀ (node : NodeId) (type : TypeId), checker.bindings[node]? = some type → type.index < checker.table.size

theorem Checker.initial_bindsInside (strict : Bool) : (Checker.initial strict).BindsInside := by
  intro node type found
  simp [Checker.initial] at found

theorem Checker.BindsInside.bind (bound : checker.BindsInside) (node : NodeId) {type : TypeId}
    (inside : type.index < checker.table.size) : (checker.bind node type).BindsInside := by
  intro other found present
  simp only [Checker.bind, Std.TreeMap.getElem?_insert] at present
  split at present
  · cases present
    exact inside
  · exact bound other found present

theorem Checker.Tabled.exists_typeOf (tabled : checker.Tabled) (bound : checker.BindsInside) (node : NodeId) :
    ∃ entry, checker.table.find? (checker.typeOf node) = some entry := by
  unfold Checker.typeOf
  match found : checker.bindings[node]? with
  | some type => exact TypeTable.exists_find? (bound node type found)
  | none => exact ⟨_, tabled.intrinsic (show TypeTable.initial.find? .error = some _ by rfl)⟩

theorem Checker.Tabled.keywordType_inside (tabled : checker.Tabled) (kind : Primitive) :
    (Checker.keywordType kind).index < checker.table.size := by
  obtain ⟨entry, present⟩ : ∃ entry, TypeTable.initial.find? (Checker.keywordType kind) = some entry := by
    cases kind <;> exact ⟨_, rfl⟩
  exact TypeTable.index_lt_of_find? (tabled.intrinsic present)

/-- What a type name stands for is a type of the table. -/
theorem Checker.Tabled.resolve?_inside (tabled : checker.Tabled) (bound : checker.BindsInside)
    {typeName : String} {expected : Resolution}
    (known : program.resolve? names checker typeName = some expected) :
    expected.type.index < checker.table.size := by
  unfold Program.resolve? at known
  match keyword : Primitive.ofKeyword? typeName with
  | some kind =>
    rw [keyword] at known
    cases known
    exact tabled.keywordType_inside kind
  | none =>
    rw [keyword] at known
    obtain ⟨declared, _, rfl⟩ := Option.map_eq_some_iff.mp known
    obtain ⟨entry, found⟩ := tabled.exists_typeOf bound declared.node
    exact TypeTable.index_lt_of_find? found

/-- The range of what stands in a short text, as a span. -/
theorem StandsAt.span_eq_ok {text piece : String} {start : Nat} (stands : StandsAt text start piece)
    (short : text.utf8ByteSize < 2 ^ 32) : (Range.mk (.ofNat start) (.ofNat (start + piece.utf8ByteSize))).span =
      .ok ⟨.ofNat start, .ofNat piece.utf8ByteSize⟩ := by
  have inside := stands.inside
  refine Span.ofBounds_eq_ok_iff.mpr ⟨rfl, ?_⟩
  rw [Span.stop, Offset.add_eq_ok_iff, UInt32.toNat_ofNat', UInt32.toNat_ofNat', UInt32.toNat_ofNat',
    Nat.mod_eq_of_lt (by omega), Nat.mod_eq_of_lt (by omega), Nat.mod_eq_of_lt (by omega)]

/-- An export is reported without a fault, at the place of its declaration. -/
theorem LoggedExport.Matches.report_eq_ok (matching : logged.Matches exported)
    (short : exported.file.text.utf8ByteSize < 2 ^ 32) (message : Message) (payload : Payload) :
    exported.file.report exported.statement.node message payload =
      .ok (.raise message payload logged.log.name logged.span logged.location) := by
  have inside := matching.stands.inside
  have filled := mt String.utf8ByteSize_eq_zero_iff.mp logged.declaration.text_ne_empty
  have word : (UInt32.ofNat logged.start).toNat = logged.start := by
    rw [UInt32.toNat_ofNat', Nat.mod_eq_of_lt (by omega)]
  have before : (UInt32.ofNat logged.start).toNat < exported.file.text.utf8ByteSize := by
    rw [word]
    omega
  obtain ⟨location, located, line, column⟩ := LineMap.locate_ofText short before
  have same : location = logged.location := by
    rw [word, matching.text] at line column
    rw [LoggedExport.location, ← line, ← column, UInt32.ofNat_toNat, UInt32.ofNat_toNat]
  rw [← same, ← matching.file]
  refine SourceFile.report_eq_ok_iff.mpr ⟨logged.span, location, ?_, located, rfl⟩
  rw [matching.range]
  exact matching.stands.span_eq_ok short

theorem Rule.errorName?_setting (rule : Rule) {type : TypeId} {entry : TypeEntry}
    (found : checker.table.find? type = some entry) : (rule.setting checker logs).errorName? type =
      if entry.isError then some (entry.aliasName.getD "<error>") else none := by
  simp [Setting.errorName?, Rule.setting, found]

/-- In each of the ways to judge an export, the outcome is the objection of the specification. -/
theorem Checker.ReachedOrderly.judges_objection (reached : checker.ReachedOrderly) (bound : checker.BindsInside)
    (built : program.BuiltBy names logs) {diagnostic : Message → Payload → Diagnostic}
    (report : ∀ message payload, exported.file.report exported.statement.node message payload =
      .ok (diagnostic message payload)) :
    ∃ after, rule.Judges program names exported checker
      (((rule.setting checker logs).objection? exported.name exported.node).map fun (message, typeName) =>
        diagnostic message { exportName := some exported.name, typeName }) after := by
  have coherent := reached.reached.coherent
  obtain ⟨entry, found⟩ := coherent.exists_typeOf bound exported.node
  have looked : checker.table.get (checker.typeOf exported.node) = .ok entry := TypeTable.get_eq_ok_iff.mpr found
  have isError : TypeOracle.isError checker (TypeOracle.typeAt checker exported.node) = .ok entry.isError :=
    congrArg (TypeEntry.isError <$> ·) looked
  have aliasName : TypeOracle.aliasName checker (TypeOracle.typeAt checker exported.node) = .ok entry.aliasName :=
    congrArg (TypeEntry.aliasName <$> ·) looked
  have errorName : (rule.setting checker logs).errorName? ((rule.setting checker logs).typeOf exported.node) =
      if entry.isError then some (entry.aliasName.getD "<error>") else none := rule.errorName?_setting found
  unfold Setting.objection?
  rw [rule.wantedName?_setting]
  match configured : rule.typeMap.expectedType? exported.name with
  | none => exact ⟨checker, .unconfigured configured⟩
  | some typeName =>
    have standsFor : (rule.setting checker logs).typeOfName? typeName =
        (program.resolve? names checker typeName).map Resolution.type := rule.typeOfName?_setting built typeName
    match known : program.resolve? names checker typeName with
    | none =>
      rw [known] at standsFor
      refine ⟨checker, ?_⟩
      simp only [Option.bind_eq_bind, Option.bind_some, standsFor, Option.map_none, Option.map_some]
      exact .undeclared configured known (report _ _)
    | some expected =>
      rw [known, Option.map_some] at standsFor
      cases error : entry.isError with
      | true =>
        rw [error] at isError errorName
        refine ⟨checker, ?_⟩
        simp only [Option.bind_eq_bind, Option.bind_some, standsFor, errorName, if_true, Option.map_some]
        exact .untyped configured known isError aliasName (report _ _)
      | false =>
        rw [error] at isError errorName
        have inTable := coherent.resolve?_inside bound known
        obtain ⟨answer, after, fits, value⟩ :=
          reached.fits_eq_ok ⟨TypeTable.index_lt_of_find? found, inTable⟩
        have evaluated : ((rule.setting checker logs).table.evaluate (rule.setting checker logs).strict
            (.fits ((rule.setting checker logs).typeOf exported.node) expected.type)).run = some (.ok answer) :=
          congrArg ExceptT.run value
        refine ⟨after, ?_⟩
        simp only [Option.bind_eq_bind, Option.bind_some, standsFor, errorName, Bool.false_eq_true, if_false,
          evaluated]
        cases answer with
        | true => exact .fitting configured known isError fits
        | false => exact .unfitting configured known isError fits (report _ _)

/-- Judging an export comes to the diagnostic of the specification. -/
theorem Checker.ReachedOrderly.judge_eq_ok (reached : checker.ReachedOrderly) (bound : checker.BindsInside)
    (built : program.BuiltBy names logs) (matching : logged.Matches exported)
    (short : exported.file.text.utf8ByteSize < 2 ^ 32) :
    ∃ after, rule.judge program names exported checker =
      .ok ((rule.setting checker logs).diagnostic? logged, after) := by
  obtain ⟨after, judges⟩ := reached.judges_objection bound built (matching.report_eq_ok short)
  rw [matching.name, matching.node] at judges
  exact ⟨after, Rule.judge_eq_ok_iff.mpr judges⟩

end

/-! ### Runs over programs -/

variable {rule : Rule} {checker : Checker} {program : Program} {logs : List FileLog}

theorem Program.mem_checkedExports {exported : CheckedExport} (mem : exported ∈ program.checkedExports) :
    exported.file ∈ program.files ∧ exported.statement ∈ exported.file.statements := by
  obtain ⟨file, listed, inFile⟩ := List.mem_flatMap.mp mem
  obtain ⟨⟨statement, checked⟩, checkedMem, rfl⟩ := List.mem_map.mp inFile
  obtain ⟨other, named, entity⟩ := List.mem_flatMap.mp checkedMem
  obtain ⟨_, _, same⟩ := List.mem_map.mp entity
  cases same
  exact ⟨listed, List.mem_of_mem_filter named⟩

/-- Questions change nothing that the specification depends on. -/
theorem Rule.setting_of_asked {before : Checker} (rule : Rule) (logs : List FileLog)
    (history : Relation.ReflTransGen Checker.Asked checker before) :
    rule.setting before logs = rule.setting checker logs := by
  rw [Checker.eq_of_asked history]
  rfl

theorem Checker.BindsInside.history {before : Checker} (bound : checker.BindsInside)
    (history : Relation.ReflTransGen Checker.Asked checker before) : before.BindsInside := by
  rw [Checker.eq_of_asked history]
  exact bound

/-- A run of the rule over a program is the specification of the rule: the program is any whose files one builder
has finished, whatever calls have been made and in whichever order, and the checker any whose types were built from
earlier types, at any point of its history. -/
theorem Rule.checkProgram_eq_specification {names : Interner} (rule : Rule) (built : program.BuiltBy names logs)
    (short : ∀ file ∈ program.files, file.text.utf8ByteSize < 2 ^ 32) (reached : checker.ReachedOrderly)
    (bound : checker.BindsInside) :
    ∃ after, rule.checkProgram program names checker = .ok (⟨rule.specification checker logs⟩, after) := by
  let setting := rule.setting checker logs
  have each : List.Forall₂ (fun exported outcome => ∀ before, Relation.ReflTransGen Checker.Asked checker before →
      ∃ after, rule.judge program names exported before = .ok (outcome, after) ∧
        Relation.ReflTransGen Checker.Asked checker after)
      program.checkedExports ((logs.flatMap FileLog.exports).map setting.diagnostic?) := by
    have listed := (List.forall₂_and_left _ _).mpr ⟨fun exported mem => mem, built.exports.flip⟩
    refine List.forall₂_map_right_iff.mpr (listed.imp fun exported logged ⟨mem, matching⟩ before history => ?_)
    obtain ⟨inProgram, _⟩ := Program.mem_checkedExports mem
    obtain ⟨after, judged⟩ :=
      (reached.history history).judge_eq_ok (bound.history history) built matching (short _ inProgram)
    rw [rule.setting_of_asked logs history] at judged
    exact ⟨after, judged, Checker.asked_of_judge exported before _ after history judged⟩
  obtain ⟨after, run, _⟩ := Rule.judgeAll_eq_ok each .refl
  have collected : ((logs.flatMap FileLog.exports).map setting.diagnostic?).reduceOption =
      rule.specification checker logs := by
    rw [Rule.specification, List.reduceOption, List.filterMap_map]
    rfl
  refine ⟨after, ?_⟩
  rw [Rule.checkProgram_eq, run, ← collected]
  rfl

/-- A constant of another type than it has to be of, after a pattern that is not checked. -/
theorem Rule.checkProgram_eq_specification_sole :
    let expected : Declaration := .typeAlias ModifierFlags.exported "ID" "number"
    let constants : Declaration := .variableDecl ModifierFlags.exported NodeFlags.constList
      [{ binding := .array ["first"] }, { binding := .name "id" }]
    let log : FileLog := { name := "mod.ts", calls := [.declared expected [⟨0⟩], .declared constants [⟨4⟩, ⟨8⟩]] }
    let checker := (((Checker.initial false).withStrict true).bind ⟨0⟩ .number).bind ⟨8⟩ .string
    let rule : Rule := { typeMap := .ofList [("*", "ID")] }
    let reported : Diagnostic :=
      .raise .invalidExportType { exportName := some "id", typeName := "ID" } "mod.ts" ⟨25, 25⟩ ⟨2, 1⟩
    ∃ program names after, Program.BuiltBy program names [log] ∧
      rule.checkProgram program names checker = .ok (⟨[reported]⟩, after) ∧
      rule.specification checker [log] = [reported] := by
  intro expected constants log checker rule reported
  have logged := Workspace.logged_sole "mod.ts" [expected, constants] (by decide)
  have returned : (Workspace.layout [expected, constants]).1.map (fun statement => statement.handles.map Node.id) =
      [[⟨0⟩], [⟨4⟩, ⟨8⟩]] := by decide +kernel
  rw [returned] at logged
  have built : Program.BuiltBy _ _ [log] :=
    ⟨_, _, _, 0, 0, _, logged, rfl, rfl, rfl, .cons ⟨0, rfl, rfl, rfl⟩ .nil⟩
  let setting := rule.setting checker [log]
  have objected : setting.objection? "id" ⟨8⟩ = some (.invalidExportType, "ID") := by
    have wanted : setting.wantedName? "id" = some "ID" := by decide
    have number : setting.typeOfName? "ID" = some .number := by decide
    have string : setting.typeOf ⟨8⟩ = .string := by decide
    have typed : setting.errorName? .string = none := by decide
    have fails : (setting.table.evaluate setting.strict (.fits .string .number)).run = some (.ok false) :=
      TypeTable.evaluate_eq_some_iff.mpr ⟨1, by decide +kernel⟩
    simp [Setting.objection?, wanted, number, string, typed, fails]
  have same : rule.specification checker [log] = [reported] := by
    let exported : LoggedExport :=
      { log, start := 0 + expected.text.utf8ByteSize + 1, declaration := constants, name := "id", node := ⟨8⟩ }
    have marked : ∀ call ∈ CallRecord.placed 0 log.calls, call.2.isNamedExport = true := by decide +kernel
    have listed : log.exports = [exported] := by
      rw [FileLog.exports, List.filter_eq_self.mpr marked]
      rfl
    have span : exported.span = ⟨25, 25⟩ := by decide +kernel
    have location : exported.location = ⟨2, 1⟩ := by decide +kernel
    have diagnosed : setting.diagnostic? exported = some reported := by
      rw [Setting.diagnostic?, objected, span, location]
      rfl
    rw [Rule.specification, List.flatMap_singleton, listed, List.filterMap_cons_some diagnosed, List.filterMap_nil]
  have short : ∀ file ∈ [Workspace.soleFile "mod.ts" [expected, constants]], file.text.utf8ByteSize < 2 ^ 32 := by
    intro file mem
    rw [List.mem_singleton.mp mem]
    decide +kernel
  have chosen : ((Checker.initial false).withStrict true).ReachedOrderly := .single (.chosen true rfl)
  have reached : checker.ReachedOrderly := (chosen.tail (.bound _ ⟨0⟩ .number)).tail (.bound _ ⟨8⟩ .string)
  have bound : checker.BindsInside :=
    ((Checker.initial_bindsInside false).bind ⟨0⟩ (by decide)).bind ⟨8⟩ (by decide)
  obtain ⟨after, run⟩ := rule.checkProgram_eq_specification built short reached bound
  rw [same] at run
  exact ⟨_, _, after, built, run, same⟩

end ExportLint
