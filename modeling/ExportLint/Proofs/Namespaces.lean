import ExportLint.Proofs.CallLog
import ExportLint.Proofs.NameSearch

/-!
# What namespaces keep to themselves

A program made by a builder from its own files declares the types, and exports the statements, that calls outside of
all namespaces asked for: in the order of the files and of the calls, each of them once. What is asked for in a
namespace is in the statements of that namespace and nowhere else. So no call in a namespace has any influence on
which names resolve, or on which exports are checked.
-/

namespace ExportLint

/-! ### Calls at top level -/

/-- The entities that can be checked are those with plain names. -/
theorem Entity.names_of_checked {names : List (Option String)} {entities : List Entity}
    (related : List.Forall₂ (fun name entity => entity.checked? = name.map (·, entity.node)) names entities) :
    (entities.filterMap checked?).map Prod.fst = names.filterMap id := by
  induction related with
  | nil => rfl
  | @cons name entity names entities same _ ih =>
    rw [List.filterMap_cons, List.filterMap_cons, same]
    cases name with
    | none => exact ih
    | some name => exact congrArg (name :: ·) ih

namespace CallRecord

/-- Whether the call asks for `export` without `default`. -/
def isNamedExport (record : CallRecord) : Bool :=
  record.declaration.isNamedExport

/-- The name and the kind of an alias or an interface that the call asks for, with what the call returned. -/
def declaredType? (record : CallRecord) : Option (String × NodeKind × List NodeId) :=
  record.declaration.typeName?.map fun name => (name, record.declaration.kind, record.returned)

/-- The names to check of what the call asks for. -/
def boundNames (record : CallRecord) : List String :=
  record.declaration.boundNames.filterMap id

/-- The call without what it returned and without the calls in it. -/
def outside : CallRecord → CallRecord
  | declared declaration _ => declared declaration []
  | space modifiers name _ _ => space modifiers name [] []

variable {record : CallRecord} {statement : Statement}

theorem isNamedExport_outside (record : CallRecord) : record.outside.isNamedExport = record.isNamedExport := by
  cases record <;> rfl

theorem declaredType?_outside (record : CallRecord) :
    record.outside.declaredType?.map (·.1) = record.declaredType?.map (·.1) := by
  cases record with
  | declared declaration returned =>
    rw [declaredType?, declaredType?, Option.map_map, Option.map_map]
    rfl
  | space modifiers name returned inside => rfl

theorem boundNames_outside (record : CallRecord) : record.outside.boundNames = record.boundNames := by
  cases record <;> rfl

theorem Made.isNamedExport (made : record.Made statement) : statement.isNamedExport = record.isNamedExport := by
  rw [Statement.isNamedExport, made.records.modifiers]
  rfl

theorem Made.declaredType? (made : record.Made statement) :
    (statement.typeName?.map fun name => (name.name, statement.kind, [statement.id])) = record.declaredType? := by
  rw [CallRecord.declaredType?, ← made.records.typeName, ← made.records.kind, Option.map_map]
  match named : statement.typeName? with
  | none => rfl
  | some name =>
    rw [made.gives.eq_of_typeName? named]
    rfl

theorem Made.checked (made : record.Made statement) :
    (statement.entities.filterMap Entity.checked?).map Prod.fst = record.boundNames :=
  Entity.names_of_checked made.records.entities

end CallRecord

namespace FileLog

/-- The calls for aliases and interfaces outside of all namespaces, with the name of the file. -/
def typeCalls (log : FileLog) : List (String × String × NodeKind × List NodeId) :=
  log.calls.filterMap fun record => record.declaredType?.map (log.name, ·)

/-- The names to check of what is exported under its own name outside of all namespaces. -/
def checkedNames (log : FileLog) : List String :=
  (log.calls.filter CallRecord.isNamedExport).flatMap CallRecord.boundNames

/-- The calls outside of all namespaces only. -/
def outside (log : FileLog) : FileLog where
  name := log.name
  calls := log.calls.map CallRecord.outside

/-- The names of the aliases and interfaces outside of all namespaces. -/
def typeNames (log : FileLog) : List String :=
  log.typeCalls.map fun (_, name, _, _) => name

theorem typeNames_eq (log : FileLog) :
    log.typeNames = log.calls.filterMap fun record => record.declaredType?.map (·.1) := by
  rw [typeNames, typeCalls, List.map_filterMap]
  simp only [Option.map_map]
  rfl

theorem typeNames_outside (log : FileLog) : log.outside.typeNames = log.typeNames := by
  rw [typeNames_eq, typeNames_eq, outside, List.filterMap_map]
  exact List.filterMap_congr fun record _ => record.declaredType?_outside

theorem checkedNames_outside (log : FileLog) : log.outside.checkedNames = log.checkedNames := by
  have exported : CallRecord.isNamedExport ∘ CallRecord.outside = CallRecord.isNamedExport :=
    funext CallRecord.isNamedExport_outside
  rw [checkedNames, checkedNames, outside, List.filter_map, exported, List.flatMap_map]
  simp only [CallRecord.boundNames_outside]

variable {log : FileLog} {file : SourceFile}

theorem Made.typeDeclarations (made : log.Made file) :
    (file.typeDeclarations.map fun declared =>
      (declared.file.name, declared.name.name, declared.kind, [declared.node])) = log.typeCalls := by
  have name := made.name
  have each := List.rel_map (fun record statement made => made.declaredType?.symm) made.statements
  rw [List.forall₂_eq_eq_eq] at each
  have found := congrArg (List.filterMap (Option.map (log.name, ·))) each.symm
  rw [List.filterMap_map, List.filterMap_map] at found
  rw [SourceFile.typeDeclarations, List.map_filterMap, typeCalls, ← name]
  rw [← name] at found
  refine Eq.trans (List.filterMap_congr fun statement _ => ?_) found
  rw [Function.comp_apply, Option.map_map, Option.map_map]
  rfl

theorem Made.namedExports (made : log.Made file) :
    List.Forall₂ CallRecord.Made (log.calls.filter CallRecord.isNamedExport) file.namedExports :=
  List.rel_filter (fun record statement made => by simp only [made.isNamedExport]) made.statements

theorem Made.checkedExports (made : log.Made file) :
    (file.checkedExports.map fun checked => checked.2.1) = log.checkedNames := by
  have names := List.rel_map (fun record statement made => made.checked.symm) made.namedExports
  rw [List.forall₂_eq_eq_eq] at names
  rw [SourceFile.checkedExports, List.map_flatMap, checkedNames, List.flatMap_def, List.flatMap_def, names]
  simp only [List.map_map, Function.comp_def]

end FileLog

/-! ### Programs -/

namespace Program

variable {program program' : Program} {names names' : Interner} {logs logs' : List FileLog}

/-- Whether a builder made a program of files that it had built by logged calls. The names are the present ones. -/
def BuiltBy (program : Program) (names : Interner) (logs : List FileLog) : Prop :=
  ∃ origin workspace log number builder owner, Workspace.Logged origin workspace log ∧
    workspace.program? number = some (program, names) ∧ workspace.builders[builder]? = some owner ∧
    owner.store = program.store ∧ List.Forall₂ (fun record source => ∃ file, origin file = builder ∧
      log[file]? = some record ∧ workspace.finished? file = some source) logs program.files

theorem BuiltBy.made (built : program.BuiltBy names logs) :
    List.Forall₂ FileLog.Made logs program.files := by
  obtain ⟨origin, workspace, log, number, builder, owner, logged, _, _, _, sources⟩ := built
  refine sources.imp fun record source => ?_
  rintro ⟨file, _, recorded, finished⟩
  exact logged.agrees.files file _ record (Workspace.finished?_eq_some_iff.mp finished) recorded

/-- The names of all declared types are known to the store of the builder. -/
theorem BuiltBy.known (built : program.BuiltBy names logs) : ∀ declared ∈ program.typeDeclarations,
    names.resolve? declared.name.symbol = some declared.name.name := by
  obtain ⟨origin, workspace, log, number, builder, owner, logged, found, owned, store, sources⟩ := built
  obtain ⟨_, _, same⟩ := Option.map_eq_some_iff.mp found
  cases same
  intro declared mem
  obtain ⟨source, listed, inFile⟩ := List.mem_flatMap.mp mem
  obtain ⟨record, _, file, own, _, finished⟩ := exists_mem_of_forall₂ sources listed
  have stands := logged.made.sound.known finished inFile
  rw [Workspace.names, own, owned, Option.map_some, Option.getD_some, store] at stands
  exact stands

theorem BuiltBy.typeDeclarations (built : program.BuiltBy names logs) :
    (program.typeDeclarations.map fun declared =>
      (declared.file.name, declared.name.name, declared.kind, [declared.node])) = logs.flatMap FileLog.typeCalls := by
  have each := List.rel_map (fun log file made => made.typeDeclarations.symm) built.made
  rw [List.forall₂_eq_eq_eq] at each
  rw [Program.typeDeclarations, List.map_flatMap, List.flatMap_def, List.flatMap_def, each]

/-- A name resolves if it is a keyword, or an alias or an interface outside of all namespaces has this name. -/
theorem BuiltBy.isSome_resolve? {σ : Type} [TypeOracle σ] (built : program.BuiltBy names logs) (oracle : σ)
    (name : String) : (program.resolve? names oracle name).isSome =
      ((Primitive.ofKeyword? name).isSome || (logs.flatMap FileLog.typeNames).contains name) := by
  have declared : (program.typeDeclarations.map (·.name.name)) = logs.flatMap FileLog.typeNames := by
    have listed := congrArg (List.map fun (_, name, _, _) => name) built.typeDeclarations
    rw [List.map_map, List.map_flatMap] at listed
    exact listed
  rw [resolve?]
  match Primitive.ofKeyword? name with
  | some kind => rfl
  | none =>
    rw [← declared, Option.isSome_none, Bool.false_or]
    show ((program.declaration? names name).map _).isSome = _
    rw [Option.isSome_map, declaration?_eq_find? built.known, List.isSome_find?, List.contains_eq_any_beq, List.any_map]
    congr 1
    funext declared
    exact BEq.comm

theorem BuiltBy.checkedExports (built : program.BuiltBy names logs) :
    (program.files.map fun file => file.checkedExports.map fun checked => checked.2.1) =
      logs.map FileLog.checkedNames := by
  have each := List.rel_map (fun log file made => made.checkedExports.symm) built.made
  rw [List.forall₂_eq_eq_eq] at each
  exact each.symm

/-- Whether nothing gets out of the namespaces of a program, and nothing is lost in them, where the calls on its files
are logged. -/
structure KeepsApart (program : Program) (names : Interner) (logs : List FileLog) : Prop where
  /-- The types are those that calls outside of all namespaces declared, with the ids that these calls returned. -/
  types : (program.typeDeclarations.map fun declared =>
    (declared.file.name, declared.name.name, declared.kind, [declared.node])) = logs.flatMap FileLog.typeCalls
  /-- A file, and each namespace in it, has the statements of the calls that were made there, one for each of them. -/
  statements : List.Forall₂ (fun log file => file.name = log.name ∧ log.spaces = [] ∧
    List.Forall₂ CallRecord.Made log.calls file.statements) logs program.files
  exported : List.Forall₂ (fun log file =>
    List.Forall₂ CallRecord.Made (log.calls.filter CallRecord.isNamedExport) file.namedExports) logs program.files
  /-- The same names resolve where only calls in namespaces are different. -/
  resolved : ∀ {program' : Program} {names' : Interner} {logs' : List FileLog}, program'.BuiltBy names' logs' →
    logs'.map FileLog.outside = logs.map FileLog.outside →
    ∀ {σ : Type} [TypeOracle σ] (oracle oracle' : σ) (name : String),
      (program'.resolve? names' oracle' name).isSome = (program.resolve? names oracle name).isSome
  /-- The same exports are checked where only calls in namespaces are different. -/
  checked : ∀ {program' : Program} {names' : Interner} {logs' : List FileLog}, program'.BuiltBy names' logs' →
    logs'.map FileLog.outside = logs.map FileLog.outside →
      (program'.files.map fun file => file.checkedExports.map fun checked => checked.2.1) =
        program.files.map fun file => file.checkedExports.map fun checked => checked.2.1

/-- A program that a builder makes of its own files keeps its namespaces apart. -/
theorem BuiltBy.keepsApart (built : program.BuiltBy names logs) : program.KeepsApart names logs where
  types := built.typeDeclarations
  statements := built.made.imp fun log file made => ⟨made.name, made.closed, made.statements⟩
  exported := built.made.imp fun log file made => made.namedExports
  resolved := by
    intro program' names' logs' built' same σ _ oracle oracle' name
    have declared (logs : List FileLog) :
        logs.flatMap FileLog.typeNames = (logs.map FileLog.outside).flatMap FileLog.typeNames := by
      rw [List.flatMap_map]
      simp only [FileLog.typeNames_outside]
    rw [built.isSome_resolve?, built'.isSome_resolve?, declared logs, declared logs', same]
  checked := by
    intro program' names' logs' built' same
    have exported (logs : List FileLog) :
        logs.map FileLog.checkedNames = (logs.map FileLog.outside).map FileLog.checkedNames := by
      rw [List.map_map]
      exact List.map_congr_left fun log _ => log.checkedNames_outside.symm
    rw [built.checkedExports, built'.checkedExports, exported logs, exported logs', same]

/-- A program with a type that is declared in a namespace. -/
theorem BuiltBy.keepsApart_hidden :
    let calls := [Declaration.interface .none "Shape" [("area", "number")],
      .space .none "Inner" [.typeAlias ModifierFlags.exported "Hidden" "string"]]
    ∃ (program : Program) (names : Interner) (records : List CallRecord), CallRecord.declarations records = calls ∧
      program.BuiltBy names [{ name := "a.ts", calls := records }] ∧
      program.KeepsApart names [{ name := "a.ts", calls := records }] := by
  intro calls
  obtain ⟨records, asked, logged⟩ := Workspace.exists_logged_sole "a.ts" calls
  have found : (Workspace.sole "a.ts" calls).program? 0 = some (_, _) := rfl
  have built : BuiltBy _ _ [{ name := "a.ts", calls := records }] :=
    ⟨_, _, _, 0, 0, _, logged, found, rfl, rfl, .cons ⟨0, rfl, rfl, rfl⟩ .nil⟩
  exact ⟨_, _, records, asked, built, built.keepsApart⟩

end Program

end ExportLint
