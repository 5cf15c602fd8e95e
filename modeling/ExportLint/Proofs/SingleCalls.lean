import ExportLint.Proofs.CallLog

/-!
# One call at a time

Declarations can be appended to a file all at once, or by one call each, where a namespace is entered, filled by the
calls for what is in it, and left. Both ways come to the same workspace. So what a list of declarations makes of a
file is what a tree of calls makes of it, with namespaces in each other to any depth.
-/

namespace ExportLint

/-- Two steps of laying out, one after the other. -/
theorem Layout.run_bind {α β : Type} (step : Layout α) (next : α → Layout β) (draft : Draft) :
    (step >>= next).run draft = (next (step.run draft).1).run (step.run draft).2 := rfl

/-- What stands later is laid out after what stands earlier. -/
theorem Layout.run_statements_append (first second : List Declaration) (draft : Draft) :
    (statements (first ++ second)).run draft =
      (((statements first).run draft).1 ++ ((statements second).run ((statements first).run draft).2).1,
        ((statements second).run ((statements first).run draft).2).2) := by
  induction first generalizing draft with
  | nil =>
    rw [List.nil_append, statements]
    rfl
  | cons declaration rest ih =>
    rw [List.cons_append, statements, statements]
    simp only [run_bind, ih]
    rfl

/-- What a call for a statement of its own returned are the ids that were given out for the statement. -/
theorem CallRecord.Made.eq_declared {record : CallRecord} {statement : Statement} (made : record.Made statement)
    (single : record.declaration.kind ≠ .moduleDeclaration) :
    record = .declared record.declaration (statement.handles.map Node.id) := by
  cases made with
  | declared _ records gives => rw [gives.eq_handles records.kind, declaration]
  | space inside => exact absurd rfl single

/-- The records of calls are what they asked for, with the ids of the statements that they made. -/
theorem CallRecord.eq_zipWith_declared {records : List CallRecord} {statements : List Statement}
    (made : List.Forall₂ Made records statements)
    (single : ∀ call ∈ declarations records, call.kind ≠ .moduleDeclaration) : records =
      List.zipWith declared (declarations records) (statements.map fun statement => statement.handles.map Node.id) := by
  induction made with
  | nil => rfl
  | @cons record statement records statements first _ ih =>
    rw [declarations, List.forall_mem_cons] at single
    rw [declarations, List.map_cons, List.zipWith_cons_cons, ← ih single.2, ← first.eq_declared single.1]

namespace Workspace

variable {workspace before middle after : Workspace} {file : Nat} {target next next' : OpenFile} {owner : Builder}
  {start draft draft' : Draft}

/-! ### A file that goes on growing -/

/-- Whether a file is being built, and its next step starts from a draft. -/
structure Ready (workspace : Workspace) (file : Nat) (target : OpenFile) (owner : Builder) (start : Draft) : Prop where
  growing : workspace.growing? file = some target
  owned : workspace.builders[target.builder]? = some owner
  begins : start =
    { text := target.text, nextId := owner.nextId, interner := workspace.interners.contents owner.store }

/-- The next step of a file that has grown starts where the last one ended. -/
theorem Grown.ready (grown : before.Grown middle file target next owner start draft) (stored : before.Stored)
    (same : next.builder = target.builder) (text : next.text = draft.text) :
    middle.Ready file next { owner with nextId := draft.nextId } draft := by
  have inside := (Array.getElem?_eq_some_iff.mp (growing?_eq_some_iff.mp grown.growing)).1
  have isBuilder := (Array.getElem?_eq_some_iff.mp grown.owned).1
  have inPool := stored target.builder owner grown.owned
  obtain ⟨_, _, _, ends⟩ := grown
  constructor
  · rw [growing?_eq_some_iff, ends]
    simp [setFile, setBuilder, inside]
  · rw [ends, same]
    simp [setFile, setBuilder, isBuilder]
  · rw [ends, text]
    simp [setFile, setBuilder, Interners.contents_replace, inPool]

/-- Two steps of a file, one after the other, change the workspace as one step does. -/
theorem Grown.trans (first : before.Grown middle file target next owner start draft)
    (same : next.builder = target.builder)
    (second : middle.Grown after file next next' { owner with nextId := draft.nextId } draft draft') :
    before.Grown after file target next' owner start draft' := by
  refine ⟨first.growing, first.owned, first.begins, ?_⟩
  rw [second.ends, first.ends, same]
  simp [setFile, setBuilder, Interners.replace, Array.setIfInBounds_setIfInBounds]

private theorem setIfInBounds_self {α : Type} {elements : Array α} {index : Nat} {element : α}
    (found : elements[index]? = some element) : elements.setIfInBounds index element = elements := by
  obtain ⟨inside, rfl⟩ := Array.getElem?_eq_some_iff.mp found
  rw [Array.setIfInBounds, dif_pos inside, Array.set_getElem_self]

/-- A file that has not grown is as it was. -/
theorem Ready.grown_self (ready : workspace.Ready file target owner start) (stored : workspace.Stored) :
    workspace.Grown workspace file target target owner start start := by
  refine ⟨ready.growing, ready.owned, ready.begins, ?_⟩
  have sameFile := setIfInBounds_self (growing?_eq_some_iff.mp ready.growing)
  have sameBuilder := setIfInBounds_self ready.owned
  have sameStore : workspace.interners.replace owner.store start.interner = workspace.interners := by
    have inPool := stored target.builder owner ready.owned
    have found : workspace.interners.stores[owner.store.index]? = some start.interner := by
      rw [ready.begins, Interners.contents, Array.getElem?_eq_getElem inPool]
      rfl
    rw [Interners.replace, setIfInBounds_self found]
  have counted : ({ owner with nextId := start.nextId } : Builder) = owner := by rw [ready.begins]
  rw [counted]
  simp only [setFile, setBuilder, sameFile, sameBuilder, sameStore]

/-- A step that is not refused is taken, from the draft that the file is ready for. -/
theorem Ready.grow {α : Type} {step : OpenFile → Option (Layout (α × OpenFile))} {layout : Layout (α × OpenFile)}
    {value : α} (ready : before.Ready file target owner start) (next : OpenFile) (draft : Draft)
    (accepted : step target = some layout) (run : layout.run start = ((value, next), draft)) :
    ∃ after, before.grow file step = some (value, after) ∧
      before.Grown after file target { next with text := draft.text } owner start draft := by
  obtain ⟨growing, owned, rfl⟩ := ready
  refine ⟨_, ?_, growing, owned, rfl, rfl⟩
  simp only [Workspace.grow, growing, owned, accepted, run, Option.bind_eq_bind, Option.bind_some]
  rfl

theorem Ready.declare (ready : before.Ready file target owner start) {declarations : List Declaration}
    {added : List Statement} (run : (Layout.statements declarations).run start = (added, draft)) :
    ∃ after, before.declare file declarations = some (added, after) ∧ before.Grown after file target
      { target with text := draft.text, statements := target.statements ++ added } owner start draft := by
  refine ready.grow { target with statements := target.statements ++ added } draft rfl ?_
  rw [Layout.run_bind, run]
  rfl

theorem Ready.enterSpace (ready : before.Ready file target owner start) {modifiers : ModifierFlags} {name : String}
    {node : Node} {identifier : Identifier}
    (run : (Layout.enterSpace modifiers name).run start = ((node, identifier), draft)) :
    ∃ after, before.enterSpace file modifiers name = some ((), after) ∧ before.Grown after file target
      { target with
        text := draft.text, statements := []
        spaces := { node, name := identifier, outer := target.statements } :: target.spaces } owner start draft := by
  let space : OpenSpace := { node, name := identifier, outer := target.statements }
  refine ready.grow { target with statements := [], spaces := space :: target.spaces } draft rfl ?_
  rw [Layout.run_bind, run]
  rfl

theorem Ready.leaveSpace (ready : before.Ready file target owner start) {space : OpenSpace} {spaces : List OpenSpace}
    (opened : target.spaces = space :: spaces) {statement : Statement}
    (run : (Layout.leaveSpace space.node space.name target.statements).run start = (statement, draft)) :
    ∃ after, before.leaveSpace file = some (statement, after) ∧ before.Grown after file target
      { target with text := draft.text ++ "\n", statements := space.outer ++ [statement], spaces } owner start
      { draft with text := draft.text ++ "\n" } := by
  apply ready.grow { target with statements := space.outer ++ [statement], spaces }
    { draft with text := draft.text ++ "\n" }
  · rw [opened]
  · rw [Layout.run_bind, run]
    rfl

/-! ### Declarations call by call -/

mutual

/-- Makes the call for a declaration. A namespace is entered, the calls for what is in it are made, and it is left. -/
def perform (file : Nat) (workspace : Workspace) : Declaration → Option Workspace
  | .space modifiers name body => do
    let ((), entered) ← workspace.enterSpace file modifiers name
    let filled ← performAll file entered body
    let (_, left) ← filled.leaveSpace file
    return left
  | declaration => do
    let (_, declared) ← workspace.declare file [declaration]
    return declared

/-- Makes the calls for declarations, one after the other. -/
def performAll (file : Nat) (workspace : Workspace) : List Declaration → Option Workspace
  | [] => some workspace
  | first :: rest => do
    let performed ← perform file workspace first
    performAll file performed rest

end

/-- Laying out a namespace is entering it, laying out what is in it, and leaving it. -/
theorem run_space {modifiers : ModifierFlags} {name : String} {body : List Declaration} {node : Node}
    {identifier : Identifier} {inner : List Statement} {statement : Statement} {entered filled left : Draft}
    (enter : (Layout.enterSpace modifiers name).run start = ((node, identifier), entered))
    (fill : (Layout.statements body).run entered = (inner, filled))
    (leave : (Layout.leaveSpace node identifier inner).run filled = (statement, left)) :
    (Layout.statements [.space modifiers name body]).run start =
      ([statement], { left with text := left.text ++ "\n" }) := by
  rw [Layout.statements, Layout.statements, Layout.statement]
  simp only [Layout.run_bind, enter, fill, leave]
  rfl

mutual

/-- The call for a declaration changes the workspace as laying out the declaration does. -/
theorem exists_perform {before : Workspace} {target : OpenFile} {owner : Builder} {start draft : Draft}
    {added : List Statement} (ready : before.Ready file target owner start) (stored : before.Stored)
    (declaration : Declaration) (run : (Layout.statements [declaration]).run start = (added, draft)) :
    ∃ after, before.perform file declaration = some after ∧ before.Grown after file target
      { target with text := draft.text, statements := target.statements ++ added } owner start draft := by
  cases declaration with
  | space modifiers name body =>
    match enter : (Layout.enterSpace modifiers name).run start with
    | ((node, identifier), entered) =>
    match fill : (Layout.statements body).run entered with
    | (inner, filled) =>
    match leave : (Layout.leaveSpace node identifier inner).run filled with
    | (statement, left) =>
    cases run.symm.trans (run_space enter fill leave)
    obtain ⟨first, called, grown⟩ := ready.enterSpace enter
    have stored' := grown.stored stored
    obtain ⟨second, calledAll, grown'⟩ := exists_performAll (grown.ready stored rfl rfl) stored' body fill
    obtain ⟨third, called', grown''⟩ := (grown'.ready stored' rfl rfl).leaveSpace rfl leave
    refine ⟨third, ?_, (grown.trans rfl grown').trans rfl grown''⟩
    rw [perform]
    simp only [called, calledAll, called', Option.bind_eq_bind, Option.bind_some]
    rfl
  | _ =>
    obtain ⟨after, declared, grown⟩ := ready.declare run
    refine ⟨after, ?_, grown⟩
    simp only [perform, declared, Option.bind_eq_bind, Option.bind_some]
    rfl

/-- The calls for declarations change the workspace as laying out the declarations does. -/
theorem exists_performAll {before : Workspace} {target : OpenFile} {owner : Builder} {start draft : Draft}
    {added : List Statement} (ready : before.Ready file target owner start) (stored : before.Stored)
    (declarations : List Declaration) (run : (Layout.statements declarations).run start = (added, draft)) :
    ∃ after, before.performAll file declarations = some after ∧ before.Grown after file target
      { target with text := draft.text, statements := target.statements ++ added } owner start draft := by
  cases declarations with
  | nil =>
    rw [Layout.statements] at run
    cases run
    refine ⟨before, by rw [performAll], ?_⟩
    have same : { target with text := start.text, statements := target.statements ++ [] } = target := by
      rw [List.append_nil, ready.begins]
    rw [same]
    exact ready.grown_self stored
  | cons first rest =>
    match one : (Layout.statements [first]).run start with
    | (statement, middle) =>
    match others : (Layout.statements rest).run middle with
    | (statements, last) =>
    have split := Layout.run_statements_append [first] rest start
    rw [List.singleton_append, one] at split
    dsimp only at split
    rw [others] at split
    cases run.symm.trans split
    obtain ⟨performed, called, grown⟩ := exists_perform ready stored first one
    obtain ⟨after, calledAll, grown'⟩ :=
      exists_performAll (grown.ready stored rfl rfl) (grown.stored stored) rest others
    refine ⟨after, ?_, ?_⟩
    · rw [performAll, called]
      exact calledAll
    · rw [← List.append_assoc]
      exact grown.trans rfl grown'

end

/-- Declarations that are made call by call come to the same workspace as all at once. -/
theorem performAll_eq_declare (ready : before.Ready file target owner start) (stored : before.Stored)
    (declarations : List Declaration) :
    before.performAll file declarations = (before.declare file declarations).map (·.2) := by
  match run : (Layout.statements declarations).run start with
  | (added, draft) =>
  obtain ⟨after, called, grown⟩ := exists_performAll ready stored declarations run
  obtain ⟨after', declared, grown'⟩ := ready.declare run
  rw [called, declared, Option.map_some, grown.ends, grown'.ends]

/-! ### A single file -/

/-- What a new builder lays out for declarations. -/
def layout (declarations : List Declaration) : List Statement × Draft :=
  (Layout.statements declarations).run { interner := .empty }

/-- The workspace with one file, before the file is finished. -/
def soleOpen (name : String) (declarations : List Declaration) : Workspace where
  interners := ⟨#[(layout declarations).2.interner]⟩
  builders := #[{ store := ⟨0⟩, nextId := (layout declarations).2.nextId }]
  files := #[.growing
    { builder := 0, name, text := (layout declarations).2.text, statements := (layout declarations).1 }]

/-- The file that a new builder makes of declarations. -/
def soleFile (name : String) (declarations : List Declaration) : SourceFile where
  id := ⟨(layout declarations).2.nextId⟩
  name
  text := (layout declarations).2.text
  statements := (layout declarations).1

/-- The workspace with one file, and one program of it. -/
def sole (name : String) (declarations : List Declaration) : Workspace where
  interners := ⟨#[(layout declarations).2.interner]⟩
  builders := #[{ store := ⟨0⟩, nextId := (layout declarations).2.nextId + 1 }]
  files := #[.finished (soleFile name declarations)]
  programs := #[{ store := ⟨0⟩, files := [soleFile name declarations] }]

/-- Calls on the only file of a new workspace. -/
theorem performAll_opened (name : String) (calls : List Declaration) :
    (initial.openFile 0 name).performAll 0 calls = some (soleOpen name calls) := by
  have ready : (initial.openFile 0 name).Ready 0 { builder := 0, name } { store := ⟨0⟩ } { interner := .empty } :=
    ⟨rfl, rfl, rfl⟩
  have declared : (initial.openFile 0 name).declare 0 calls = some ((layout calls).1, soleOpen name calls) := rfl
  rw [performAll_eq_declare ready initial_stored, declared]
  rfl

/-! ### Every tree of calls -/

open Relation (ReflTransGen)

variable {origin : Nat → Nat} {log : CallLog}

/-- A call that appends a statement of its own gives that statement. -/
theorem exists_declare {declaration : Declaration} {added : List Statement}
    (declared : before.declare file [declaration] = some (added, after)) :
    ∃ statement, before.declare file [declaration] = some ([statement], after) := by
  obtain ⟨target, owner, start, draft, run, grown⟩ := declare_eq_some declared
  rw [Layout.statements, Layout.statements] at run
  cases run
  exact ⟨_, declared⟩

theorem perform_single {declaration : Declaration} (single : declaration.kind ≠ .moduleDeclaration) :
    before.perform file declaration = (before.declare file [declaration]).map (·.2) := by
  rw [perform]
  · cases before.declare file [declaration] <;> rfl
  · rintro modifiers name body rfl
    exact single rfl

/-- The call for a statement of its own can be logged. -/
theorem exists_logged_single {declaration : Declaration} (single : declaration.kind ≠ .moduleDeclaration)
    (performed : before.perform file declaration = some after) : ∃ record : CallRecord,
      record.declaration = declaration ∧
      ReflTransGen (LoggedCall origin) (before, log) (after, log.modify file (·.call record)) := by
  rw [perform_single single, Option.map_eq_some_iff] at performed
  obtain ⟨⟨added, left⟩, declared, same⟩ := performed
  cases same
  obtain ⟨statement, given⟩ := exists_declare declared
  exact ⟨.declared declaration (statement.handles.map Node.id), rfl, .single (.acts log (.declare single given))⟩

mutual

/-- The calls for a declaration can be logged. -/
theorem exists_logged_perform (origin : Nat → Nat) {file : Nat} {before after : Workspace} (log : CallLog)
    (declaration : Declaration) (performed : before.perform file declaration = some after) : ∃ record : CallRecord,
      record.declaration = declaration ∧
      ReflTransGen (LoggedCall origin) (before, log) (after, log.modify file (·.call record)) := by
  cases declaration with
  | space modifiers name body =>
    rw [perform] at performed
    simp only [Option.bind_eq_bind, Option.bind_eq_some_iff] at performed
    obtain ⟨⟨nothing, entered⟩, enter, filled, fill, ⟨statement, left⟩, leave, same⟩ := performed
    cases same
    have first : ReflTransGen (LoggedCall origin) (before, log)
        (entered, log.modify file (·.enter modifiers name)) := .single (.acts log (.enterSpace enter))
    obtain ⟨records, asked, calls⟩ :=
      exists_logged_performAll origin (log.modify file (·.enter modifiers name)) body fill
    refine ⟨.space modifiers name (statement.handles.map Node.id) records, ?_, ?_⟩
    · rw [CallRecord.declaration, asked]
    · have last := (first.trans calls).tail (.acts _ (.leaveSpace leave))
      rw [CallLog.note, CallLog.modify_modify, CallLog.modify_modify] at last
      exact last
  | _ => exact exists_logged_single (by simp [Declaration.kind]) performed

theorem exists_logged_performAll (origin : Nat → Nat) {file : Nat} {before after : Workspace} (log : CallLog)
    (declarations : List Declaration) (performed : before.performAll file declarations = some after) :
    ∃ records : List CallRecord, CallRecord.declarations records = declarations ∧
      ReflTransGen (LoggedCall origin) (before, log)
        (after, log.modify file fun record => { record with calls := record.calls ++ records }) := by
  cases declarations with
  | nil =>
    rw [performAll] at performed
    cases performed
    refine ⟨[], rfl, ?_⟩
    rw [CallLog.modify_same log file fun record => by rw [List.append_nil]]
  | cons first rest =>
    rw [performAll] at performed
    simp only [Option.bind_eq_bind, Option.bind_eq_some_iff] at performed
    obtain ⟨middle, here, later⟩ := performed
    obtain ⟨record, asked, call⟩ := exists_logged_perform origin log first here
    obtain ⟨records, askedRest, calls⟩ := exists_logged_performAll origin (log.modify file (·.call record)) rest later
    refine ⟨record :: records, ?_, ?_⟩
    · rw [CallRecord.declarations, asked, askedRest]
    · have whole := call.trans calls
      rw [CallLog.modify_modify] at whole
      simpa [Function.comp_def, FileLog.call] using whole

end

/-- Declarations that are appended all at once can be logged call by call. -/
theorem exists_logged_declare (origin : Nat → Nat) (log : CallLog) (stored : before.Stored)
    {declarations : List Declaration} {added : List Statement}
    (declared : before.declare file declarations = some (added, after)) :
    ∃ records : List CallRecord, CallRecord.declarations records = declarations ∧
      ReflTransGen (LoggedCall origin) (before, log)
        (after, log.modify file fun record => { record with calls := record.calls ++ records }) := by
  obtain ⟨target, owner, start, draft, _, grown⟩ := declare_eq_some declared
  refine exists_logged_performAll origin log declarations ?_
  rw [performAll_eq_declare ⟨grown.growing, grown.owned, grown.begins⟩ stored, declared, Option.map_some]

theorem Made.declare (made : Made origin before) {declarations : List Declaration} {added : List Statement}
    (declared : before.declare file declarations = some (added, after)) : Made origin after := by
  obtain ⟨log, logged⟩ := made.exists_logged
  obtain ⟨_, _, calls⟩ := exists_logged_declare origin log made.sound.stored declared
  exact Logged.made (logged.trans calls)

/-- Any tree of calls can be made on a new file, which then is all there is in a program. -/
theorem exists_logged_sole (name : String) (calls : List Declaration) : ∃ records : List CallRecord,
    CallRecord.declarations records = calls ∧ Logged (fun _ => 0) (sole name calls) #[{ name, calls := records }] := by
  let origin : Nat → Nat := fun _ => 0
  have opened : Logged origin (initial.openFile 0 name) #[{ name }] := .single (.acts #[] (.openFile .initial name))
  obtain ⟨records, asked, added⟩ := exists_logged_performAll origin #[{ name }] calls (performAll_opened name calls)
  refine ⟨records, asked, ?_⟩
  have filled : Logged origin (soleOpen name calls) #[{ name, calls := records }] := opened.trans added
  have finished := filled.tail
    (.acts _ (.finish (rfl : (soleOpen name calls).finish 0 = some (soleFile name calls, _))))
  exact finished.tail (.acts _ (.addProgram (rfl : Workspace.addProgram _ 0 [0] = some (sole name calls))))

theorem sole_made (name : String) (declarations : List Declaration) : Made (fun _ => 0) (sole name declarations) := by
  obtain ⟨_, _, logged⟩ := exists_logged_sole name declarations
  exact logged.made

/-- The log of calls on a new file, where none of them is for a namespace. -/
theorem logged_sole (name : String) (calls : List Declaration)
    (single : ∀ call ∈ calls, call.kind ≠ .moduleDeclaration) :
    let returned := (layout calls).1.map fun statement => statement.handles.map Node.id
    Logged (fun _ => 0) (sole name calls) #[{ name, calls := List.zipWith .declared calls returned }] := by
  obtain ⟨records, rfl, logged⟩ := exists_logged_sole name calls
  have made : FileLog.Made { name, calls := records } (soleFile name _) := logged.agrees.files 0 _ _ rfl rfl
  have same := CallRecord.eq_zipWith_declared made.statements single
  exact cast (congrArg (fun calls => Logged _ _ #[{ name, calls }]) same) logged

/-! ### Two files -/

section
variable (name other : String) (first second : List Declaration)

/-- What a builder lays out for declarations after a first file. -/
def nextLayout : List Statement × Draft :=
  (Layout.statements second).run { nextId := (layout first).2.nextId + 1, interner := (layout first).2.interner }

/-- The file that a builder makes of declarations after a first one. -/
def nextFile : SourceFile where
  id := ⟨(nextLayout first second).2.nextId⟩
  name := other
  text := (nextLayout first second).2.text
  statements := (nextLayout first second).1

/-- The workspace with two files of one builder, and a program of both. -/
def pair : Workspace where
  interners := ⟨#[(nextLayout first second).2.interner]⟩
  builders := #[{ store := ⟨0⟩, nextId := (nextLayout first second).2.nextId + 1 }]
  files := #[.finished (soleFile name first), .finished (nextFile other first second)]
  programs := #[{ store := ⟨0⟩, files := [soleFile name first] },
    { store := ⟨0⟩, files := [soleFile name first, nextFile other first second] }]

/-- The workspace with two files, before the second one is finished. -/
def pairOpen : Workspace where
  interners := ⟨#[(nextLayout first second).2.interner]⟩
  builders := #[{ store := ⟨0⟩, nextId := (nextLayout first second).2.nextId }]
  files := #[.finished (soleFile name first), .growing
    { builder := 0, name := other, text := (nextLayout first second).2.text,
      statements := (nextLayout first second).1 }]
  programs := #[{ store := ⟨0⟩, files := [soleFile name first] }]

theorem pair_made : Made (fun _ => 0) (pair name other first second) := by
  have opened : Made (fun _ => 0) ((sole name first).openFile 0 other) :=
    (sole_made name first).tail (.acts (.openFile (sole name first) other))
  have written : Made (fun _ => 0) (pairOpen name other first second) := opened.declare
    (rfl : ((sole name first).openFile 0 other).declare 1 second = some (_, pairOpen name other first second))
  have finished := written.tail (.acts (.finish
    (rfl : (pairOpen name other first second).finish 1 = some (nextFile other first second, _))))
  exact finished.tail
    (.acts (.addProgram (rfl : Workspace.addProgram _ 0 [0, 1] = some (pair name other first second))))

end

end Workspace

end ExportLint
