import ExportLint.Proofs.Calls
import ExportLint.Proofs.WrittenText

/-!
# Logs of calls

What was asked of the files of a workspace, call by call, with the ids that the calls returned. A namespace is
entered by one call and left by another one, so the calls on a file form a tree. Calls in a namespace are logged
apart from those before it, until the namespace is left. In whichever order the files grow, each of them consists of
what its own calls made: outside of all namespaces in the file itself, and otherwise in the namespace in which the
call was made. The text of a file is what its calls asked for, one after the other, and every statement stands where
the text of its call does.
-/

namespace ExportLint

/-- A call that has been made, with the ids that it returned: one that appends a statement, or a namespace with the
calls that were made in it. -/
inductive CallRecord where
  | declared (declaration : Declaration) (returned : List NodeId)
  | space (modifiers : ModifierFlags) (name : String) (returned : List NodeId) (inside : List CallRecord)

namespace CallRecord

mutual

/-- What was asked for by a call. -/
def declaration : CallRecord → Declaration
  | declared declaration _ => declaration
  | space modifiers name _ inside => .space modifiers name (declarations inside)

/-- What was asked for by calls, one after the other. -/
def declarations : List CallRecord → List Declaration
  | [] => []
  | first :: rest => first.declaration :: declarations rest

end

/-- The ids that a call returned. -/
def returned : CallRecord → List NodeId
  | declared _ returned | space _ _ returned _ => returned

/-- Calls one after the other, each with the offset at which its text begins. A line feed follows each text. -/
def placed (start : Nat) : List CallRecord → List (Nat × CallRecord)
  | [] => []
  | first :: rest => (start, first) :: placed (start + first.declaration.text.utf8ByteSize + 1) rest

theorem declarations_eq_map (calls : List CallRecord) : declarations calls = calls.map declaration := by
  induction calls with
  | nil => rfl
  | cons first rest ih => rw [declarations, ih, List.map_cons]

theorem map_snd_placed (start : Nat) (calls : List CallRecord) : (placed start calls).map Prod.snd = calls := by
  induction calls generalizing start with
  | nil => rfl
  | cons first rest ih => rw [placed, List.map_cons, ih]

/-- What comes behind other calls is written behind what they write. -/
theorem placed_append (start : Nat) (first second : List CallRecord) : placed start (first ++ second) =
    placed start first ++ placed (start + (Declaration.lines (declarations first)).utf8ByteSize) second := by
  induction first generalizing start with
  | nil => rfl
  | cons call rest ih =>
    have feed : "\n".utf8ByteSize = 1 := rfl
    rw [List.cons_append, placed, placed, ih, List.cons_append, declarations, Declaration.lines,
      String.utf8ByteSize_append, String.utf8ByteSize_append, feed]
    simp only [Nat.add_assoc]

end CallRecord

/-- A namespace that has been entered, with the calls before it. -/
structure SpaceLog where
  modifiers : ModifierFlags
  name : String
  outer : List CallRecord

/-- The text up to the calls in the innermost of the open namespaces, which comes first. -/
def SpaceLog.front : List SpaceLog → String
  | [] => ""
  | space :: spaces =>
    front spaces ++ Declaration.lines (CallRecord.declarations space.outer) ++
      Declaration.spaceHead space.modifiers space.name

/-- The calls on a file. While namespaces are open, the calls are those in the innermost one. -/
structure FileLog where
  name : String
  calls : List CallRecord := []
  /-- The open namespaces, the innermost one first. -/
  spaces : List SpaceLog := []

namespace FileLog

/-- What the calls write. -/
def text (log : FileLog) : String :=
  SpaceLog.front log.spaces ++ Declaration.lines (CallRecord.declarations log.calls)

def call (log : FileLog) (record : CallRecord) : FileLog :=
  { log with calls := log.calls ++ [record] }

def enter (log : FileLog) (modifiers : ModifierFlags) (name : String) : FileLog :=
  { log with calls := [], spaces := { modifiers, name, outer := log.calls } :: log.spaces }

/-- The log after the innermost namespace was left, by a call that returned ids. -/
def leave (log : FileLog) (returned : List NodeId) : FileLog :=
  match log.spaces with
  | [] => log
  | space :: spaces =>
    { log with calls := space.outer ++ [.space space.modifiers space.name returned log.calls], spaces }

end FileLog

/-- The calls on all files of a workspace. -/
abbrev CallLog := Array FileLog

namespace CallLog

/-- The log after an action. -/
def note (log : CallLog) : Workspace.Action → CallLog
  | .openFile name => log.push { name }
  | .declare file declaration statement =>
    log.modify file (·.call (.declared declaration (statement.handles.map Node.id)))
  | .enterSpace file modifiers name => log.modify file (·.enter modifiers name)
  | .leaveSpace file statement => log.modify file (·.leave (statement.handles.map Node.id))
  | .newBuilder | .shareBuilder _ | .finish _ | .addProgram _ _ => log

theorem modify_same (log : CallLog) (file : Nat) {change : FileLog → FileLog}
    (same : ∀ record, change record = record) : log.modify file change = log := by
  refine Array.ext_getElem? fun other => ?_
  rw [Array.getElem?_modify, funext same]
  split
  · exact Option.map_id_apply
  · rfl

theorem modify_modify (log : CallLog) (file : Nat) (first second : FileLog → FileLog) :
    (log.modify file first).modify file second = log.modify file (second ∘ first) := by
  refine Array.ext_getElem? fun other => ?_
  rw [Array.getElem?_modify, Array.getElem?_modify, Array.getElem?_modify]
  split
  · rw [Option.map_map]
  · rfl

end CallLog

/-! ### What calls make -/

/-- Whether a statement is what a call made, and the ids that the call returned are those that it has to return. A
namespace holds the statements of the calls in it, one for each of them and in their order. -/
inductive CallRecord.Made : CallRecord → Statement → Prop
  | declared {declaration : Declaration} {returned : List NodeId} {statement : Statement}
    (single : declaration.kind ≠ .moduleDeclaration) (records : statement.Records declaration)
    (gives : statement.Gives declaration returned) : Made (.declared declaration returned) statement
  | space {node : Node} {name : Identifier} {records : List CallRecord} {body : List Statement}
    (inside : List.Forall₂ Made records body) :
    Made (.space node.modifiers name.name [node.id] records) (.module node name body)

namespace CallRecord

variable {record : CallRecord} {statement : Statement}

/-- A statement records what the call for it asked for. -/
theorem Made.records (made : record.Made statement) : statement.Records record.declaration := by
  cases made with
  | declared single records gives => exact records
  | space inside => exact ⟨rfl, rfl, rfl, .nil⟩

theorem Made.gives (made : record.Made statement) : statement.Gives record.declaration record.returned := by
  cases made with
  | declared single records gives => exact gives
  | space inside => exact .whole (by simp [declaration, Declaration.kind])

end CallRecord

/-- Whether a statement is what a call made whose text begins at an offset. -/
structure CallRecord.MadeAt (call : Nat × CallRecord) (statement : Statement) : Prop where
  made : call.2.Made statement
  range : statement.node.range = ⟨.ofNat call.1, .ofNat (call.1 + call.2.declaration.text.utf8ByteSize)⟩

theorem CallRecord.made_of_placed {start : Nat} {calls : List CallRecord} {statements : List Statement}
    (placed : List.Forall₂ MadeAt (placed start calls) statements) : List.Forall₂ Made calls statements := by
  have each : List.Forall₂ (fun call => Made call.2) (CallRecord.placed start calls) statements :=
    placed.imp fun _ _ call => call.made
  rwa [← List.forall₂_map_left_iff, map_snd_placed] at each

/-- Whether namespaces are open that logged calls have entered, each after what the calls before it made. -/
inductive SpaceLog.Entered : List SpaceLog → List OpenSpace → Prop
  | nil : Entered [] []
  | cons {log : SpaceLog} {space : OpenSpace} {logs : List SpaceLog} {spaces : List OpenSpace}
    (start : space.node.range.start = .ofText (front logs ++ Declaration.lines (CallRecord.declarations log.outer)))
    (modifiers : space.node.modifiers = log.modifiers) (name : space.name.name = log.name)
    (outer : List.Forall₂ CallRecord.MadeAt (CallRecord.placed (front logs).utf8ByteSize log.outer) space.outer)
    (others : Entered logs spaces) : Entered (log :: logs) (space :: spaces)

namespace FileLog

/-- Whether a growing file consists of what the calls on it have made so far. -/
structure Grows (log : FileLog) (file : OpenFile) : Prop where
  name : file.name = log.name
  text : file.text = log.text
  calls : List.Forall₂ CallRecord.MadeAt (CallRecord.placed (SpaceLog.front log.spaces).utf8ByteSize log.calls)
    file.statements
  spaces : SpaceLog.Entered log.spaces file.spaces

/-- Whether a file consists of what the calls on it have made. -/
structure Made (log : FileLog) (file : SourceFile) : Prop where
  name : file.name = log.name
  text : file.text = Declaration.lines (CallRecord.declarations log.calls)
  calls : List.Forall₂ CallRecord.MadeAt (CallRecord.placed 0 log.calls) file.statements
  closed : log.spaces = []

def Describes (log : FileLog) : FileState → Prop
  | .growing file => log.Grows file
  | .finished file => log.Made file

/-- The statements of a file are what the calls made, one for each of them and in their order. -/
theorem Made.statements {log : FileLog} {file : SourceFile} (made : log.Made file) :
    List.Forall₂ CallRecord.Made log.calls file.statements :=
  CallRecord.made_of_placed made.calls

end FileLog

/-! ### Where texts stand -/

/-- What a call writes stands in what the calls write. -/
theorem CallRecord.standsAt_placed {before : String} {calls : List CallRecord} {call : Nat × CallRecord}
    (mem : call ∈ placed before.utf8ByteSize calls) :
    StandsAt (before ++ Declaration.lines (declarations calls)) call.1 call.2.declaration.text := by
  induction calls generalizing before with
  | nil => cases mem
  | cons first rest ih =>
    rw [declarations, Declaration.lines]
    rcases List.mem_cons.mp mem with rfl | later
    · refine ⟨before, "\n" ++ Declaration.lines (declarations rest), ?_, rfl⟩
      simp only [String.append_assoc]
    · have grown : before.utf8ByteSize + first.declaration.text.utf8ByteSize + 1 =
          (before ++ first.declaration.text ++ "\n").utf8ByteSize := by
        rw [String.utf8ByteSize_append, String.utf8ByteSize_append]
        rfl
      rw [grown] at later
      have stands := ih later
      simp only [String.append_assoc] at stands ⊢
      exact stands

/-- Every statement of a file stands where the text of its call does. -/
theorem FileLog.Made.standing {log : FileLog} {file : SourceFile} (made : log.Made file) :
    List.Forall₂ (fun call statement => StandsAt file.text call.1 call.2.declaration.text ∧
      CallRecord.MadeAt call statement) (CallRecord.placed 0 log.calls) file.statements := by
  refine (List.forall₂_and_left _ _).mpr ⟨fun call mem => ?_, made.calls⟩
  have stands : StandsAt ("" ++ _) _ _ := CallRecord.standsAt_placed mem
  rwa [String.empty_append, ← made.text] at stands

/-! ### One call on a growing file -/

theorem Layout.made_statement (declaration : Declaration) (draft : Draft)
    (single : declaration.kind ≠ .moduleDeclaration) :
    CallRecord.Made (.declared declaration (((statement declaration).run draft).1.handles.map Node.id))
      ((statement declaration).run draft).1 :=
  .declared single (records_statement declaration draft) (gives_statement declaration draft)

/-- A namespace that is left is what was made by entering it, up to its end, with what the calls in it made. -/
theorem Layout.made_leaveSpace {node : Node} {name : Identifier} {records : List CallRecord} {body : List Statement}
    {start draft : Draft} {statement : Statement} (run : (leaveSpace node name body).run start = (statement, draft))
    (inside : List.Forall₂ CallRecord.Made records body) :
    CallRecord.Made (.space node.modifiers name.name (statement.handles.map Node.id) records) statement := by
  let closed : Node := { node with range := ⟨node.range.start, .ofText (start.text ++ "\x7d")⟩ }
  have made : CallRecord.Made (.space closed.modifiers name.name [closed.id] records) (.module closed name body) :=
    .space inside
  cases run
  exact made

namespace FileLog

variable {target : OpenFile} {start draft : Draft} {log : FileLog} {statement : Statement}

theorem grows_new (builder : Nat) (name : String) : Grows { name } { builder, name } :=
  ⟨rfl, rfl, .nil, .nil⟩

/-- What is called behind other calls is written at the end of the text. -/
theorem Grows.size_eq (grows : log.Grows target) : target.text.utf8ByteSize =
    (SpaceLog.front log.spaces).utf8ByteSize +
      (Declaration.lines (CallRecord.declarations log.calls)).utf8ByteSize := by
  rw [grows.text, FileLog.text, String.utf8ByteSize_append]

theorem text_call (log : FileLog) (record : CallRecord) :
    (log.call record).text = log.text ++ record.declaration.text ++ "\n" := by
  have last : CallRecord.declarations (log.calls ++ [record]) =
      CallRecord.declarations log.calls ++ [record.declaration] := by
    simp only [CallRecord.declarations_eq_map, List.map_append, List.map_singleton]
  rw [text, text, call, last, Declaration.lines_append, Declaration.lines, Declaration.lines, String.append_empty]
  simp only [String.append_assoc]

theorem Grows.declare (grows : log.Grows target) (begins : start.text = target.text) {declaration : Declaration}
    (single : declaration.kind ≠ .moduleDeclaration)
    (run : (Layout.statements [declaration]).run start = ([statement], draft)) :
    (log.call (.declared declaration (statement.handles.map Node.id))).Grows
      { target with text := draft.text, statements := target.statements ++ [statement] } := by
  have appended := Layout.writes_statements [declaration] start
  have laid : ((Layout.statement declaration).run start).1 = statement := by
    rw [Layout.statements, Layout.statements] at run
    exact List.head_eq_of_cons_eq (congrArg Prod.fst run)
  have new := Layout.made_statement declaration start single
  have range := Layout.range_eq declaration start
  rw [laid] at new range
  rw [run, begins] at appended
  rw [begins, grows.size_eq] at range
  refine ⟨grows.name, ?_, ?_, grows.spaces⟩
  · show draft.text = _
    rw [appended, text_call, grows.text, Declaration.lines, Declaration.lines, String.append_empty,
      ← String.append_assoc]
    rfl
  · rw [call, CallRecord.placed_append]
    exact List.rel_append grows.calls (.cons ⟨new, range⟩ .nil)

theorem Grows.enterSpace (grows : log.Grows target) (begins : start.text = target.text) {modifiers : ModifierFlags}
    {name : String} {node : Node} {identifier : Identifier}
    (run : (Layout.enterSpace modifiers name).run start = ((node, identifier), draft)) :
    (log.enter modifiers name).Grows { target with
      text := draft.text, statements := []
      spaces := { node, name := identifier, outer := target.statements } :: target.spaces } := by
  have appended := Layout.writes_enterSpace modifiers name start
  rw [run, begins] at appended
  have text : draft.text = target.text ++ Declaration.spaceHead modifiers name := appended
  have entered : SpaceLog.Entered (log.enter modifiers name).spaces
      ({ node, name := identifier, outer := target.statements } :: target.spaces) := by
    cases run
    refine .cons ?_ rfl rfl grows.calls grows.spaces
    show Offset.ofText start.text = _
    rw [begins, grows.text]
    rfl
  refine ⟨grows.name, ?_, .nil, entered⟩
  show draft.text = _
  rw [text, grows.text, FileLog.text, FileLog.text, enter, SpaceLog.front, CallRecord.declarations, Declaration.lines,
    String.append_empty]

/-- A namespace that is left takes the statements in it, and leaves those before it as they were. -/
theorem Grows.leaveSpace (grows : log.Grows target) (begins : start.text = target.text) {space : OpenSpace}
    {spaces : List OpenSpace} (opened : target.spaces = space :: spaces)
    (run : (Layout.leaveSpace space.node space.name target.statements).run start = (statement, draft)) :
    (log.leave (statement.handles.map Node.id)).Grows { target with
      text := draft.text ++ "\n", statements := space.outer ++ [statement], spaces } := by
  obtain ⟨sameName, text, inside, entered⟩ := grows
  rw [opened] at entered
  match logged : log.spaces, entered with
  | record :: records, .cons starts modifiers name outer others =>
  have appended : draft.text = target.text ++ "\x7d" := begins ▸ (Layout.leaveSpace_eq run).1
  let closed : CallRecord := .space record.modifiers record.name (statement.handles.map Node.id) log.calls
  have left : log.leave (statement.handles.map Node.id) =
      FileLog.call { log with calls := record.outer, spaces := records } closed := by
    rw [FileLog.leave, logged]
    rfl
  have whole : draft.text = SpaceLog.front records ++ Declaration.lines (CallRecord.declarations record.outer) ++
      closed.declaration.text := by
    rw [appended, text, FileLog.text, logged, SpaceLog.front, CallRecord.declaration, Declaration.text]
    simp only [String.append_assoc]
  have made : closed.Made statement := by
    have left := Layout.made_leaveSpace run (CallRecord.made_of_placed inside)
    rwa [modifiers, name] at left
  have new : CallRecord.MadeAt ((SpaceLog.front records).utf8ByteSize +
      (Declaration.lines (CallRecord.declarations record.outer)).utf8ByteSize, closed) statement := by
    obtain ⟨_, _, node⟩ := Layout.leaveSpace_eq run
    refine ⟨made, ?_⟩
    rw [node, starts, whole, Offset.ofText, Offset.ofText]
    simp only [String.utf8ByteSize_append]
  rw [left]
  refine ⟨sameName, ?_, ?_, others⟩
  · rw [text_call, whole]
    rfl
  · rw [call, CallRecord.placed_append]
    exact List.rel_append outer (.cons new .nil)

end FileLog

/-! ### Calls in any order -/

namespace Workspace

open Relation (ReflTransGen)

variable {origin : Nat → Nat} {workspace before after : Workspace} {log : CallLog} {file number : Nat}

/-- A call, with the log before and after it. What others intern is not logged. -/
inductive LoggedCall (origin : Nat → Nat) : Workspace × CallLog → Workspace × CallLog → Prop
  | acts {before after : Workspace} {action : Action} (log : CallLog) (acts : Acts origin before action after) :
    LoggedCall origin (before, log) (after, log.note action)
  | intern (workspace : Workspace) (log : CallLog) (store : StoreId) (name : String) :
    LoggedCall origin (workspace, log) ({ workspace with interners := (workspace.interners.intern store name).2 }, log)

/-- Calls have led to this workspace from a new one, while the log was kept. -/
def Logged (origin : Nat → Nat) (workspace : Workspace) (log : CallLog) : Prop :=
  ReflTransGen (LoggedCall origin) (.initial, #[]) (workspace, log)

theorem LoggedCall.call {start stop : Workspace × CallLog} (logged : LoggedCall origin start stop) :
    Call origin start.1 stop.1 := by
  cases logged with
  | acts log acts => exact .acts acts
  | intern workspace log store name => exact .intern workspace store name

theorem Logged.made (logged : Logged origin workspace log) : Made origin workspace :=
  ReflTransGen.lift Prod.fst (fun _ _ call => call.call) _ _ logged

/-- Of all calls a log can be kept. -/
theorem Made.exists_logged (made : Made origin workspace) : ∃ log, Logged origin workspace log := by
  induction made with
  | refl => exact ⟨#[], .refl⟩
  | tail _ call ih =>
    obtain ⟨log, logged⟩ := ih
    cases call with
    | acts acts => exact ⟨_, logged.tail (.acts log acts)⟩
    | intern store name => exact ⟨log, logged.tail (.intern _ log store name)⟩

/-- Whether the files of a workspace consist of what the logged calls on them made. -/
structure Agrees (workspace : Workspace) (log : CallLog) : Prop where
  fileCount : log.size = workspace.files.size
  files : ∀ (file : Nat) (state : FileState) (record : FileLog), workspace.files[file]? = some state →
    log[file]? = some record → record.Describes state

theorem Agrees.of_files (agrees : before.Agrees log) (same : after.files = before.files) : after.Agrees log := by
  obtain ⟨fileCount, files⟩ := agrees
  rw [← same] at fileCount files
  exact ⟨fileCount, files⟩

theorem Agrees.openFile (agrees : before.Agrees log) (builder : Nat) (name : String) :
    (before.openFile builder name).Agrees (log.push { name }) := by
  refine ⟨by simp [Workspace.openFile, agrees.fileCount], ?_⟩
  intro file state record found logged
  simp only [Workspace.openFile, Array.getElem?_push] at found
  rw [Array.getElem?_push, agrees.fileCount] at logged
  by_cases new : file = before.files.size
  · rw [if_pos new] at found logged
    cases found
    cases logged
    exact FileLog.grows_new builder name
  · rw [if_neg new] at found logged
    exact agrees.files file state record found logged

/-- A call that moves one file on is logged for that file. -/
theorem Agrees.move (agrees : before.Agrees log) {old new : FileState} {change : FileLog → FileLog}
    (found : before.files[file]? = some old) (files : after.files = before.files.setIfInBounds file new)
    (describes : ∀ record : FileLog, record.Describes old → (change record).Describes new) :
    after.Agrees (log.modify file change) := by
  have inside := (Array.getElem?_eq_some_iff.mp found).1
  refine ⟨by rw [Array.size_modify, files, Array.size_setIfInBounds, agrees.fileCount], ?_⟩
  intro other state record here logged
  rw [files, Array.getElem?_setIfInBounds] at here
  rw [Array.getElem?_modify] at logged
  by_cases same : file = other
  · subst same
    rw [if_pos rfl, if_pos inside] at here
    rw [if_pos rfl, Option.map_eq_some_iff] at logged
    obtain ⟨past, loggedPast, rfl⟩ := logged
    cases here
    exact describes past (agrees.files file old past found loggedPast)
  · rw [if_neg same] at here logged
    exact agrees.files other state record here logged

/-- A call that makes one file grow is logged for that file. -/
theorem Agrees.grow (agrees : before.Agrees log) {target next : OpenFile} {owner : Builder} {start draft : Draft}
    {change : FileLog → FileLog} (grown : before.Grown after file target next owner start draft)
    (grows : ∀ record : FileLog, record.Grows target → start.text = target.text → (change record).Grows next) :
    after.Agrees (log.modify file change) := by
  refine agrees.move (growing?_eq_some_iff.mp grown.growing) grown.files_after fun record made => ?_
  exact grows record made (by rw [grown.begins])

theorem Agrees.finish (agrees : before.Agrees log) {done : SourceFile}
    (finished : before.finish file = some (done, after)) : after.Agrees log := by
  obtain ⟨target, owner, growing, owned, closed, same, rfl⟩ := finish_eq_some finished
  -- that a file is finished is not logged
  rw [← CallLog.modify_same log file fun record => rfl]
  refine agrees.move (growing?_eq_some_iff.mp growing) rfl fun record grows => ?_
  obtain ⟨name, text, calls, entered⟩ := grows
  rw [closed] at entered
  match spaces : record.spaces, entered with
  | [], .nil =>
  rw [spaces] at calls
  rw [FileLog.text, spaces, SpaceLog.front, String.empty_append] at text
  rw [same]
  exact ⟨name, text, calls, spaces⟩

theorem Agrees.acts {action : Action} (agrees : before.Agrees log) (acts : Acts origin before action after) :
    after.Agrees (log.note action) := by
  cases acts with
  | newBuilder => exact agrees.of_files rfl
  | shareBuilder shared =>
    obtain ⟨owner, _, rfl⟩ := Option.map_eq_some_iff.mp shared
    exact agrees.of_files rfl
  | openFile name => exact agrees.openFile _ name
  | declare single declared =>
    obtain ⟨target, owner, start, draft, run, grown⟩ := declare_eq_some declared
    exact agrees.grow grown fun record grows begins => grows.declare begins single run
  | enterSpace entered =>
    obtain ⟨target, owner, start, draft, node, identifier, run, grown⟩ := enterSpace_eq_some entered
    exact agrees.grow grown fun record grows begins => grows.enterSpace begins run
  | leaveSpace left =>
    obtain ⟨target, owner, start, draft, space, spaces, opened, run, grown⟩ := leaveSpace_eq_some left
    exact agrees.grow grown fun record grows begins => grows.leaveSpace begins opened run
  | finish finished => exact agrees.finish finished
  | addProgram made =>
    obtain ⟨owner, sources, _, _, rfl⟩ := addProgram_eq_some made
    exact agrees.of_files rfl

theorem Agrees.call {start stop : Workspace × CallLog} (agrees : start.1.Agrees start.2)
    (logged : LoggedCall origin start stop) : stop.1.Agrees stop.2 := by
  cases logged with
  | acts log acts => exact agrees.acts acts
  | intern workspace log store name => exact agrees.of_files rfl

/-- In every workspace, the files consist of what the calls on them made. -/
theorem Logged.agrees (logged : Logged origin workspace log) : workspace.Agrees log := by
  suffices general : ∀ stop : Workspace × CallLog, ReflTransGen (LoggedCall origin) (.initial, #[]) stop →
      stop.1.Agrees stop.2 from general _ logged
  intro stop reached
  induction reached with
  | refl => exact ⟨rfl, fun _ _ _ found => by cases found⟩
  | tail _ call ih => exact ih.call call

/-- A finished file consists of what was logged for it. -/
theorem Logged.exists_made (logged : Logged origin workspace log) {source : SourceFile}
    (finished : workspace.finished? file = some source) :
    ∃ record : FileLog, log[file]? = some record ∧ record.Made source := by
  have agrees := logged.agrees
  have found := finished?_eq_some_iff.mp finished
  have inside := (Array.getElem?_eq_some_iff.mp found).1
  rw [← agrees.fileCount] at inside
  have noted := Array.getElem?_eq_getElem inside
  exact ⟨_, noted, agrees.files file _ _ found noted⟩

end Workspace

end ExportLint
