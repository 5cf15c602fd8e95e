import ExportLint.Proofs.OpenFiles
import ExportLint.Proofs.Writing

/-!
# Calls in any order

The builders of a workspace and their files may be called in any order: files grow in turns, also
while namespaces are open in them. Whatever the order, the tree of every file lies in its text, the
symbols in it stand for its names, and the ids that a builder has drawn are shared out among its files
without a gap and without a repetition.
-/

namespace ExportLint

namespace Workspace

open Relation (ReflTransGen)

variable {origin : Nat → Nat} {workspace before after : Workspace} {file : Nat}

/-! ### Calls -/

/-- The id that the next node of a builder takes. -/
def counter (workspace : Workspace) (builder : Nat) : Nat :=
  (workspace.builders[builder]?.map Builder.nextId).getD 0

/-- What is asked of the builders and the files of a workspace, with the statement that comes of it. -/
inductive Action where
  | newBuilder
  | shareBuilder (builder : Nat)
  | openFile (name : String)
  /-- A statement of its own, anything but a namespace. -/
  | declare (file : Nat) (declaration : Declaration) (statement : Statement)
  | enterSpace (file : Nat) (modifiers : ModifierFlags) (name : String)
  | leaveSpace (file : Nat) (statement : Statement)
  | finish (file : Nat)
  | addProgram (builder : Nat) (files : List Nat)

/-- How a workspace goes on by an action. Each file is built on the builder that `origin` names for it. -/
inductive Acts (origin : Nat → Nat) : Workspace → Action → Workspace → Prop
  | newBuilder (workspace : Workspace) : Acts origin workspace .newBuilder workspace.newBuilder
  | shareBuilder {before after : Workspace} {builder : Nat} (shared : before.shareBuilder builder = some after) :
    Acts origin before (.shareBuilder builder) after
  | openFile (workspace : Workspace) (name : String) :
    Acts origin workspace (.openFile name) (workspace.openFile (origin workspace.files.size) name)
  | declare {before after : Workspace} {file : Nat} {declaration : Declaration} {statement : Statement}
    (single : declaration.kind ≠ .moduleDeclaration)
    (declared : before.declare file [declaration] = some ([statement], after)) :
    Acts origin before (.declare file declaration statement) after
  | enterSpace {before after : Workspace} {file : Nat} {modifiers : ModifierFlags} {name : String}
    (entered : before.enterSpace file modifiers name = some ((), after)) :
    Acts origin before (.enterSpace file modifiers name) after
  | leaveSpace {before after : Workspace} {file : Nat} {statement : Statement}
    (left : before.leaveSpace file = some (statement, after)) : Acts origin before (.leaveSpace file statement) after
  | finish {before after : Workspace} {file : Nat} {done : SourceFile}
    (finished : before.finish file = some (done, after)) : Acts origin before (.finish file) after
  | addProgram {before after : Workspace} {builder : Nat} {files : List Nat}
    (made : before.addProgram builder files = some after) : Acts origin before (.addProgram builder files) after

/-- A call on a workspace, whatever it asks for. -/
inductive Call (origin : Nat → Nat) : Workspace → Workspace → Prop
  | acts {before after : Workspace} {action : Action} (acts : Acts origin before action after) :
    Call origin before after
  /-- Others may intern names in the stores as well. -/
  | intern (workspace : Workspace) (store : StoreId) (name : String) :
    Call origin workspace { workspace with interners := (workspace.interners.intern store name).2 }

/-- Calls have led to this workspace from a new one. -/
def Made (origin : Nat → Nat) (workspace : Workspace) : Prop :=
  ReflTransGen (Call origin) .initial workspace

/-- Whether every file of a workspace is sound, and the ids that a builder has drawn are exactly those
of its files. -/
structure Sound (origin : Nat → Nat) (workspace : Workspace) : Prop where
  stored : workspace.Stored
  own : ∀ (file : Nat) (target : OpenFile), workspace.growing? file = some target → target.builder = origin file
  files : ∀ (file : Nat) (state : FileState), workspace.files[file]? = some state →
    state.Sound (workspace.names (origin file))
  numbered : ∀ (file : Nat) (state : FileState), workspace.files[file]? = some state →
    state.Numbered (workspace.counter (origin file))
  apart : ∀ (file other : Nat) (state state' : FileState), workspace.files[file]? = some state →
    workspace.files[other]? = some state' → file ≠ other → origin file = origin other →
    state.drawn.Disjoint state'.drawn
  spent : ∀ builder index, index < workspace.counter builder →
    ∃ file state, workspace.files[file]? = some state ∧ origin file = builder ∧ index ∈ state.drawn

/-- How an action moves one file on: it draws ids from its builder. -/
structure Moves (origin : Nat → Nat) (before after : Workspace) (file : Nat) (state state' : FileState) : Prop where
  found : before.files[file]? = some state
  files : after.files = before.files.setIfInBounds file state'
  keeps : before.Keeps after
  stored : after.Stored
  own : ∀ target, state' = .growing target → target.builder = origin file
  others : ∀ builder, builder ≠ origin file → after.counter builder = before.counter builder
  drawn : ∃ count, after.counter (origin file) = before.counter (origin file) + count ∧
    state'.drawn = state.drawn ++ List.range' (before.counter (origin file)) count
  sound : state'.Sound (after.names (origin file))

theorem Moves.here {state state' : FileState} (moves : Moves origin before after file state state') :
    after.files[file]? = some state' := by
  have inside := (Array.getElem?_eq_some_iff.mp moves.found).1
  rw [moves.files, Array.getElem?_setIfInBounds, if_pos rfl, if_pos inside]

theorem Moves.elsewhere {state state' : FileState} (moves : Moves origin before after file state state') {other : Nat}
    (different : other ≠ file) : after.files[other]? = before.files[other]? := by
  rw [moves.files, Array.getElem?_setIfInBounds, if_neg (Ne.symm different)]

/-- What a call comes to. -/
inductive Change (origin : Nat → Nat) (before after : Workspace) : Prop
  | elsewhere (keeps : before.Keeps after) (stored : after.Stored) (files : after.files = before.files)
    (counter : ∀ builder, after.counter builder = before.counter builder)
  | opened (name : String) (after_eq : after = before.openFile (origin before.files.size) name)
  | moved {file : Nat} {state state' : FileState} (moves : Moves origin before after file state state')

/-! ### What a call comes to -/

theorem counter_setIfInBounds {owner : Builder} {builder : Nat} (owned : before.builders[builder]? = some owner)
    (counted : Builder) (other : Nat) :
    ({ before with builders := before.builders.setIfInBounds builder counted } : Workspace).counter other =
      if other = builder then counted.nextId else before.counter other := by
  have inside := (Array.getElem?_eq_some_iff.mp owned).1
  simp only [counter, Array.getElem?_setIfInBounds]
  by_cases same : other = builder
  · subst same
    simp [inside]
  · rw [if_neg (Ne.symm same), if_neg same]

theorem counter_addBuilder (workspace : Workspace) (store : StoreId) (builder : Nat) :
    (workspace.addBuilder store).counter builder = workspace.counter builder := by
  simp only [counter, addBuilder, Array.getElem?_push]
  by_cases last : builder = workspace.builders.size
  · simp [last]
  · rw [if_neg last]

namespace Grown

variable {target next : OpenFile} {owner : Builder} {start draft : Draft}

theorem moves (grown : before.Grown after file target next owner start draft) (sound : before.Sound origin)
    (extend : draft.Extends start) (same : next.builder = target.builder)
    (drawn : ∃ count, draft.nextId = start.nextId + count ∧
      Outline.indices next.forest = Outline.indices target.forest ++ List.range' start.nextId count)
    (stays : (FileState.growing target).Sound start.interner → (FileState.growing next).Sound draft.interner) :
    Moves origin before after file (.growing target) (.growing next) := by
  have own := sound.own file target grown.growing
  have found := growing?_eq_some_iff.mp grown.growing
  have namesBefore := grown.names_before
  have namesAfter := grown.names_after sound.stored
  -- the file has the builder that is counted on, so no other counter changes
  have counts (builder : Nat) : after.counter builder =
      if builder = origin file then draft.nextId else before.counter builder := by
    have counted := counter_setIfInBounds grown.owned { owner with nextId := draft.nextId } builder
    rw [own] at counted
    rw [grown.ends, own]
    exact counted
  have begins : before.counter (origin file) = start.nextId := by
    rw [← own, counter, grown.owned, grown.begins]
    rfl
  rw [own] at namesBefore namesAfter
  exact {
    found
    files := grown.files_after
    keeps := grown.keeps extend
    stored := grown.stored sound.stored
    own := by
      intro other here
      cases here
      rw [same, own]
    others := by
      intro builder different
      rw [counts, if_neg different]
    drawn := by
      rw [counts, if_pos rfl, begins]
      exact drawn
    sound := by
      rw [namesAfter]
      refine stays ?_
      rw [← namesBefore]
      exact sound.files file _ found }

end Grown

theorem Sound.declare (sound : before.Sound origin) {declarations : List Declaration} {added : List Statement}
    (declared : before.declare file declarations = some (added, after)) :
    ∃ state state', Moves origin before after file state state' := by
  obtain ⟨target, owner, start, draft, run, grown⟩ := declare_eq_some declared
  have begins : start.text = target.text := by rw [grown.begins]
  obtain ⟨new, made, adds⟩ := Layout.lays_statements declarations [] start
  rw [run] at made adds
  have outlines : Statement.outlines added = new := made
  let next : OpenFile := { target with text := draft.text, statements := target.statements ++ added }
  have forest : next.forest = target.forest ++ new := by
    rw [OpenFile.forest, OpenFile.forest, Statement.outlines_append, outlines, List.append_assoc]
  refine ⟨_, _, grown.moves sound adds.grows rfl ?_ fun old => old.extend adds begins rfl rfl forest⟩
  obtain ⟨count, counted, indices⟩ := adds.numbered
  refine ⟨count, counted, ?_⟩
  rw [forest, Outline.indices_append, indices]

theorem Sound.enterSpace (sound : before.Sound origin) {modifiers : ModifierFlags} {name : String}
    (entered : before.enterSpace file modifiers name = some ((), after)) :
    ∃ state state', Moves origin before after file state state' := by
  obtain ⟨target, owner, start, draft, node, identifier, run, grown⟩ := enterSpace_eq_some entered
  have begins : start.text = target.text := by rw [grown.begins]
  have lays : Layout.Lays [] (Layout.enterSpace modifiers name) fun entered => [.branch entered.1 [.leaf entered.2]] :=
    Layout.lays_enterSpace modifiers name
  obtain ⟨new, made, adds⟩ := lays start
  rw [run] at made adds
  -- the node has its id from now on; its end is set when the namespace is left
  have opened : [.branch node [.leaf identifier]] = new := made
  let next : OpenFile :=
    { target with
      text := draft.text, statements := []
      spaces := { node, name := identifier, outer := target.statements } :: target.spaces }
  have forest : next.forest = target.forest ++ new := by
    rw [← opened]
    exact List.append_nil _
  refine ⟨_, _, grown.moves sound adds.grows rfl ?_ fun old => old.extend adds begins rfl rfl forest⟩
  obtain ⟨count, counted, indices⟩ := adds.numbered
  refine ⟨count, counted, ?_⟩
  rw [forest, Outline.indices_append, indices]

theorem Sound.leaveSpace (sound : before.Sound origin) {statement : Statement}
    (left : before.leaveSpace file = some (statement, after)) :
    ∃ state state', Moves origin before after file state state' := by
  obtain ⟨target, owner, start, draft, space, spaces, opened, run, grown⟩ := leaveSpace_eq_some left
  have begins : start.text = target.text := by rw [grown.begins]
  obtain ⟨appended, _, _⟩ := Layout.leaveSpace_eq run
  -- nothing is drawn or interned here: the node keeps the id that it took when it was entered
  have drawn : draft.nextId = start.nextId ∧ draft.interner = start.interner := by
    cases run
    exact ⟨rfl, rfl⟩
  let next : OpenFile :=
    { target with text := draft.text ++ "\n", statements := space.outer ++ [statement], spaces }
  have extend : Draft.Extends { draft with text := draft.text ++ "\n" } start := by
    refine ⟨⟨"\x7d" ++ "\n", ?_⟩, ?_⟩
    · show draft.text ++ "\n" = _
      rw [appended, String.append_assoc]
    · show draft.interner.Extends _
      rw [drawn.2]
      exact .refl _
  refine ⟨_, _, grown.moves sound extend rfl ?_ ?_⟩
  · refine ⟨0, drawn.1, ?_⟩
    rw [List.range'_zero, List.append_nil]
    exact OpenFile.indices_leave opened run rfl rfl
  · intro old
    have left : (FileState.growing next).Sound start.interner := old.leave opened begins run rfl rfl rfl
    rw [← drawn.2] at left
    exact left

theorem Sound.finish (sound : before.Sound origin) {done : SourceFile}
    (finished : before.finish file = some (done, after)) :
    ∃ state, Moves origin before after file state (.finished done) := by
  have keeps := keeps_finish finished
  have stored := sound.stored.finish finished
  obtain ⟨target, owner, growing, owned, spaces, made, rfl⟩ := finish_eq_some finished
  have own := sound.own file target growing
  have found := growing?_eq_some_iff.mp growing
  have forest : target.forest = Statement.outlines done.statements := by
    rw [OpenFile.forest, spaces, made]
    rfl
  have counts (builder : Nat) := counter_setIfInBounds owned { owner with nextId := owner.nextId + 1 } builder
  have begins : before.counter (origin file) = owner.nextId := by
    rw [← own, counter, owned]
    rfl
  refine ⟨.growing target, {
    found, keeps, stored
    files := rfl
    own := fun _ here => by cases here
    others := ?_, drawn := ⟨1, ?_, ?_⟩, sound := ?_ }⟩
  · intro builder different
    rw [← own] at different
    exact (counts builder).trans (if_neg different)
  · rw [begins, ← own]
    exact (counts target.builder).trans (if_pos rfl)
  · show Outline.indices (Statement.outlines done.statements) ++ [done.id.index] = Outline.indices target.forest ++ _
    rw [forest, begins, made]
    rfl
  · have old := (sound.files file _ found).mono (keeps.names (origin file))
    have text : target.text = done.text := by rw [made]
    have laid : Laid target.text 0 target.text.utf8ByteSize target.forest := old.laid
    have known : ∀ name ∈ Outline.names target.forest, _ := old.known
    rw [forest] at laid known
    rw [text] at laid
    exact ⟨laid, known⟩

/-- Every call either leaves the files and the counters alone, or opens a file, or moves one file on. -/
theorem Sound.change (sound : before.Sound origin) (call : Call origin before after) : Change origin before after := by
  cases call with
  | intern store name =>
    exact .elsewhere (keeps_intern before store name) (sound.stored.intern store name) rfl fun _ => rfl
  | acts acts =>
    cases acts with
    | newBuilder =>
      exact .elsewhere (keeps_newBuilder before) sound.stored.newBuilder rfl (counter_addBuilder _ _)
    | shareBuilder shared =>
      have keeps := keeps_shareBuilder shared
      have stored := sound.stored.shareBuilder shared
      obtain ⟨owner, _, rfl⟩ := Option.map_eq_some_iff.mp shared
      exact .elsewhere keeps stored rfl (counter_addBuilder before _)
    | openFile name => exact .opened name rfl
    | declare single declared =>
      obtain ⟨_, _, moves⟩ := sound.declare declared
      exact .moved moves
    | enterSpace entered =>
      obtain ⟨_, _, moves⟩ := sound.enterSpace entered
      exact .moved moves
    | leaveSpace left =>
      obtain ⟨_, _, moves⟩ := sound.leaveSpace left
      exact .moved moves
    | finish finished =>
      obtain ⟨_, moves⟩ := sound.finish finished
      exact .moved moves
    | addProgram made =>
      have keeps := keeps_addProgram made
      obtain ⟨owner, sources, _, _, rfl⟩ := addProgram_eq_some made
      exact .elsewhere keeps sound.stored rfl fun _ => rfl

/-! ### What calls preserve -/

theorem initial_sound : initial.Sound origin where
  stored := initial_stored
  own _ _ found := by cases found
  files _ _ found := by cases found
  numbered _ _ found := by cases found
  apart _ _ _ _ found := by cases found
  spent builder index below := by
    exfalso
    match builder with
    | 0 => exact Nat.not_lt_zero _ below
    | _ + 1 => exact Nat.not_lt_zero _ below

theorem Sound.elsewhere (sound : before.Sound origin) (keeps : before.Keeps after) (stored : after.Stored)
    (files : after.files = before.files) (counter : ∀ builder, after.counter builder = before.counter builder) :
    after.Sound origin where
  stored := stored
  own file target growing := by
    rw [growing?_eq_some_iff, files] at growing
    exact sound.own file target (growing?_eq_some_iff.mpr growing)
  files file state found := by
    rw [files] at found
    exact (sound.files file state found).mono (keeps.names (origin file))
  numbered file state found := by
    rw [files] at found
    rw [counter]
    exact sound.numbered file state found
  apart file other state state' found found' := by
    rw [files] at found found'
    exact sound.apart file other state state' found found'
  spent builder index below := by
    rw [counter] at below
    rw [files]
    exact sound.spent builder index below

/-- A file of a workspace in which one is opened is the new one, or it was there before. -/
theorem present_openFile {owner : Nat} {name : String} {file : Nat} {state : FileState}
    (found : (before.openFile owner name).files[file]? = some state) :
    (file = before.files.size ∧ state = .growing { builder := owner, name }) ∨ before.files[file]? = some state := by
  simp only [Workspace.openFile, Array.getElem?_push] at found
  by_cases new : file = before.files.size
  · rw [if_pos new] at found
    cases found
    exact .inl ⟨new, rfl⟩
  · rw [if_neg new] at found
    exact .inr found

theorem Sound.openFile (sound : before.Sound origin) (name : String) :
    (before.openFile (origin before.files.size) name).Sound origin where
  stored := sound.stored
  own := by
    intro file target growing
    rcases present_openFile (growing?_eq_some_iff.mp growing) with ⟨here, new⟩ | old
    · cases new
      rw [here]
    · exact sound.own file target (growing?_eq_some_iff.mpr old)
  files := by
    intro file state found
    rcases present_openFile found with ⟨_, rfl⟩ | old
    · exact FileState.sound_new _ _ _
    · exact sound.files file state old
  numbered := by
    intro file state found
    rcases present_openFile found with ⟨_, rfl⟩ | old
    · exact ⟨.nil, fun _ mem => by cases mem⟩
    · exact sound.numbered file state old
  apart := by
    intro file other state state' found found' different same
    rcases present_openFile found with ⟨_, rfl⟩ | old
    · exact fun _ mem => by cases mem
    · rcases present_openFile found' with ⟨_, rfl⟩ | old'
      · exact fun _ _ mem => by cases mem
      · exact sound.apart file other state state' old old' different same
  spent := by
    intro builder index below
    obtain ⟨file, state, found, own, mem⟩ := sound.spent builder index below
    exact ⟨file, state, getElem?_push_of_some _ found, own, mem⟩

section
variable {state state' : FileState}

/-- A file of the new workspace is the one that has moved, or it was there before. -/
theorem Moves.present (moves : Moves origin before after file state state') {other : Nat} {found : FileState}
    (here : after.files[other]? = some found) :
    (other = file ∧ found = state') ∨ (other ≠ file ∧ before.files[other]? = some found) := by
  by_cases same : other = file
  · subst same
    cases moves.here.symm.trans here
    exact .inl ⟨rfl, rfl⟩
  · rw [moves.elsewhere same] at here
    exact .inr ⟨same, here⟩

theorem Moves.counter_le (moves : Moves origin before after file state state') (builder : Nat) :
    before.counter builder ≤ after.counter builder := by
  obtain ⟨count, counted, _⟩ := moves.drawn
  by_cases own : builder = origin file
  · rw [own, counted]
    exact Nat.le_add_right _ _
  · exact Nat.le_of_eq (moves.others builder own).symm

/-- An id of the file that has moved is not one of another file of its builder. -/
theorem Moves.not_mem_drawn (moves : Moves origin before after file state state') (sound : before.Sound origin)
    {other : Nat} {old : FileState} (found : before.files[other]? = some old) (different : other ≠ file)
    (same : origin other = origin file) {index : Nat} (mem : index ∈ old.drawn) : index ∉ state'.drawn := by
  obtain ⟨count, _, drawn⟩ := moves.drawn
  rw [drawn, List.mem_append, not_or]
  constructor
  · exact sound.apart other file old state found moves.found different same mem
  · intro new
    have small := (sound.numbered other old found).bounded index mem
    have large := (List.mem_range'_1.mp new).1
    rw [same] at small
    omega

/-- Every id that has been drawn is in a file, as one that is drawn goes to the file that moves. -/
theorem Moves.spent (moves : Moves origin before after file state state') (sound : before.Sound origin)
    {builder index : Nat} (small : index < after.counter builder) :
    ∃ other found, after.files[other]? = some found ∧ origin other = builder ∧ index ∈ found.drawn := by
  obtain ⟨count, counted, drawn⟩ := moves.drawn
  by_cases old : index < before.counter builder
  · obtain ⟨other, found, here, own, mem⟩ := sound.spent builder index old
    by_cases same : other = file
    · subst same
      cases moves.found.symm.trans here
      refine ⟨_, state', moves.here, own, ?_⟩
      rw [drawn]
      exact List.mem_append_left _ mem
    · exact ⟨other, found, (moves.elsewhere same).trans here, own, mem⟩
  · have own : builder = origin file := by
      by_contra different
      rw [moves.others builder different] at small
      exact old small
    refine ⟨file, state', moves.here, own.symm, ?_⟩
    rw [own] at old small
    rw [drawn]
    refine List.mem_append_right _ (List.mem_range'_1.mpr ?_)
    omega

theorem Sound.move (sound : before.Sound origin) (moves : Moves origin before after file state state') :
    after.Sound origin := by
  constructor
  · exact moves.stored
  · intro other target growing
    rcases moves.present (growing?_eq_some_iff.mp growing) with ⟨here, moved⟩ | ⟨_, old⟩
    · rw [here]
      exact moves.own target moved.symm
    · exact sound.own other target (growing?_eq_some_iff.mpr old)
  · intro other found here
    rcases moves.present here with ⟨rfl, rfl⟩ | ⟨_, old⟩
    · exact moves.sound
    · exact (sound.files other found old).mono (moves.keeps.names (origin other))
  · intro other found here
    rcases moves.present here with ⟨rfl, rfl⟩ | ⟨_, old⟩
    · obtain ⟨count, counted, drawn⟩ := moves.drawn
      rw [counted]
      exact (sound.numbered _ state moves.found).draw drawn
    · have numbered := sound.numbered other found old
      exact ⟨numbered.rising, fun index mem => Nat.lt_of_lt_of_le (numbered.bounded index mem) (moves.counter_le _)⟩
  · intro first second found found' here here' different same index mem mem'
    rcases moves.present here with ⟨rfl, rfl⟩ | ⟨_, old⟩ <;> rcases moves.present here' with ⟨rfl, rfl⟩ | ⟨_, old'⟩
    · exact different rfl
    · exact moves.not_mem_drawn sound old' (Ne.symm different) same.symm mem' mem
    · exact moves.not_mem_drawn sound old different same mem mem'
    · exact sound.apart _ _ _ _ old old' different same mem mem'
  · intro builder index small
    exact moves.spent sound small

end

theorem Sound.call (sound : before.Sound origin) (call : Call origin before after) : after.Sound origin := by
  cases sound.change call with
  | elsewhere keeps stored files counter => exact sound.elsewhere keeps stored files counter
  | opened name same =>
    rw [same]
    exact sound.openFile name
  | moved moves => exact sound.move moves

/-- Whatever calls come after each other, every file is sound. -/
theorem Sound.calls (sound : before.Sound origin) (calls : ReflTransGen (Call origin) before after) :
    after.Sound origin := by
  induction calls with
  | refl => exact sound
  | tail _ call ih => exact ih.call call

theorem Made.sound (made : Made origin workspace) : workspace.Sound origin :=
  initial_sound.calls made

/-! ### Programs -/

theorem Acts.keeps {action : Action} (acts : Acts origin before action after) : before.Keeps after := by
  cases acts with
  | newBuilder => exact keeps_newBuilder before
  | shareBuilder shared => exact keeps_shareBuilder shared
  | openFile name => exact keeps_openFile before _ name
  | declare single declared => exact keeps_declare declared
  | enterSpace entered => exact keeps_enterSpace entered
  | leaveSpace left => exact keeps_leaveSpace left
  | finish finished => exact keeps_finish finished
  | addProgram made => exact keeps_addProgram made

theorem Call.keeps (call : Call origin before after) : before.Keeps after := by
  cases call with
  | acts acts => exact acts.keeps
  | intern store name => exact keeps_intern before store name

/-- Whether a program has the store of a builder and consists of finished files. -/
structure Provides (workspace : Workspace) (program : Program) : Prop where
  owner : ∃ (builder : Nat) (owner : Builder), workspace.builders[builder]? = some owner ∧ owner.store = program.store
  files : ∀ file ∈ program.files, ∃ number, workspace.finished? number = some file

theorem Provides.keep {program : Program} (provides : before.Provides program) (keeps : before.Keeps after) :
    after.Provides program := by
  constructor
  · obtain ⟨builder, owner, owned, same⟩ := provides.owner
    obtain ⟨counted, owned', same'⟩ := keeps.stores builder owner owned
    exact ⟨builder, counted, owned', same'.trans same⟩
  · intro file mem
    obtain ⟨number, finished⟩ := provides.files file mem
    exact ⟨number, keeps.finished number file finished⟩

/-- A call leaves the programs alone or makes one of what is there. -/
theorem Call.programs (call : Call origin before after) : after.programs = before.programs ∨
    ∃ program : Program, after.programs = before.programs.push program ∧ before.Provides program := by
  cases call with
  | intern store name => exact .inl rfl
  | acts acts =>
    cases acts with
    | newBuilder => exact .inl rfl
    | shareBuilder shared =>
      obtain ⟨owner, _, rfl⟩ := Option.map_eq_some_iff.mp shared
      exact .inl rfl
    | openFile name => exact .inl rfl
    | declare single declared =>
      obtain ⟨_, _, _, _, _, grown⟩ := declare_eq_some declared
      exact .inl grown.programs_after
    | enterSpace entered =>
      obtain ⟨_, _, _, _, _, _, _, grown⟩ := enterSpace_eq_some entered
      exact .inl grown.programs_after
    | leaveSpace left =>
      obtain ⟨_, _, _, _, _, _, _, _, grown⟩ := leaveSpace_eq_some left
      exact .inl grown.programs_after
    | finish finished =>
      obtain ⟨_, _, _, _, _, _, rfl⟩ := finish_eq_some finished
      exact .inl rfl
    | addProgram made =>
      obtain ⟨owner, sources, owned, listed, rfl⟩ := addProgram_eq_some made
      refine .inr ⟨_, rfl, ⟨_, owner, owned, rfl⟩, fun file mem => ?_⟩
      obtain ⟨number, _, finished⟩ := exists_mem_of_forall₂ listed mem
      exact ⟨number, finished⟩

theorem Made.provides (made : Made origin workspace) {number : Nat} {program : Program}
    (found : workspace.programs[number]? = some program) : workspace.Provides program := by
  induction made generalizing number program with
  | refl => cases found
  | @tail before after _ call ih =>
    rcases call.programs with same | ⟨new, pushed, provides⟩
    · rw [same] at found
      exact (ih found).keep call.keeps
    · rw [pushed, Array.getElem?_push] at found
      by_cases last : number = before.programs.size
      · rw [if_pos last] at found
        cases found
        exact provides.keep call.keeps
      · rw [if_neg last] at found
        exact (ih found).keep call.keeps

/-- Programs consist of finished files. -/
theorem Made.program_files (made : Made origin workspace) {number : Nat} {program : Program}
    (found : workspace.programs[number]? = some program) {file : SourceFile} (mem : file ∈ program.files) :
    ∃ other, workspace.finished? other = some file :=
  (made.provides found).files file mem

end Workspace

end ExportLint
