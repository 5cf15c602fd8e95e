import ExportLint.Program.Basic
import ExportLint.Tree.Layout

/-!
# Workspaces

Builders, the files that are being built on them, and the programs made of finished files. A builder
numbers the nodes of all its files from one counter, whichever file grows next, and interns their
names in its store, which other builders may share.
-/

namespace ExportLint

/-- The store of a builder's names, and the id of its next node. -/
structure Builder where
  store : StoreId
  nextId : Nat := 0
  deriving Repr, DecidableEq

/-- A namespace that is being built: its node so far, its name, and the statements before it. -/
structure OpenSpace where
  node : Node
  name : Identifier
  outer : List Statement
  deriving Repr

/-- A file that is being built: its builder, its name, and what it consists of so far. While namespaces
are open, the statements are those of the innermost one. -/
structure OpenFile where
  builder : Nat
  name : String
  text : String := ""
  statements : List Statement := []
  /-- The open namespaces, the innermost one first. -/
  spaces : List OpenSpace := []
  deriving Repr

/-- A file in either state of its life. -/
inductive FileState where
  | growing (file : OpenFile)
  | finished (file : SourceFile)
  deriving Repr

/-- Builders, files and programs, each numbered in the order in which they were made. -/
structure Workspace where
  interners : Interners := .empty
  builders : Array Builder := #[]
  files : Array FileState := #[]
  programs : Array Program := #[]

namespace Workspace

/-- The workspace with one more builder on a store. -/
def addBuilder (workspace : Workspace) (store : StoreId) : Workspace :=
  { workspace with builders := workspace.builders.push { store } }

/-- The workspace with one more builder, on a store of its own. -/
def newBuilder (workspace : Workspace) : Workspace :=
  let (store, interners) := workspace.interners.fresh
  { workspace with interners }.addBuilder store

/-- The workspace with one more builder, on the store of another. -/
def shareBuilder (workspace : Workspace) (builder : Nat) : Option Workspace :=
  workspace.builders[builder]?.map fun other => workspace.addBuilder other.store

/-- A workspace with one builder. -/
def initial : Workspace :=
  ({} : Workspace).newBuilder

/-- The present names of a builder. -/
def names (workspace : Workspace) (builder : Nat) : Interner :=
  (workspace.builders[builder]?.map fun builder => workspace.interners.contents builder.store).getD .empty

/-- The workspace with one more file, to be built on a builder. -/
def openFile (workspace : Workspace) (builder : Nat) (name : String) : Workspace :=
  { workspace with files := workspace.files.push (.growing { builder, name }) }

/-- The file of a number, while it is being built. -/
def growing? (workspace : Workspace) (file : Nat) : Option OpenFile :=
  match workspace.files[file]? with
  | some (.growing file) => some file
  | _ => none

/-- The file of a number, when it is finished. -/
def finished? (workspace : Workspace) (file : Nat) : Option SourceFile :=
  match workspace.files[file]? with
  | some (.finished file) => some file
  | _ => none

/-- The workspace in which a file is in another state. -/
def setFile (workspace : Workspace) (file : Nat) (state : FileState) : Workspace :=
  { workspace with files := workspace.files.setIfInBounds file state }

/-- The workspace in which a builder has another counter and other names. -/
def setBuilder (workspace : Workspace) (builder : Nat) (state : Builder) (names : Interner) : Workspace :=
  { workspace with
    builders := workspace.builders.setIfInBounds builder state
    interners := workspace.interners.replace state.store names }

/-- Lets a file grow by a step of laying out, which gives a value and what the file consists of then. The
step may be refused. -/
def grow {α : Type} (workspace : Workspace) (file : Nat) (step : OpenFile → Option (Layout (α × OpenFile))) :
    Option (α × Workspace) := do
  let target ← workspace.growing? file
  let builder ← workspace.builders[target.builder]?
  let step ← step target
  let draft : Draft :=
    { text := target.text, nextId := builder.nextId, interner := workspace.interners.contents builder.store }
  let ((value, grown), draft) := step.run draft
  return (value,
    (workspace.setBuilder target.builder { builder with nextId := draft.nextId } draft.interner).setFile file
      (.growing { grown with text := draft.text }))

/-- Appends statements to a file, or to the innermost namespace that is open in it, and gives them with
the workspace after that. -/
def declare (workspace : Workspace) (file : Nat) (declarations : List Declaration) :
    Option (List Statement × Workspace) :=
  workspace.grow file fun target => some do
    let added ← Layout.statements declarations
    return (added, { target with statements := target.statements ++ added })

/-- Opens a namespace in a file: what is appended from now on goes into it. -/
def enterSpace (workspace : Workspace) (file : Nat) (modifiers : ModifierFlags) (name : String) :
    Option (Unit × Workspace) :=
  workspace.grow file fun target => some do
    let (node, name) ← Layout.enterSpace modifiers name
    return ((), { target with
      statements := []
      spaces := { node, name, outer := target.statements } :: target.spaces })

/-- Closes the innermost namespace of a file, and gives its statement with the workspace after that. -/
def leaveSpace (workspace : Workspace) (file : Nat) : Option (Statement × Workspace) :=
  workspace.grow file fun target =>
    match target.spaces with
    | [] => none
    | space :: spaces => some do
      let statement ← Layout.leaveSpace space.node space.name target.statements
      Layout.write "\n"
      return (statement, { target with statements := space.outer ++ [statement], spaces })

/-- Finishes a file in which no namespace is open: it takes the next id of its builder, and nothing can be
appended any more. -/
def finish (workspace : Workspace) (file : Nat) : Option (SourceFile × Workspace) := do
  let target ← workspace.growing? file
  let builder ← workspace.builders[target.builder]?
  guard target.spaces.isEmpty
  let done : SourceFile :=
    { id := ⟨builder.nextId⟩, name := target.name, text := target.text, statements := target.statements }
  let counted := { builder with nextId := builder.nextId + 1 }
  return (done,
    { workspace with builders := workspace.builders.setIfInBounds target.builder counted }.setFile file
      (.finished done))

/-- The workspace with one more program, of finished files and on the store of a builder. -/
def addProgram (workspace : Workspace) (builder : Nat) (files : List Nat) : Option Workspace := do
  let owner ← workspace.builders[builder]?
  let files ← files.mapM workspace.finished?
  return { workspace with programs := workspace.programs.push { store := owner.store, files } }

/-- A program with the present contents of its store. -/
def program? (workspace : Workspace) (program : Nat) : Option (Program × Interner) :=
  workspace.programs[program]?.map fun program => (program, workspace.interners.contents program.store)

end Workspace

end ExportLint
