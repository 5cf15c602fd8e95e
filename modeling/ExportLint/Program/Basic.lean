import ExportLint.Tree.Node

/-!
# Programs

The source files of one run in the order in which they were given, and the types that they declare
at top level. A program keeps the number of the store in which the names of its files are looked up.
-/

namespace ExportLint

/-- An alias or an interface at the top level of a file. -/
structure TypeDeclaration where
  file : SourceFile
  name : Identifier
  node : NodeId
  kind : NodeKind
  deriving Repr

/-- The aliases and interfaces at the top level of a file, in order. -/
def SourceFile.typeDeclarations (file : SourceFile) : List TypeDeclaration :=
  file.statements.filterMap fun statement =>
    statement.typeName?.map fun name => { file, name, node := statement.id, kind := statement.kind }

/-- The files of one run. -/
structure Program where
  store : StoreId
  files : List SourceFile
  deriving Repr

namespace Program

/-- The first file of a name. -/
def file? (program : Program) (name : String) : Option SourceFile :=
  program.files.find? (·.name == name)

/-- The aliases and interfaces at the top level of every file, in the order of the files. -/
def typeDeclarations (program : Program) : List TypeDeclaration :=
  program.files.flatMap SourceFile.typeDeclarations

/-- The first declaration of a type name. Names are compared by symbol in the store of the program;
files that were built on another store may use the same symbol for another name, so the spelling
counts as well. A name without a symbol is declared nowhere. -/
def declaration? (program : Program) (store : Interner) (name : String) : Option TypeDeclaration := do
  let symbol ← store.find? name
  program.typeDeclarations.find? fun declared => declared.name.symbol == symbol && declared.name.name == name

end Program

end ExportLint
