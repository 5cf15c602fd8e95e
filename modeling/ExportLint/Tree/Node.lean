import ExportLint.Flags
import ExportLint.Interning
import ExportLint.Text.LineMap
import ExportLint.Text.Span
import ExportLint.Tree.Kind

/-!
# Syntax trees

The trees of source files. Every node has a range in the text of its file, flags, modifiers and an
id; the other fields of a node are what later stages look at. What a node is follows from its type,
so nodes do not repeat their kind.
-/

namespace ExportLint

/-- The number of a syntax node. -/
structure NodeId where
  index : Nat
  deriving Repr, DecidableEq

namespace NodeId

/-- The number that no node has. -/
def invalid : NodeId :=
  ⟨4294967295⟩

/-- The debugging form. -/
def text (id : NodeId) : String :=
  s!"NodeId({id.index})"

end NodeId

/-- What every node has. -/
structure Node where
  range : Range
  flags : NodeFlags := .none
  modifiers : ModifierFlags := .none
  id : NodeId
  deriving Repr, DecidableEq

/-- A name in the text, with its symbol. -/
structure Identifier where
  node : Node
  symbol : Symbol
  name : String
  deriving Repr, DecidableEq

/-- One name of a binding pattern. -/
structure BindingElement where
  node : Node
  name : Identifier
  deriving Repr, DecidableEq

/-- The two brackets of binding patterns. -/
inductive PatternShape where
  | object
  | array
  deriving Repr, DecidableEq

/-- What a declarator binds: a name or the names of a pattern. -/
inductive Binding where
  | identifier (name : Identifier)
  | pattern (shape : PatternShape) (node : Node) (elements : List BindingElement)
  deriving Repr, DecidableEq

/-- One declarator of a variable statement. -/
structure VariableDeclaration where
  node : Node
  binding : Binding
  deriving Repr, DecidableEq

/-- The declarators of a variable statement, with the keyword before them. -/
structure VariableList where
  node : Node
  declarations : List VariableDeclaration
  deriving Repr, DecidableEq

/-- One name of an export list. -/
structure ExportSpecifier where
  node : Node
  name : Identifier
  deriving Repr, DecidableEq

/-- A statement of a source file or of a namespace. -/
inductive Statement where
  | variableDecl (node : Node) (list : VariableList)
  | function (node : Node) (name : Option Identifier)
  | classDecl (node : Node) (name : Option Identifier)
  | interface (node : Node) (name : Identifier)
  | typeAlias (node : Node) (name : Identifier)
  | enum (node : Node) (name : Identifier)
  | module (node : Node) (name : Identifier) (body : List Statement)
  | exports (node : Node) (typeOnly : Bool) (clause : Option (List ExportSpecifier)) (source : Option String)
  | assignment (node : Node) (equals : Bool)
  | empty (node : Node)
  deriving Repr

namespace Statement

/-- What the statement has as a node. -/
def node : Statement → Node
  | variableDecl node _ | function node _ | classDecl node _ | interface node _ | typeAlias node _ | enum node _
  | module node _ _ | exports node _ _ _ | assignment node _ | empty node => node

/-- The id of the statement. -/
def id (statement : Statement) : NodeId :=
  statement.node.id

/-- The nodes whose ids are given out for the statement: its declarators for a variable statement, and
otherwise the statement itself. -/
def handles : Statement → List Node
  | variableDecl _ list => list.declarations.map VariableDeclaration.node
  | statement => [statement.node]

/-- The kind of the statement. -/
def kind : Statement → NodeKind
  | variableDecl _ _ => .variableStatement
  | function _ _ => .functionDeclaration
  | classDecl _ _ => .classDeclaration
  | interface _ _ => .interfaceDeclaration
  | typeAlias _ _ => .typeAliasDeclaration
  | enum _ _ => .enumDeclaration
  | module _ _ _ => .moduleDeclaration
  | exports _ _ _ _ => .exportDeclaration
  | assignment _ _ => .exportAssignment
  | empty _ => .emptyStatement

/-- Whether the declaration is exported under its own name: `export` without `default`. -/
def isNamedExport (statement : Statement) : Bool :=
  statement.node.modifiers.contains ModifierFlags.exported &&
    !statement.node.modifiers.contains ModifierFlags.byDefault

/-- The name that an alias or an interface introduces. -/
def typeName? : Statement → Option Identifier
  | interface _ name | typeAlias _ name => some name
  | _ => none

end Statement

/-- A source file: its name, its text and its top-level statements. -/
structure SourceFile where
  id : NodeId
  name : String
  text : String
  statements : List Statement
  deriving Repr

namespace SourceFile

/-- The file as a node covers its whole text. -/
def node (file : SourceFile) : Node where
  range := ⟨0, .ofText file.text⟩
  id := file.id

/-- Where the lines of the file begin. -/
def lineMap (file : SourceFile) : LineMap :=
  .ofText file.text

/-- The line and column of an offset in the file. -/
def locate (file : SourceFile) (offset : Offset) : Except Fault Location :=
  file.lineMap.locate offset

/-- The top-level statements that are exported under their own names, in order. -/
def namedExports (file : SourceFile) : List Statement :=
  file.statements.filter Statement.isNamedExport

end SourceFile

end ExportLint
