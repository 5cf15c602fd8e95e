import ExportLint.Tree.Node

/-!
# Exported entities

What a statement brings into being that an export may be checked for: variables, functions and
classes. Entities without a plain name are known, but not checked.
-/

namespace ExportLint

/-- One entity that a statement declares, with the node whose type it has. -/
inductive Entity where
  | binding (name : String) (node : NodeId)
  | function (name : String) (node : NodeId)
  | classDecl (name : String) (node : NodeId)
  /-- A pattern, or a function or class without a name. -/
  | unsupported (node : NodeId)
  deriving Repr, DecidableEq

namespace Entity

/-- The node of the entity. -/
def node : Entity → NodeId
  | binding _ node | function _ node | classDecl _ node | unsupported node => node

/-- The word for the shape of the entity. -/
def shape : Entity → String
  | binding _ _ => "variable"
  | function _ _ => "function"
  | classDecl _ _ => "class"
  | unsupported _ => "unsupported"

/-- The name of the entity and the node to check, if it can be checked. -/
def checked? : Entity → Option (String × NodeId)
  | binding name node | function name node | classDecl name node => some (name, node)
  | unsupported _ => none

/-- The entity of a declarator. -/
def ofDeclarator (declared : VariableDeclaration) : Entity :=
  match declared.binding with
  | .identifier name => .binding name.name declared.node.id
  | .pattern _ _ _ => .unsupported declared.node.id

end Entity

/-- The entities that a statement declares, one for each declarator of a variable statement. -/
def Statement.entities : Statement → List Entity
  | .variableDecl _ list => list.declarations.map Entity.ofDeclarator
  | .function node (some name) => [.function name.name node.id]
  | .classDecl node (some name) => [.classDecl name.name node.id]
  | .function node none | .classDecl node none => [.unsupported node.id]
  | _ => []

/-- The named exports of a file that can be checked: the statement, the name and the node to check. -/
def SourceFile.checkedExports (file : SourceFile) : List (Statement × String × NodeId) :=
  file.namedExports.flatMap fun statement =>
    (statement.entities.filterMap Entity.checked?).map fun checked => (statement, checked)

end ExportLint
