/-!
# Node kinds

The kinds of syntax nodes, with the names under which they are shown.
-/

namespace ExportLint

/-- What a syntax node is. -/
inductive NodeKind where
  | sourceFile
  | identifier
  | objectBindingPattern
  | arrayBindingPattern
  | bindingElement
  | variableStatement
  | variableDeclarationList
  | variableDeclaration
  | functionDeclaration
  | classDeclaration
  | interfaceDeclaration
  | typeAliasDeclaration
  | enumDeclaration
  | moduleDeclaration
  | exportDeclaration
  | exportSpecifier
  | exportAssignment
  | emptyStatement
  deriving Repr, DecidableEq

namespace NodeKind

/-- The name of a kind. -/
def text : NodeKind → String
  | sourceFile => "SourceFile"
  | identifier => "Identifier"
  | objectBindingPattern => "ObjectBindingPattern"
  | arrayBindingPattern => "ArrayBindingPattern"
  | bindingElement => "BindingElement"
  | variableStatement => "VariableStatement"
  | variableDeclarationList => "VariableDeclarationList"
  | variableDeclaration => "VariableDeclaration"
  | functionDeclaration => "FunctionDeclaration"
  | classDeclaration => "ClassDeclaration"
  | interfaceDeclaration => "InterfaceDeclaration"
  | typeAliasDeclaration => "TypeAliasDeclaration"
  | enumDeclaration => "EnumDeclaration"
  | moduleDeclaration => "ModuleDeclaration"
  | exportDeclaration => "ExportDeclaration"
  | exportSpecifier => "ExportSpecifier"
  | exportAssignment => "ExportAssignment"
  | emptyStatement => "EmptyStatement"

/-- Every kind. -/
def all : List NodeKind :=
  [sourceFile, identifier, objectBindingPattern, arrayBindingPattern, bindingElement, variableStatement,
    variableDeclarationList, variableDeclaration, functionDeclaration, classDeclaration, interfaceDeclaration,
    typeAliasDeclaration, enumDeclaration, moduleDeclaration, exportDeclaration, exportSpecifier,
    exportAssignment, emptyStatement]

/-- The kind of a name. -/
def ofText? (name : String) : Option NodeKind :=
  all.find? (·.text == name)

/-- Whether nodes of this kind introduce a type by name: aliases and interfaces. -/
def isTypeDeclaration : NodeKind → Bool
  | interfaceDeclaration | typeAliasDeclaration => true
  | _ => false

theorem ofText?_text (kind : NodeKind) : ofText? kind.text = some kind := by
  cases kind <;> decide

end NodeKind

end ExportLint
