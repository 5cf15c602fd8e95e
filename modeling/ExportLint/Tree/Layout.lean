import ExportLint.Tree.Declaration
import ExportLint.Tree.Node

/-!
# Layout

Writing declarations as text and building their trees at the same time. A node takes its id when its
text begins, so before the nodes inside it, and its range covers what is written while it is laid
out. Every statement is followed by a line feed that belongs to no statement.
-/

namespace ExportLint

/-- What has been laid out so far: the text, the id of the next node, and the names in use. -/
structure Draft where
  text : String := ""
  nextId : Nat := 0
  interner : Interner

/-- A step of laying out. -/
abbrev Layout := StateM Draft

namespace Layout

/-- The end of the text so far. -/
def here : Layout Offset :=
  return .ofText (← get).text

/-- Appends to the text. -/
def write (text : String) : Layout Unit :=
  modify fun draft => { draft with text := draft.text ++ text }

/-- Takes the next id. -/
def freshId : Layout NodeId :=
  modifyGet fun draft => (⟨draft.nextId⟩, { draft with nextId := draft.nextId + 1 })

/-- The symbol of a name. -/
def symbol (name : String) : Layout Symbol :=
  modifyGet fun draft =>
    let (symbol, interner) := draft.interner.intern name
    (symbol, { draft with interner })

variable {α β : Type}

/-- Lays out a node around what is inside it. -/
def node (flags : NodeFlags) (modifiers : ModifierFlags) (inside : Layout α) : Layout (Node × α) := do
  let start ← here
  let id ← freshId
  let value ← inside
  let stop ← here
  return ({ range := ⟨start, stop⟩, flags, modifiers, id }, value)

/-- Lays out a node without flags and modifiers. -/
def plain (inside : Layout α) : Layout (Node × α) :=
  node .none .none inside

/-- Lays out items with commas between them. -/
def commas (item : α → Layout β) : List α → Layout (List β)
  | [] => return []
  | [last] => return [← item last]
  | first :: rest => do
    let value ← item first
    write ", "
    let values ← commas item rest
    return value :: values

/-- Lays out an identifier. -/
def identifier (name : String) : Layout Identifier := do
  let (node, symbol) ← plain do
    write name
    symbol name
  return { node, symbol, name }

/-- Writes a text after what introduces it, if there is one. -/
def writeOption (lead : String) : Option String → Layout Unit
  | some text => do
    write lead
    write text
  | none => return ()

/-- The words of modifiers in the order in which they are written. -/
def modifierWords : List (ModifierFlags × String) :=
  [(ModifierFlags.exported, "export "), (ModifierFlags.byDefault, "default "),
    (ModifierFlags.ambient, "declare "), (ModifierFlags.abstractClass, "abstract "),
    (ModifierFlags.asynchronous, "async ")]

/-- The text of a set of modifiers. -/
def modifierText (modifiers : ModifierFlags) : String :=
  String.join ((modifierWords.filter fun (flag, _) => modifiers.contains flag).map (·.2))

/-- Lays out a statement that begins with its modifiers. -/
def modified (flags : NodeFlags) (modifiers : ModifierFlags) (inside : Layout α) : Layout (Node × α) :=
  node flags modifiers do
    write (modifierText modifiers)
    inside

/-- Lays out one name of a binding pattern. -/
def bindingElement (name : String) : Layout BindingElement := do
  let (node, name) ← plain (identifier name)
  return { node, name }

/-- Lays out a binding pattern between its brackets. -/
def pattern (shape : PatternShape) (opening closing : String) (names : List String) : Layout Binding := do
  let (node, elements) ← plain do
    write opening
    let elements ← commas bindingElement names
    write closing
    return elements
  return .pattern shape node elements

/-- Lays out what a declarator binds. -/
def binding : DeclaredBinding → Layout Binding
  | .name name => return .identifier (← identifier name)
  | .object names => pattern .object "\x7b " " \x7d" names
  | .array names => pattern .array "[" "]" names

/-- Lays out a declarator. -/
def declarator (declared : Declarator) : Layout VariableDeclaration := do
  let (node, binding) ← plain do
    let binding ← binding declared.binding
    writeOption ": " declared.type
    writeOption " = " declared.value
    return binding
  return { node, binding }

/-- The keyword that the flags of a variable statement choose. -/
def variableKeyword (flags : NodeFlags) : String :=
  if flags.contains NodeFlags.constList then "const "
  else if flags.contains NodeFlags.letList then "let "
  else "var "

/-- Lays out the keyword and the declarators of a variable statement. -/
def variableList (flags : NodeFlags) (declarators : List Declarator) : Layout VariableList := do
  let (node, declarations) ← node flags .none do
    write (variableKeyword flags)
    commas declarator declarators
  return { node, declarations }

/-- Lays out one name of an export list. -/
def exportSpecifier (name : String) : Layout ExportSpecifier := do
  let (node, name) ← plain (identifier name)
  return { node, name }

/-- Lays out a name after a keyword, if there is one. -/
def optionalName : Option String → Layout (Option Identifier)
  | some name => do
    write " "
    return some (← identifier name)
  | none => return none

/-- The text of an annotated name: a parameter, or a member of an interface. -/
def annotated (entry : String × String) : String :=
  entry.1 ++ ": " ++ entry.2

/-- The text that names the module of an export. -/
def sourceText : Option String → String
  | some source => " from \"" ++ source ++ "\""
  | none => ""

/-- Lays out the beginning of a namespace: its node so far, and its name. -/
def enterSpace (modifiers : ModifierFlags) (name : String) : Layout (Node × Identifier) := do
  let entered ← modified NodeFlags.namespaceBlock modifiers do
    write "namespace "
    identifier name
  write " \x7b\n"
  return entered

/-- Lays out the end of a namespace around the statements in it. -/
def leaveSpace (node : Node) (name : Identifier) (body : List Statement) : Layout Statement := do
  write "\x7d"
  return .module { node with range := ⟨node.range.start, ← here⟩ } name body

mutual

/-- Lays out a statement. -/
def statement : Declaration → Layout Statement
  | .typeAlias modifiers name type => do
    let (node, name) ← modified .none modifiers do
      write "type "
      let name ← identifier name
      write " = "
      write type
      write ";"
      return name
    return .typeAlias node name
  | .interface modifiers name members => do
    let (node, name) ← modified .none modifiers do
      write "interface "
      let name ← identifier name
      write " \x7b"
      write (String.join (members.map fun member => " " ++ annotated member ++ ";"))
      write " \x7d"
      return name
    return .interface node name
  | .variableDecl modifiers flags declarators => do
    let (node, list) ← modified .none modifiers do
      let list ← variableList flags declarators
      write ";"
      return list
    return .variableDecl node list
  | .function modifiers name parameters returns => do
    let (node, name) ← modified .none modifiers do
      write "function"
      let name ← optionalName name
      write "("
      write (", ".intercalate (parameters.map annotated))
      write ")"
      writeOption ": " returns
      write " \x7b\x7d"
      return name
    return .function node name
  | .classDecl modifiers name => do
    let (node, name) ← modified .none modifiers do
      write "class"
      let name ← optionalName name
      write " \x7b\x7d"
      return name
    return .classDecl node name
  | .enum modifiers name members => do
    let (node, name) ← modified .none modifiers do
      write "enum "
      let name ← identifier name
      write " \x7b "
      write (", ".intercalate members)
      write " \x7d"
      return name
    return .enum node name
  | .space modifiers name body => do
    let (node, name) ← enterSpace modifiers name
    let body ← statements body
    leaveSpace node name body
  | .exportNames typeOnly names source => do
    let (node, specifiers) ← plain do
      write "export "
      write (if typeOnly then "type " else "")
      write "\x7b "
      let specifiers ← commas exportSpecifier names
      write " \x7d"
      write (sourceText source)
      write ";"
      return specifiers
    return .exports node typeOnly (some specifiers) source
  | .exportAll source => do
    let (node, _) ← plain do
      write "export *"
      write (sourceText (some source))
      write ";"
    return .exports node false none (some source)
  | .exportValue equals expression => do
    let (node, _) ← plain do
      write (if equals then "export = " else "export default ")
      write expression
      write ";"
    return .assignment node equals
  | .empty => do
    let (node, _) ← plain (write ";")
    return .empty node

/-- Lays out statements, each followed by a line feed. -/
def statements : List Declaration → Layout (List Statement)
  | [] => return []
  | first :: rest => do
    let value ← statement first
    write "\n"
    let values ← statements rest
    return value :: values

end

end Layout

end ExportLint
