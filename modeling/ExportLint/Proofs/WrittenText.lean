import ExportLint.Proofs.Writing

/-!
# The text of declarations

What is written for a declaration, as a text on its own. It depends on the declaration only: laying it out
appends this text to whatever there is, and the range of the statement covers exactly this text. The text of a
file is the text of its declarations, each with a line feed after it.
-/

namespace ExportLint

open Layout (modifierText variableKeyword annotated sourceText)

/-! ### What is written -/

/-- A text after what introduces it, if there is one. -/
def optionText (lead : String) : Option String → String
  | some text => lead ++ text
  | none => ""

def DeclaredBinding.text : DeclaredBinding → String
  | .name word => word
  | .object names => "\x7b " ++ ", ".intercalate names ++ " \x7d"
  | .array names => "[" ++ ", ".intercalate names ++ "]"

def Declarator.text (declared : Declarator) : String :=
  declared.binding.text ++ optionText ": " declared.type ++ optionText " = " declared.value

namespace Declaration

/-- The beginning of a namespace, with the line feed after its opening brace. -/
def spaceHead (modifiers : ModifierFlags) (name : String) : String :=
  modifierText modifiers ++ "namespace " ++ name ++ " \x7b\n"

mutual

/-- The text of a declaration. -/
def text : Declaration → String
  | typeAlias modifiers name type => modifierText modifiers ++ "type " ++ name ++ " = " ++ type ++ ";"
  | interface modifiers name members =>
    modifierText modifiers ++ "interface " ++ name ++ " \x7b" ++
      String.join (members.map fun member => " " ++ annotated member ++ ";") ++ " \x7d"
  | variableDecl modifiers flags declarators =>
    modifierText modifiers ++ variableKeyword flags ++ ", ".intercalate (declarators.map Declarator.text) ++ ";"
  | function modifiers name parameters returns =>
    modifierText modifiers ++ "function" ++ optionText " " name ++ "(" ++ ", ".intercalate (parameters.map annotated) ++
      ")" ++ optionText ": " returns ++ " \x7b\x7d"
  | classDecl modifiers name => modifierText modifiers ++ "class" ++ optionText " " name ++ " \x7b\x7d"
  | enum modifiers name members =>
    modifierText modifiers ++ "enum " ++ name ++ " \x7b " ++ ", ".intercalate members ++ " \x7d"
  | space modifiers name body => spaceHead modifiers name ++ lines body ++ "\x7d"
  | exportNames typeOnly names source =>
    "export " ++ (if typeOnly then "type " else "") ++ "\x7b " ++ ", ".intercalate names ++ " \x7d" ++
      sourceText source ++ ";"
  | exportAll source => "export *" ++ sourceText (some source) ++ ";"
  | exportValue equals expression => (if equals then "export = " else "export default ") ++ expression ++ ";"
  | empty => ";"

/-- The text of declarations, each with a line feed after it. -/
def lines : List Declaration → String
  | [] => ""
  | first :: rest => first.text ++ "\n" ++ lines rest

end

theorem lines_append (first second : List Declaration) : lines (first ++ second) = lines first ++ lines second := by
  induction first with
  | nil => simp [lines]
  | cons declaration rest ih => rw [List.cons_append, lines, lines, ih, ← String.append_assoc]

theorem text_ne_empty (declaration : Declaration) : declaration.text ≠ "" := by
  cases declaration <;> simp [text, spaceHead, String.append_eq_empty_iff]

end Declaration

/-! ### Steps that write a text -/

namespace Layout

variable {α β : Type} {step : Layout α} {text : String}

/-- Whether a step of laying out appends this text, whatever there is before it. -/
def Writes (step : Layout α) (text : String) : Prop :=
  ∀ draft : Draft, (step.run draft).2.text = draft.text ++ text

theorem Writes.pure (value : α) : Writes (Pure.pure value) "" := fun _ => String.append_empty.symm

theorem Writes.bind {next : α → Layout β} {more : String} (first : Writes step text)
    (second : ∀ value, Writes (next value) more) : Writes (step >>= next) (text ++ more) := by
  intro draft
  have rest := second (step.run draft).1 (step.run draft).2
  rw [first draft, String.append_assoc] at rest
  exact rest

/-- A step that only gives a value after another one writes nothing more. -/
theorem Writes.map {next : α → Layout β} (first : Writes step text) (second : ∀ value, Writes (next value) "") :
    Writes (step >>= next) text := by
  have both := first.bind second
  rwa [String.append_empty] at both

theorem writes_write (text : String) : Writes (write text) text := fun _ => rfl

theorem writes_node (flags : NodeFlags) (modifiers : ModifierFlags) (inside : Writes step text) :
    Writes (node flags modifiers step) text := fun draft => inside { draft with nextId := draft.nextId + 1 }

theorem writes_plain (inside : Writes step text) : Writes (plain step) text := writes_node .none .none inside

theorem writes_modified (flags : NodeFlags) (modifiers : ModifierFlags) (inside : Writes step text) :
    Writes (modified flags modifiers step) (modifierText modifiers ++ text) :=
  writes_node flags modifiers ((writes_write _).bind fun _ => inside)

theorem writes_identifier (name : String) : Writes (identifier name) name := fun _ => rfl

theorem writes_writeOption (lead : String) (text : Option String) :
    Writes (writeOption lead text) (optionText lead text) := by
  cases text with
  | none => exact .pure ()
  | some text => exact (writes_write lead).bind fun _ => writes_write text

theorem writes_optionalName (name : Option String) : Writes (optionalName name) (optionText " " name) := by
  cases name with
  | none => exact .pure none
  | some name => exact (writes_write " ").bind fun _ => (writes_identifier name).map fun _ => .pure _

theorem writes_commas {item : α → Layout β} {textOf : α → String}
    (each : ∀ element, Writes (item element) (textOf element)) (elements : List α) :
    Writes (commas item elements) (", ".intercalate (elements.map textOf)) := by
  induction elements with
  | nil => exact .pure []
  | cons first rest ih =>
    cases rest with
    | nil =>
      rw [List.map_singleton, String.intercalate_singleton]
      exact (each first).map fun _ => .pure _
    | cons second rest =>
      rw [List.map_cons, List.map_cons, String.intercalate_cons_cons, String.append_assoc]
      exact (each first).bind fun _ => (writes_write ", ").bind fun _ => ih.map fun _ => .pure _

theorem writes_bindingElement (name : String) : Writes (bindingElement name) name :=
  (writes_plain (writes_identifier name)).map fun _ => .pure _

theorem writes_pattern (shape : PatternShape) (opening closing : String) (names : List String) :
    Writes (pattern shape opening closing names) (opening ++ (", ".intercalate names ++ closing)) := by
  have elements : Writes (commas bindingElement names) (", ".intercalate (names.map id)) :=
    writes_commas writes_bindingElement names
  rw [List.map_id] at elements
  exact (writes_plain ((writes_write opening).bind fun _ => elements.bind fun _ =>
    (writes_write closing).map fun _ => .pure _)).map fun _ => .pure _

theorem writes_binding (declared : DeclaredBinding) : Writes (binding declared) declared.text := by
  cases declared with
  | name name => exact (writes_identifier name).map fun _ => .pure _
  | object names =>
    rw [DeclaredBinding.text, String.append_assoc]
    exact writes_pattern _ _ _ names
  | array names =>
    rw [DeclaredBinding.text, String.append_assoc]
    exact writes_pattern _ _ _ names

theorem writes_declarator (declared : Declarator) : Writes (declarator declared) declared.text := by
  rw [Declarator.text, String.append_assoc]
  exact (writes_plain ((writes_binding _).bind fun _ => (writes_writeOption _ _).bind fun _ =>
    (writes_writeOption _ _).map fun _ => .pure _)).map fun _ => .pure _

theorem writes_variableList (flags : NodeFlags) (declarators : List Declarator) :
    Writes (variableList flags declarators)
      (variableKeyword flags ++ ", ".intercalate (declarators.map Declarator.text)) :=
  (writes_node _ _ ((writes_write _).bind fun _ => writes_commas writes_declarator declarators)).map fun _ => .pure _

theorem writes_exportSpecifier (name : String) : Writes (exportSpecifier name) name :=
  (writes_plain (writes_identifier name)).map fun _ => .pure _

theorem writes_enterSpace (modifiers : ModifierFlags) (name : String) :
    Writes (enterSpace modifiers name) (Declaration.spaceHead modifiers name) := by
  have head : modifierText modifiers ++ "namespace " ++ name = modifierText modifiers ++ ("namespace " ++ name) :=
    String.append_assoc
  rw [Declaration.spaceHead, head]
  exact (writes_modified _ _ ((writes_write _).bind fun _ => writes_identifier name)).bind fun _ =>
    (writes_write _).map fun _ => .pure _

theorem writes_leaveSpace (node : Node) (name : Identifier) (body : List Statement) :
    Writes (leaveSpace node name body) "\x7d" := fun _ => rfl

theorem writes_nameBetween (keyword name opening body closing : String) :
    Writes (do
      write keyword
      let name ← identifier name
      write opening
      write body
      write closing
      return name) (keyword ++ (name ++ (opening ++ (body ++ closing)))) :=
  (writes_write keyword).bind fun _ => (writes_identifier name).bind fun _ => (writes_write opening).bind fun _ =>
    (writes_write body).bind fun _ => (writes_write closing).map fun _ => .pure _

theorem writes_words (first second third : String) :
    Writes (plain do
      write first
      write second
      write third) (first ++ (second ++ third)) :=
  writes_plain ((writes_write first).bind fun _ => (writes_write second).bind fun _ => writes_write third)

mutual

/-- Laying out a declaration appends its text. -/
theorem writes_statement (declaration : Declaration) : Writes (statement declaration) declaration.text := by
  cases declaration with
  | typeAlias modifiers name type =>
    rw [statement, Declaration.text]
    simp only [String.append_assoc]
    exact (writes_modified _ _ (writes_nameBetween _ name _ _ _)).map fun _ => .pure _
  | interface modifiers name members =>
    rw [statement, Declaration.text]
    simp only [String.append_assoc]
    exact (writes_modified _ _ (writes_nameBetween _ name _ _ _)).map fun _ => .pure _
  | variableDecl modifiers flags declarators =>
    rw [statement, Declaration.text]
    have list := writes_variableList flags declarators
    have inside := writes_modified .none modifiers
      (list.bind fun list => (writes_write ";").map fun _ => .pure list)
    simp only [← String.append_assoc] at inside
    exact inside.map fun _ => .pure _
  | function modifiers name parameters returns =>
    rw [statement, Declaration.text]
    simp only [String.append_assoc]
    exact (writes_modified _ _ ((writes_write _).bind fun _ => (writes_optionalName _).bind fun _ =>
      (writes_write _).bind fun _ => (writes_write _).bind fun _ => (writes_write _).bind fun _ =>
      (writes_writeOption _ _).bind fun _ => (writes_write _).map fun _ => .pure _)).map fun _ => .pure _
  | classDecl modifiers name =>
    rw [statement, Declaration.text]
    simp only [String.append_assoc]
    exact (writes_modified _ _ ((writes_write _).bind fun _ => (writes_optionalName _).bind fun _ =>
      (writes_write _).map fun _ => .pure _)).map fun _ => .pure _
  | enum modifiers name members =>
    rw [statement, Declaration.text]
    simp only [String.append_assoc]
    exact (writes_modified _ _ (writes_nameBetween _ name _ _ _)).map fun _ => .pure _
  | space modifiers name body =>
    rw [statement, Declaration.text, String.append_assoc]
    exact (writes_enterSpace modifiers name).bind fun _ => (writes_statements body).bind fun _ =>
      writes_leaveSpace _ _ _
  | exportNames typeOnly names source =>
    rw [statement, Declaration.text]
    simp only [String.append_assoc]
    have specifiers : Writes (commas exportSpecifier names) (", ".intercalate (names.map id)) :=
      writes_commas writes_exportSpecifier names
    rw [List.map_id] at specifiers
    exact (writes_plain ((writes_write _).bind fun _ => (writes_write _).bind fun _ => (writes_write _).bind fun _ =>
      specifiers.bind fun _ => (writes_write _).bind fun _ => (writes_write _).bind fun _ =>
      (writes_write _).map fun _ => .pure _)).map fun _ => .pure _
  | exportAll source =>
    rw [statement, Declaration.text, String.append_assoc]
    exact (writes_words _ _ _).map fun _ => .pure _
  | exportValue equals expression =>
    rw [statement, Declaration.text, String.append_assoc]
    exact (writes_words _ _ _).map fun _ => .pure _
  | empty =>
    rw [statement, Declaration.text]
    exact (writes_plain (writes_write _)).map fun _ => .pure _

theorem writes_statements (declarations : List Declaration) :
    Writes (statements declarations) (Declaration.lines declarations) := by
  cases declarations with
  | nil =>
    rw [statements, Declaration.lines]
    exact .pure []
  | cons first rest =>
    rw [statements, Declaration.lines, String.append_assoc]
    exact (writes_statement first).bind fun _ => (writes_write "\n").bind fun _ =>
      (writes_statements rest).map fun _ => .pure _

end

end Layout

/-! ### Statements that are written -/

/-- Whether a statement of a text was written for a declaration: its range covers the text of the declaration,
which stands there, and it has the modifiers and the names that were asked for. -/
structure Statement.Written (text : String) (declaration : Declaration) (statement : Statement) : Prop
    extends Statement.Records declaration statement where
  covers : ∃ start : Nat, StandsAt text start declaration.text ∧
    statement.node.range = ⟨.ofNat start, .ofNat (start + declaration.text.utf8ByteSize)⟩

theorem standsAt_append (before piece : String) : StandsAt (before ++ piece) before.utf8ByteSize piece :=
  ⟨before, "", String.append_empty.symm, rfl⟩

theorem StandsAt.grow {text piece : String} {start : Nat} (stands : StandsAt text start piece) (more : String) :
    StandsAt (text ++ more) start piece := by
  obtain ⟨before, after, split, count⟩ := stands
  exact ⟨before, after ++ more, by rw [split, String.append_assoc], count⟩

theorem StandsAt.inside {text piece : String} {start : Nat} (stands : StandsAt text start piece) :
    start + piece.utf8ByteSize ≤ text.utf8ByteSize := by
  obtain ⟨before, after, rfl, rfl⟩ := stands
  rw [String.utf8ByteSize_append, String.utf8ByteSize_append]
  omega

/-- The range of a statement covers the text of its declaration. -/
theorem Layout.range_eq (declaration : Declaration) (draft : Draft) :
    ((statement declaration).run draft).1.node.range = ⟨.ofNat draft.text.utf8ByteSize,
      .ofNat (draft.text.utf8ByteSize + declaration.text.utf8ByteSize)⟩ := by
  rw [range_statement, writes_statement, Offset.ofText, Offset.ofText, String.utf8ByteSize_append]

end ExportLint
