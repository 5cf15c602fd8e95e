import ExportLint.Proofs.Growth

/-!
# Shifted trees

A tree that stands later in a text, and was built later, is the same tree with all of its positions and all of its
ids shifted. What is laid out for a declaration depends on the text and on the ids drawn before it in no other way:
from two drafts that differ by a number of bytes and a number of ids, every step of laying out makes the same up to
that shift, with the same names, though their symbols may differ. This is shown once for each step, from the
smallest to whole statements, and carried through sequences of steps.
-/

namespace ExportLint

/-- The range a number of bytes later. -/
def Range.shift (bytes : Nat) (range : Range) : Range where
  start := .ofNat (range.start.toNat + bytes)
  stop := .ofNat (range.stop.toNat + bytes)

/-- The node a number of bytes and a number of ids later. -/
def Node.shift (bytes ids : Nat) (node : Node) : Node :=
  { node with range := node.range.shift bytes, id := ⟨node.id.index + ids⟩ }

/-! ### Trees with other nodes and symbols -/

section
variable (onNode : Node → Node) (onSymbol : Symbol → Symbol)

def Identifier.relabel (name : Identifier) : Identifier where
  node := onNode name.node
  symbol := onSymbol name.symbol
  name := name.name

def BindingElement.relabel (element : BindingElement) : BindingElement where
  node := onNode element.node
  name := element.name.relabel onNode onSymbol

def Binding.relabel : Binding → Binding
  | .identifier name => .identifier (name.relabel onNode onSymbol)
  | .pattern shape node elements => .pattern shape (onNode node) (elements.map (·.relabel onNode onSymbol))

def VariableDeclaration.relabel (declared : VariableDeclaration) : VariableDeclaration where
  node := onNode declared.node
  binding := declared.binding.relabel onNode onSymbol

def VariableList.relabel (list : VariableList) : VariableList where
  node := onNode list.node
  declarations := list.declarations.map (·.relabel onNode onSymbol)

def ExportSpecifier.relabel (specifier : ExportSpecifier) : ExportSpecifier where
  node := onNode specifier.node
  name := specifier.name.relabel onNode onSymbol

namespace Statement

mutual

/-- The statement in which every node and every symbol is replaced, down to the last namespace. -/
def relabel : Statement → Statement
  | variableDecl node list => variableDecl (onNode node) (list.relabel onNode onSymbol)
  | function node name => function (onNode node) (name.map (·.relabel onNode onSymbol))
  | classDecl node name => classDecl (onNode node) (name.map (·.relabel onNode onSymbol))
  | interface node name => interface (onNode node) (name.relabel onNode onSymbol)
  | typeAlias node name => typeAlias (onNode node) (name.relabel onNode onSymbol)
  | enum node name => enum (onNode node) (name.relabel onNode onSymbol)
  | module node name body => module (onNode node) (name.relabel onNode onSymbol) (relabels body)
  | exports node typeOnly clause source =>
    exports (onNode node) typeOnly (clause.map (·.map (·.relabel onNode onSymbol))) source
  | assignment node equals => assignment (onNode node) equals
  | empty node => empty (onNode node)

def relabels : List Statement → List Statement
  | [] => []
  | first :: rest => first.relabel :: relabels rest

end

theorem relabels_eq_map (statements : List Statement) :
    relabels onNode onSymbol statements = statements.map (relabel onNode onSymbol) := by
  induction statements with
  | nil => rw [relabels, List.map_nil]
  | cons first rest ih => rw [relabels, ih, List.map_cons]

end Statement

end

/-- The statement a number of bytes and a number of ids later. -/
def Statement.shift (bytes ids : Nat) (statement : Statement) : Statement :=
  statement.relabel (Node.shift bytes ids) fun symbol => symbol

/-- The one symbol of all names that are compared by their spelling. -/
def Symbol.blank (_ : Symbol) : Symbol :=
  ⟨0⟩

/-- The statement with its names as they are spelled, without their symbols. -/
def Statement.spelled (statement : Statement) : Statement :=
  statement.relabel (fun node => node) Symbol.blank

/-! ### Relabelling twice -/

section
variable (onNode onNode' : Node → Node) (onSymbol onSymbol' : Symbol → Symbol)

@[simp]
theorem Identifier.relabel_relabel (name : Identifier) : (name.relabel onNode onSymbol).relabel onNode' onSymbol' =
    name.relabel (onNode' ∘ onNode) (onSymbol' ∘ onSymbol) := rfl

@[simp]
theorem BindingElement.relabel_relabel (element : BindingElement) :
    (element.relabel onNode onSymbol).relabel onNode' onSymbol' =
      element.relabel (onNode' ∘ onNode) (onSymbol' ∘ onSymbol) := rfl

@[simp]
theorem Binding.relabel_relabel (binding : Binding) : (binding.relabel onNode onSymbol).relabel onNode' onSymbol' =
    binding.relabel (onNode' ∘ onNode) (onSymbol' ∘ onSymbol) := by
  cases binding with
  | identifier name => rfl
  | pattern shape node elements => simp [relabel]

@[simp]
theorem VariableDeclaration.relabel_relabel (declared : VariableDeclaration) :
    (declared.relabel onNode onSymbol).relabel onNode' onSymbol' =
      declared.relabel (onNode' ∘ onNode) (onSymbol' ∘ onSymbol) := by
  simp [relabel]

@[simp]
theorem VariableList.relabel_relabel (list : VariableList) :
    (list.relabel onNode onSymbol).relabel onNode' onSymbol' =
      list.relabel (onNode' ∘ onNode) (onSymbol' ∘ onSymbol) := by
  simp [relabel]

@[simp]
theorem ExportSpecifier.relabel_relabel (specifier : ExportSpecifier) :
    (specifier.relabel onNode onSymbol).relabel onNode' onSymbol' =
      specifier.relabel (onNode' ∘ onNode) (onSymbol' ∘ onSymbol) := rfl

mutual

theorem Statement.relabel_relabel (onNode onNode' : Node → Node) (onSymbol onSymbol' : Symbol → Symbol)
    (statement : Statement) : (statement.relabel onNode onSymbol).relabel onNode' onSymbol' =
      statement.relabel (onNode' ∘ onNode) (onSymbol' ∘ onSymbol) := by
  cases statement with
  | module node name body =>
    simp only [Statement.relabel, Identifier.relabel_relabel, Function.comp_apply]
    rw [Statement.relabels_relabels onNode onNode' onSymbol onSymbol' body]
  | exports node typeOnly clause source =>
    cases clause <;> simp [Statement.relabel]
  | function node name => cases name <;> simp [Statement.relabel]
  | classDecl node name => cases name <;> simp [Statement.relabel]
  | _ => simp [Statement.relabel]

theorem Statement.relabels_relabels (onNode onNode' : Node → Node) (onSymbol onSymbol' : Symbol → Symbol)
    (statements : List Statement) :
    Statement.relabels onNode' onSymbol' (Statement.relabels onNode onSymbol statements) =
      Statement.relabels (onNode' ∘ onNode) (onSymbol' ∘ onSymbol) statements := by
  cases statements with
  | nil => rfl
  | cons first rest =>
    simp only [Statement.relabels]
    rw [Statement.relabel_relabel onNode onNode' onSymbol onSymbol' first,
      Statement.relabels_relabels onNode onNode' onSymbol onSymbol' rest]

end

end

/-! ### Steps that do not depend on what came before -/

/-- Whether a draft is a number of bytes and a number of ids ahead of another one. -/
structure Draft.Ahead (bytes ids : Nat) (draft later : Draft) : Prop where
  text : later.text.utf8ByteSize = draft.text.utf8ByteSize + bytes
  nextId : later.nextId = draft.nextId + ids

theorem Draft.Ahead.here {bytes ids : Nat} {draft later : Draft} (ahead : draft.Ahead bytes ids later) :
    Offset.ofText later.text = .ofNat ((Offset.ofText draft.text).toNat + bytes) := by
  rw [Offset.ofText, Offset.ofText, ahead.text, ← UInt32.toNat_inj]
  simp

/-- A way to replace the nodes and the symbols of a tree, or of something with trees in it. -/
abbrev Relabel (α : Type) := (Node → Node) → (Symbol → Symbol) → α → α

namespace Relabel

variable {α : Type}

/-- There is nothing to replace. -/
def nothing : Relabel Unit := fun _ _ done => done

def symbol : Relabel Symbol := fun _ onSymbol => onSymbol

/-- A node with something inside it. -/
def around (relabel : Relabel α) : Relabel (Node × α) := fun onNode onSymbol made =>
  (onNode made.1, relabel onNode onSymbol made.2)

def each (relabel : Relabel α) : Relabel (List α) := fun onNode onSymbol => List.map (relabel onNode onSymbol)

def optional (relabel : Relabel α) : Relabel (Option α) := fun onNode onSymbol => Option.map (relabel onNode onSymbol)

end Relabel

namespace Layout

variable {α β : Type} {bytes ids : Nat}

/-- Whether two trees are spelled alike, where the second one is shifted. -/
def Alike (bytes ids : Nat) (relabel : Relabel α) (made made' : α) : Prop :=
  relabel (fun node => node) Symbol.blank made' = relabel (Node.shift bytes ids) Symbol.blank made

theorem Alike.node {relabel : Relabel α} {made made' : Node × α} (alike : Alike bytes ids relabel.around made made') :
    made'.1 = made.1.shift bytes ids :=
  congrArg Prod.fst alike

theorem Alike.inside {relabel : Relabel α} {made made' : Node × α}
    (alike : Alike bytes ids relabel.around made made') : Alike bytes ids relabel made.2 made'.2 :=
  congrArg Prod.snd alike

/-- Whether two steps make trees that are alike from two drafts of which the second is ahead, and keep it ahead. -/
def Even (bytes ids : Nat) (relabel : Relabel α) (step step' : Layout α) : Prop :=
  ∀ draft later : Draft, draft.Ahead bytes ids later →
    Alike bytes ids relabel (step.run draft).1 (step'.run later).1 ∧
      (step.run draft).2.Ahead bytes ids (step'.run later).2

/-- Whether a step is even with itself. -/
abbrev Steady (bytes ids : Nat) (relabel : Relabel α) (step : Layout α) : Prop :=
  Even bytes ids relabel step step

variable {relabel : Relabel α} {relabel' : Relabel β} {step step' : Layout α}

theorem Even.pure {value value' : α} (alike : Alike bytes ids relabel value value') :
    Even bytes ids relabel (Pure.pure value) (Pure.pure value') := by
  intro draft later ahead
  exact ⟨alike, ahead⟩

theorem Even.bind {next next' : α → Layout β} (first : Even bytes ids relabel step step')
    (second : ∀ value value', Alike bytes ids relabel value value' →
      Even bytes ids relabel' (next value) (next' value')) :
    Even bytes ids relabel' (step >>= next) (step' >>= next') := by
  intro draft later ahead
  obtain ⟨alike, ahead'⟩ := first draft later ahead
  exact second _ _ alike _ _ ahead'

/-- The value of a step does not matter where the next one does not ask for it. -/
theorem Even.next {next next' : Layout β} (first : Steady bytes ids relabel step)
    (second : Even bytes ids relabel' next next') :
    Even bytes ids relabel' (step >>= fun _ => next) (step >>= fun _ => next') :=
  first.bind fun _ _ _ => second

theorem steady_write (text : String) : Steady bytes ids .nothing (write text) := by
  intro draft later ahead
  refine ⟨rfl, ?_, ahead.nextId⟩
  show (later.text ++ text).utf8ByteSize = (draft.text ++ text).utf8ByteSize + bytes
  rw [String.utf8ByteSize_append, String.utf8ByteSize_append, ahead.text]
  omega

theorem steady_symbol (name : String) : Steady bytes ids .symbol (symbol name) := by
  intro draft later ahead
  exact ⟨rfl, ahead.text, ahead.nextId⟩

theorem steady_node (relabel : Relabel α) (flags : NodeFlags) (modifiers : ModifierFlags)
    (steady : Steady bytes ids relabel step) : Steady bytes ids relabel.around (node flags modifiers step) := by
  intro draft later ahead
  let drawn : Draft := { draft with nextId := draft.nextId + 1 }
  let drawn' : Draft := { later with nextId := later.nextId + 1 }
  have aheadInside : drawn.Ahead bytes ids drawn' := by
    refine ⟨ahead.text, ?_⟩
    show later.nextId + 1 = draft.nextId + 1 + ids
    rw [ahead.nextId]
    omega
  obtain ⟨alike, aheadAfter⟩ := steady drawn drawn' aheadInside
  refine ⟨?_, aheadAfter⟩
  have range : (⟨.ofText later.text, .ofText (step.run drawn').2.text⟩ : Range) =
      Range.shift bytes ⟨.ofText draft.text, .ofText (step.run drawn).2.text⟩ := by
    rw [ahead.here, aheadAfter.here]
    rfl
  have number : (⟨later.nextId⟩ : NodeId) = ⟨draft.nextId + ids⟩ := by rw [ahead.nextId]
  have shifted := congrArg₂ (fun range id => ({ range, flags, modifiers, id } : Node)) range number
  exact congrArg₂ Prod.mk shifted alike

theorem steady_plain (relabel : Relabel α) (steady : Steady bytes ids relabel step) :
    Steady bytes ids relabel.around (plain step) :=
  steady_node relabel .none .none steady

theorem steady_modified (relabel : Relabel α) (flags : NodeFlags) (modifiers : ModifierFlags)
    (steady : Steady bytes ids relabel step) : Steady bytes ids relabel.around (modified flags modifiers step) :=
  steady_node relabel flags modifiers (.next (steady_write _) steady)

theorem steady_commas {item : α → Layout β} (each : ∀ element, Steady bytes ids relabel' (item element))
    (elements : List α) : Steady bytes ids relabel'.each (commas item elements) := by
  induction elements with
  | nil => exact .pure rfl
  | cons first rest ih =>
    cases rest with
    | nil => exact (each first).bind fun _ _ same => .pure (congrArg ([·]) same)
    | cons second rest =>
      refine (each first).bind fun value value' same => ?_
      refine .next (steady_write ", ") ?_
      refine ih.bind fun values values' others => ?_
      exact .pure (congrArg₂ List.cons same others)

theorem steady_identifier (name : String) : Steady bytes ids Identifier.relabel (identifier name) := by
  refine .bind (steady_plain .symbol ?_) fun made made' same => ?_
  · exact .next (steady_write name) (steady_symbol name)
  · exact .pure (congrArg₂ (fun node symbol => Identifier.mk node symbol name) same.node same.inside)

theorem steady_writeOption (lead : String) (text : Option String) :
    Steady bytes ids .nothing (writeOption lead text) := by
  cases text with
  | none => exact .pure rfl
  | some text => exact .next (steady_write lead) (steady_write text)

theorem steady_optionalName (name : Option String) :
    Steady bytes ids (.optional Identifier.relabel) (optionalName name) := by
  cases name with
  | none => exact .pure rfl
  | some name =>
    refine .next (steady_write " ") ?_
    exact (steady_identifier name).bind fun _ _ same => .pure (congrArg some same)

theorem steady_bindingElement (name : String) : Steady bytes ids BindingElement.relabel (bindingElement name) := by
  refine (steady_plain _ (steady_identifier name)).bind fun made made' same => ?_
  exact .pure (congrArg₂ BindingElement.mk same.node same.inside)

theorem steady_pattern (shape : PatternShape) (opening closing : String) (names : List String) :
    Steady bytes ids Binding.relabel (pattern shape opening closing names) := by
  refine .bind (steady_plain (.each BindingElement.relabel) ?_) fun made made' same => ?_
  · refine .next (steady_write opening) ?_
    refine (steady_commas steady_bindingElement names).bind fun elements elements' same => ?_
    exact .next (steady_write closing) (.pure same)
  · exact .pure (congrArg₂ (Binding.pattern shape) same.node same.inside)

theorem steady_binding (declared : DeclaredBinding) : Steady bytes ids Binding.relabel (binding declared) := by
  cases declared with
  | name name => exact (steady_identifier name).bind fun _ _ same => .pure (congrArg Binding.identifier same)
  | object names => exact steady_pattern _ _ _ names
  | array names => exact steady_pattern _ _ _ names

theorem steady_declarator (declared : Declarator) :
    Steady bytes ids VariableDeclaration.relabel (declarator declared) := by
  refine .bind (steady_plain Binding.relabel ?_) fun made made' same => ?_
  · refine (steady_binding declared.binding).bind fun binding binding' same => ?_
    refine .next (steady_writeOption ": " declared.type) ?_
    exact .next (steady_writeOption " = " declared.value) (.pure same)
  · exact .pure (congrArg₂ VariableDeclaration.mk same.node same.inside)

theorem steady_variableList (flags : NodeFlags) (declarators : List Declarator) :
    Steady bytes ids VariableList.relabel (variableList flags declarators) := by
  refine .bind (steady_node (.each VariableDeclaration.relabel) _ _ ?_) fun made made' same => ?_
  · exact .next (steady_write (variableKeyword flags)) (steady_commas steady_declarator declarators)
  · exact .pure (congrArg₂ VariableList.mk same.node same.inside)

theorem steady_exportSpecifier (name : String) : Steady bytes ids ExportSpecifier.relabel (exportSpecifier name) := by
  refine (steady_plain _ (steady_identifier name)).bind fun made made' same => ?_
  exact .pure (congrArg₂ ExportSpecifier.mk same.node same.inside)

theorem steady_nameBetween (keyword name opening body closing : String) :
    Steady bytes ids Identifier.relabel (do
      write keyword
      let name ← identifier name
      write opening
      write body
      write closing
      return name) := by
  refine .next (steady_write keyword) ?_
  refine (steady_identifier name).bind fun made made' same => ?_
  exact .next (steady_write opening) (.next (steady_write body) (.next (steady_write closing) (.pure same)))

theorem steady_words (first second third : String) :
    Steady bytes ids .nothing (do
      write first
      write second
      write third) :=
  .next (steady_write first) (.next (steady_write second) (steady_write third))

theorem steady_enterSpace (modifiers : ModifierFlags) (name : String) :
    Steady bytes ids (.around Identifier.relabel) (enterSpace modifiers name) := by
  refine .bind (steady_modified Identifier.relabel _ _ ?_) fun made made' same => ?_
  · exact .next (steady_write "namespace ") (steady_identifier name)
  · exact .next (steady_write " \x7b\n") (.pure same)

/-- The node of a namespace begins where it was entered, and ends where it is left. -/
theorem even_leaveSpace {entered entered' : Node × Identifier} {body body' : List Statement}
    (same : Alike bytes ids (.around Identifier.relabel) entered entered')
    (inner : Alike bytes ids Statement.relabels body body') :
    Even bytes ids Statement.relabel (leaveSpace entered.1 entered.2 body)
      (leaveSpace entered'.1 entered'.2 body') := by
  obtain ⟨node, name⟩ := entered
  obtain ⟨node', name'⟩ := entered'
  have shifted : node' = node.shift bytes ids := same.node
  have alike : Alike bytes ids Identifier.relabel name name' := same.inside
  refine .next (steady_write "\x7d") ?_
  intro draft later ahead
  refine ⟨?_, ahead⟩
  show Statement.relabel _ _ (.module { node' with range := ⟨node'.range.start, .ofText later.text⟩ } name' body') =
    Statement.relabel _ _ (.module { node with range := ⟨node.range.start, .ofText draft.text⟩ } name body)
  rw [Statement.relabel, Statement.relabel, alike, inner, shifted, ahead.here]
  rfl

mutual

theorem steady_statement (bytes ids : Nat) (declaration : Declaration) :
    Steady bytes ids Statement.relabel (statement declaration) := by
  cases declaration with
  | typeAlias modifiers name type =>
    rw [statement]
    refine (steady_modified _ _ _ (steady_nameBetween _ name _ _ _)).bind fun made made' same => ?_
    exact .pure (congrArg₂ Statement.typeAlias same.node same.inside)
  | interface modifiers name members =>
    rw [statement]
    refine (steady_modified _ _ _ (steady_nameBetween _ name _ _ _)).bind fun made made' same => ?_
    exact .pure (congrArg₂ Statement.interface same.node same.inside)
  | variableDecl modifiers flags declarators =>
    rw [statement]
    refine .bind (steady_modified VariableList.relabel _ _ ?_) fun made made' same => ?_
    · refine (steady_variableList flags declarators).bind fun list list' same => ?_
      exact .next (steady_write ";") (.pure same)
    · exact .pure (congrArg₂ Statement.variableDecl same.node same.inside)
  | function modifiers name parameters returns =>
    rw [statement]
    refine .bind (steady_modified (.optional Identifier.relabel) _ _ ?_) fun made made' same => ?_
    · refine .next (steady_write "function") ?_
      refine (steady_optionalName name).bind fun name name' same => ?_
      refine .next (steady_write "(") (.next (steady_write _) (.next (steady_write ")") ?_))
      exact .next (steady_writeOption ": " returns) (.next (steady_write " \x7b\x7d") (.pure same))
    · exact .pure (congrArg₂ Statement.function same.node same.inside)
  | classDecl modifiers name =>
    rw [statement]
    refine .bind (steady_modified (.optional Identifier.relabel) _ _ ?_) fun made made' same => ?_
    · refine .next (steady_write "class") ?_
      refine (steady_optionalName name).bind fun name name' same => ?_
      exact .next (steady_write " \x7b\x7d") (.pure same)
    · exact .pure (congrArg₂ Statement.classDecl same.node same.inside)
  | enum modifiers name members =>
    rw [statement]
    refine (steady_modified _ _ _ (steady_nameBetween _ name _ _ _)).bind fun made made' same => ?_
    exact .pure (congrArg₂ Statement.enum same.node same.inside)
  | space modifiers name body =>
    rw [statement]
    refine (steady_enterSpace modifiers name).bind fun entered entered' same => ?_
    refine (steady_statements bytes ids body).bind fun body body' inner => ?_
    exact even_leaveSpace same inner
  | exportNames typeOnly names source =>
    rw [statement]
    refine .bind (steady_plain (.each ExportSpecifier.relabel) ?_) fun made made' same => ?_
    · refine .next (steady_write "export ") (.next (steady_write _) (.next (steady_write "\x7b ") ?_))
      refine (steady_commas steady_exportSpecifier names).bind fun specifiers specifiers' same => ?_
      exact .next (steady_write " \x7d") (.next (steady_write _) (.next (steady_write ";") (.pure same)))
    · exact .pure (congrArg₂ (fun node specifiers => Statement.exports node typeOnly (some specifiers) source)
        same.node same.inside)
  | exportAll source =>
    rw [statement]
    refine (steady_plain _ (steady_words _ _ _)).bind fun made made' same => ?_
    exact .pure (congrArg (Statement.exports · false none (some source)) same.node)
  | exportValue equals expression =>
    rw [statement]
    refine (steady_plain _ (steady_words _ _ _)).bind fun made made' same => ?_
    exact .pure (congrArg (Statement.assignment · equals) same.node)
  | empty =>
    rw [statement]
    refine (steady_plain _ (steady_write ";")).bind fun made made' same => ?_
    exact .pure (congrArg Statement.empty same.node)

theorem steady_statements (bytes ids : Nat) (declarations : List Declaration) :
    Steady bytes ids Statement.relabels (statements declarations) := by
  cases declarations with
  | nil =>
    rw [statements]
    exact .pure rfl
  | cons first rest =>
    rw [statements]
    refine (steady_statement bytes ids first).bind fun value value' same => ?_
    refine .next (steady_write "\n") ?_
    refine (steady_statements bytes ids rest).bind fun values values' others => ?_
    exact .pure (congrArg₂ List.cons same others)

end

/-- What is laid out later is what is laid out earlier, shifted. -/
theorem spelled_statements {draft later : Draft} (ahead : draft.Ahead bytes ids later)
    (declarations : List Declaration) :
    ((statements declarations).run later).1.map Statement.spelled =
      ((statements declarations).run draft).1.map fun statement => (statement.shift bytes ids).spelled := by
  have alike := (steady_statements bytes ids declarations draft later ahead).1
  unfold Alike at alike
  rw [Statement.relabels_eq_map, Statement.relabels_eq_map] at alike
  refine alike.trans (List.map_congr_left fun statement _ => ?_)
  rw [Statement.spelled, Statement.shift, Statement.relabel_relabel]
  rfl

end Layout

end ExportLint
