import ExportLint.Program.Basic
import ExportLint.Program.Exports
import ExportLint.Proofs.Growth

/-!
# Written declarations

What a declaration asks for, and that the statement laid out for it records exactly that: its kind, its
modifiers, the type name that it declares, and the names that it binds. The ids that are given out for the
statement are its own, or those of its declarators, one for each declarator that was asked for and in order.
-/

namespace ExportLint

/-- Where two lists are related element by element, every element of the second is related to one of the first. -/
theorem exists_mem_of_forall₂ {α β : Type} {rel : α → β → Prop} {first : List α} {second : List β}
    (related : List.Forall₂ rel first second) {element : β} (mem : element ∈ second) :
    ∃ other ∈ first, rel other element := by
  induction related with
  | nil => cases mem
  | cons head _ ih =>
    rcases List.mem_cons.mp mem with here | later
    · exact ⟨_, List.mem_cons_self, here ▸ head⟩
    · obtain ⟨other, among, rel⟩ := ih later
      exact ⟨other, List.mem_cons_of_mem _ among, rel⟩

/-! ### What is asked for -/

namespace Declaration

/-- The kind of the statement that is asked for. -/
def kind : Declaration → NodeKind
  | typeAlias _ _ _ => .typeAliasDeclaration
  | interface _ _ _ => .interfaceDeclaration
  | variableDecl _ _ _ => .variableStatement
  | function _ _ _ _ => .functionDeclaration
  | classDecl _ _ => .classDeclaration
  | enum _ _ _ => .enumDeclaration
  | space _ _ _ => .moduleDeclaration
  | exportNames _ _ _ | exportAll _ => .exportDeclaration
  | exportValue _ _ => .exportAssignment
  | empty => .emptyStatement

/-- The modifiers that a declaration is given. -/
def modifiers : Declaration → ModifierFlags
  | typeAlias modifiers _ _ | interface modifiers _ _ | variableDecl modifiers _ _ | function modifiers _ _ _
  | classDecl modifiers _ | enum modifiers _ _ | space modifiers _ _ => modifiers
  | exportNames _ _ _ | exportAll _ | exportValue _ _ | empty => .none

/-- Whether the declaration is to be exported under its own name. -/
def isNamedExport (declaration : Declaration) : Bool :=
  declaration.modifiers.contains ModifierFlags.exported && !declaration.modifiers.contains ModifierFlags.byDefault

/-- The name of an alias or an interface. -/
def typeName? : Declaration → Option String
  | typeAlias _ name _ | interface _ name _ => some name
  | _ => none

/-- The plain name of each thing that can be exported and that the declaration brings into being,
where it has one. -/
def boundNames : Declaration → List (Option String)
  | variableDecl _ _ declarators => declarators.map fun declared =>
    match declared.binding with
    | .name name => some name
    | .object _ | .array _ => none
  | function _ name _ _ | classDecl _ name => [name]
  | _ => []

end Declaration

/-- Whether a declarator of a tree binds what was asked for. -/
def Declarator.Binds (declared : Declarator) (tree : VariableDeclaration) : Prop :=
  match declared.binding, tree.binding with
  | .name name, .identifier identifier => identifier.name = name
  | .object names, .pattern .object _ elements => elements.map (·.name.name) = names
  | .array names, .pattern .array _ elements => elements.map (·.name.name) = names
  | _, _ => False

namespace Statement

/-- Whether a statement records what a declaration asks for. -/
structure Records (declaration : Declaration) (statement : Statement) : Prop where
  kind : statement.kind = declaration.kind
  modifiers : statement.node.modifiers = declaration.modifiers
  typeName : statement.typeName?.map (·.name) = declaration.typeName?
  entities : List.Forall₂ (fun name entity => entity.checked? = name.map (·, entity.node)) declaration.boundNames
    statement.entities

/-- Whether ids are those that a call for a declaration has to return for its statement: for a variable statement
those of its declarators, one for each that was asked for and in order, and otherwise that of the statement. -/
inductive Gives : Statement → Declaration → List NodeId → Prop
  | declarators {node : Node} {list : VariableList} {modifiers : ModifierFlags} {flags : NodeFlags}
    {declarators : List Declarator} (binds : List.Forall₂ Declarator.Binds declarators list.declarations) :
    Gives (.variableDecl node list) (.variableDecl modifiers flags declarators) (list.declarations.map (·.node.id))
  | whole {statement : Statement} {declaration : Declaration} (other : declaration.kind ≠ .variableStatement) :
    Gives statement declaration [statement.id]

theorem Gives.eq_of_typeName? {statement : Statement} {declaration : Declaration} {returned : List NodeId}
    (gives : statement.Gives declaration returned) {name : Identifier} (named : statement.typeName? = some name) :
    returned = [statement.id] := by
  cases gives with
  | declarators binds => cases named
  | whole other => rfl

/-- What a call has to return are the ids that are given out for its statement. -/
theorem Gives.eq_handles {statement : Statement} {declaration : Declaration} {returned : List NodeId}
    (gives : statement.Gives declaration returned) (kind : statement.kind = declaration.kind) :
    returned = statement.handles.map Node.id := by
  cases gives with
  | declarators binds => exact List.map_map.symm
  | whole other =>
    rw [← kind] at other
    cases statement with
    | variableDecl node list => exact absurd rfl other
    | _ => rfl

end Statement

namespace Layout

variable {α β : Type}

/-! ### What a statement records -/

theorem forall₂_commas {item : α → Layout β} {rel : α → β → Prop}
    (each : ∀ element draft, rel element ((item element).run draft).1) (elements : List α) (draft : Draft) :
    List.Forall₂ rel elements ((commas item elements).run draft).1 := by
  induction elements generalizing draft with
  | nil => exact .nil
  | cons first rest ih =>
    cases rest with
    | nil => exact .cons (each first draft) .nil
    | cons second rest => exact .cons (each first draft) (ih _)

theorem checked?_declarator (declared : Declarator) (draft : Draft) :
    (Entity.ofDeclarator ((declarator declared).run draft).1).checked? =
      (match declared.binding with
        | .name name => some name
        | .object _ | .array _ => none).map
          (·, (Entity.ofDeclarator ((declarator declared).run draft).1).node) := by
  obtain ⟨binding, type, value⟩ := declared
  cases binding <;> rfl

/-- The range of a statement covers what is written while it is laid out. -/
theorem range_statement (declaration : Declaration) (draft : Draft) :
    ((statement declaration).run draft).1.node.range =
      ⟨.ofText draft.text, .ofText ((statement declaration).run draft).2.text⟩ := by
  cases declaration <;> rw [statement] <;> rfl

theorem kind_statement (declaration : Declaration) (draft : Draft) :
    ((statement declaration).run draft).1.kind = declaration.kind := by
  cases declaration <;> rw [statement] <;> rfl

theorem modifiers_statement (declaration : Declaration) (draft : Draft) :
    ((statement declaration).run draft).1.node.modifiers = declaration.modifiers := by
  cases declaration <;> rw [statement] <;> rfl

theorem typeName?_statement (declaration : Declaration) (draft : Draft) :
    ((statement declaration).run draft).1.typeName?.map (·.name) = declaration.typeName? := by
  cases declaration <;> rw [statement] <;> rfl

/-- The entities of a statement are the things that were asked for, with their plain names. -/
theorem entities_statement (declaration : Declaration) (draft : Draft) :
    List.Forall₂ (fun name entity => entity.checked? = name.map (·, entity.node)) declaration.boundNames
      ((statement declaration).run draft).1.entities := by
  cases declaration with
  | variableDecl modifiers flags declarators =>
    rw [statement]
    refine List.forall₂_map_left_iff.mpr (List.forall₂_map_right_iff.mpr ?_)
    exact forall₂_commas (fun declared draft => checked?_declarator declared draft) declarators _
  | function modifiers name parameters returns =>
    rw [statement]
    cases name <;> exact .cons rfl .nil
  | classDecl modifiers name =>
    rw [statement]
    cases name <;> exact .cons rfl .nil
  | _ =>
    rw [statement]
    exact .nil

theorem records_statement (declaration : Declaration) (draft : Draft) :
    ((statement declaration).run draft).1.Records declaration where
  kind := kind_statement declaration draft
  modifiers := modifiers_statement declaration draft
  typeName := typeName?_statement declaration draft
  entities := entities_statement declaration draft

/-! ### What a call returns -/

theorem names_bindingElements (names : List String) (draft : Draft) :
    ((commas bindingElement names).run draft).1.map (·.name.name) = names := by
  have related : List.Forall₂ (fun name element => name = element.name.name) names
      ((commas bindingElement names).run draft).1 := forall₂_commas (fun _ _ => rfl) names draft
  rw [← List.forall₂_map_right_iff, List.forall₂_eq_eq_eq] at related
  exact related.symm

theorem binds_declarator (declared : Declarator) (draft : Draft) :
    declared.Binds ((declarator declared).run draft).1 := by
  obtain ⟨binding, type, value⟩ := declared
  cases binding with
  | name name => rfl
  | object names => exact names_bindingElements names _
  | array names => exact names_bindingElements names _

/-- The ids that are given out for a statement are those that the call for it has to return. -/
theorem gives_statement (declaration : Declaration) (draft : Draft) :
    ((statement declaration).run draft).1.Gives declaration
      (((statement declaration).run draft).1.handles.map Node.id) := by
  cases declaration with
  | variableDecl modifiers flags declarators =>
    rw [statement]
    have binds := forall₂_commas (fun declared draft => binds_declarator declared draft) declarators
    refine (congrArg (Statement.Gives _ _) ?_).mp (.declarators (binds _))
    exact (List.map_map).symm
  | _ =>
    rw [statement]
    exact .whole (by simp [Declaration.kind])

end Layout

end ExportLint
