import ExportLint.Proofs.Outline
import ExportLint.Tree.Layout

/-!
# What laying out adds

A step of laying out only appends to the text and only adds names to the store. The nodes that it
makes lie in the text that it appends, take the ids that it draws, each before those below it, and
the symbols of its identifiers stand for their names. This is shown once for each step, from the
smallest to whole statements, and carried through sequences of steps.
-/

namespace ExportLint

/-- Whether every symbol of a store stands for the same name in a later one. -/
def Interner.Extends (later store : Interner) : Prop :=
  ∀ ⦃symbol : Symbol⦄ ⦃name : String⦄, store.resolve? symbol = some name → later.resolve? symbol = some name

theorem Interner.Extends.refl (store : Interner) : store.Extends store := fun _ _ stands => stands

theorem Interner.Extends.trans {first second third : Interner} (right : third.Extends second)
    (left : second.Extends first) : third.Extends first := fun _ _ stands => right (left stands)

theorem Interner.extends_empty (store : Interner) : store.Extends .empty := by
  intro symbol name stands
  simp [Interner.resolve?, Interner.empty] at stands

theorem Interner.extends_intern (store : Interner) (text : String) : (store.intern text).2.Extends store := by
  intro symbol name stands
  rw [resolve?, ← Array.getElem?_toList] at stands ⊢
  have bound : symbol.rank < store.strings.toList.length := (List.getElem?_eq_some_iff.mp stands).1
  rw [toList_intern, List.getElem?_append_left bound, stands]

/-- The store in which texts are interned one after the other. -/
def Interner.internAll (store : Interner) (texts : List String) : Interner :=
  texts.foldl (fun store text => (store.intern text).2) store

theorem Interner.internAll_append (store : Interner) (texts more : List String) :
    store.internAll (texts ++ more) = (store.internAll texts).internAll more :=
  List.foldl_append

/-- What laying out does to a draft: it appends to the text and adds names to the store. -/
structure Draft.Extends (later draft : Draft) : Prop where
  appends : ∃ rest, later.text = draft.text ++ rest
  interner : later.interner.Extends draft.interner

namespace Draft.Extends

theorem refl (draft : Draft) : draft.Extends draft :=
  ⟨⟨"", by simp⟩, .refl _⟩

theorem trans {first second third : Draft} (right : third.Extends second) (left : second.Extends first) :
    third.Extends first := by
  obtain ⟨more, appended⟩ := left.appends
  obtain ⟨rest, appended'⟩ := right.appends
  refine ⟨⟨more ++ rest, ?_⟩, right.interner.trans left.interner⟩
  rw [appended', appended, String.append_assoc]

theorem size_le {later draft : Draft} (grown : later.Extends draft) :
    draft.text.utf8ByteSize ≤ later.text.utf8ByteSize := by
  obtain ⟨rest, appended⟩ := grown.appends
  rw [appended, String.utf8ByteSize_append]
  omega

end Draft.Extends

/-- What lies between two drafts: the nodes that were made, in the text that was appended and with the
ids that were drawn. -/
structure Draft.Adds (before after : Draft) (new : List Outline) : Prop where
  grows : after.Extends before
  laid : Laid after.text before.text.utf8ByteSize after.text.utf8ByteSize new
  numbered : ∃ count, after.nextId = before.nextId + count ∧ Outline.indices new = List.range' before.nextId count
  known : ∀ name ∈ Outline.names new, after.interner.resolve? name.symbol = some name.name
  interns : after.interner = before.interner.internAll ((Outline.names new).map Identifier.name)

namespace Draft.Adds

variable {before middle after : Draft} {new more : List Outline}

theorem nothing (grows : after.Extends before) (drawn : after.nextId = before.nextId)
    (interner : after.interner = before.interner) : before.Adds after [] where
  grows := grows
  laid := .nil grows.size_le (Nat.le_refl _)
  numbered := ⟨0, drawn, rfl⟩
  known _ mem := by cases mem
  interns := interner

theorem trans (first : before.Adds middle new) (second : middle.Adds after more) : before.Adds after (new ++ more) where
  grows := second.grows.trans first.grows
  laid := by
    obtain ⟨rest, appended⟩ := second.grows.appends
    have kept := first.laid.grow rest
    rw [← appended] at kept
    exact kept.append second.laid
  numbered := by
    obtain ⟨count, drawn, indices⟩ := first.numbered
    obtain ⟨count', drawn', indices'⟩ := second.numbered
    refine ⟨count + count', by omega, ?_⟩
    rw [Outline.indices_append, indices, indices', drawn, List.range'_append_1]
  known := by
    intro name mem
    rw [Outline.names_append] at mem
    rcases List.mem_append.mp mem with old | added
    · exact second.grows.interner (first.known name old)
    · exact second.known name added
  interns := by
    rw [Outline.names_append, List.map_append, Interner.internAll_append, ← first.interns]
    exact second.interns

/-- A node is put around what was made since its id was drawn. -/
theorem enclose {node : Node} (range : node.range = ⟨.ofText before.text, .ofText after.text⟩)
    (id : node.id = ⟨before.nextId⟩) (inside : ({ before with nextId := before.nextId + 1 } : Draft).Adds after new) :
    before.Adds after [.branch node new] where
  grows := ⟨inside.grows.appends, inside.grows.interner⟩
  laid := .branch (Nat.le_refl _) range inside.laid (.nil (Nat.le_refl _) (Nat.le_refl _))
  numbered := by
    obtain ⟨count, drawn, indices⟩ := inside.numbered
    refine ⟨count + 1, by rw [drawn]; exact Nat.add_right_comm .., ?_⟩
    rw [Outline.indices_branch, Outline.indices_nil, List.append_nil, id, indices, List.range'_succ]
  known := by
    rw [Outline.names_branch, Outline.names_nil, List.append_nil]
    exact inside.known
  interns := by
    rw [Outline.names_branch, Outline.names_nil, List.append_nil]
    exact inside.interns

/-- A node is closed later: it then stands around all that has been made since. -/
theorem close {node : Node} {inner rest : List Outline} (adds : before.Adds after (.branch node inner :: rest))
    (text : String) : before.Adds { after with text := after.text ++ text }
      [.branch { node with range := ⟨node.range.start, .ofText (after.text ++ text)⟩ } (inner ++ rest)] where
  grows := Draft.Extends.trans ⟨⟨text, rfl⟩, .refl _⟩ adds.grows
  laid := adds.laid.stretch text
  numbered := by
    rw [Outline.indices_stretch]
    exact adds.numbered
  known := by
    rw [Outline.names_stretch]
    exact adds.known
  interns := by
    rw [Outline.names_stretch]
    exact adds.interns

end Draft.Adds

namespace Layout

variable {α β : Type}

/-- Whether the nodes of the result of a step are those of `made` and then the ones that the step makes. -/
def Lays (made : List Outline) (step : Layout α) (view : α → List Outline) : Prop :=
  ∀ draft : Draft, ∃ new, view (step.run draft).1 = made ++ new ∧ draft.Adds (step.run draft).2 new

namespace Lays

variable {made : List Outline} {view : α → List Outline} {view' : β → List Outline}

theorem pure {value : α} (same : view value = made) : Lays made (Pure.pure value) view := by
  intro draft
  refine ⟨[], ?_, .nothing (.refl draft) rfl rfl⟩
  rw [List.append_nil]
  exact same

theorem bind {step : Layout α} {next : α → Layout β} (first : Lays made step view)
    (second : ∀ value, Lays (view value) (next value) view') : Lays made (step >>= next) view' := by
  intro draft
  obtain ⟨new, seen, adds⟩ := first draft
  obtain ⟨more, seen', adds'⟩ := second (step.run draft).1 (step.run draft).2
  refine ⟨new ++ more, ?_, adds.trans adds'⟩
  rw [← List.append_assoc, ← seen]
  exact seen'

theorem grows {step : Layout α} (lays : Lays made step view) (draft : Draft) : (step.run draft).2.Extends draft := by
  obtain ⟨_, _, adds⟩ := lays draft
  exact adds.grows

end Lays

variable {made : List Outline}

theorem lays_write (text : String) : Lays made (write text) fun _ => made := by
  intro draft
  exact ⟨[], by simp, .nothing ⟨⟨text, rfl⟩, .refl _⟩ rfl rfl⟩

/-- What a step makes inside a node is what the node stands around. -/
theorem lays_node (flags : NodeFlags) (modifiers : ModifierFlags) {inside : Layout α} {view : α → List Outline}
    (lays : Lays [] inside view) :
    Lays made (node flags modifiers inside) fun result => made ++ [.branch result.1 (view result.2)] := by
  intro draft
  obtain ⟨new, seen, adds⟩ := lays { draft with nextId := draft.nextId + 1 }
  refine ⟨_, rfl, Draft.Adds.enclose rfl rfl ?_⟩
  have same : view (inside.run { draft with nextId := draft.nextId + 1 }).1 = new := by
    rw [seen, List.nil_append]
  change ({ draft with nextId := draft.nextId + 1 } : Draft).Adds
    (inside.run { draft with nextId := draft.nextId + 1 }).2
    (view (inside.run { draft with nextId := draft.nextId + 1 }).1)
  rw [same]
  exact adds

theorem lays_plain {inside : Layout α} {view : α → List Outline} (lays : Lays [] inside view) :
    Lays made (plain inside) fun result => made ++ [.branch result.1 (view result.2)] :=
  lays_node .none .none lays

theorem lays_modified (flags : NodeFlags) (modifiers : ModifierFlags) {inside : Layout α} {view : α → List Outline}
    (lays : Lays [] inside view) :
    Lays made (modified flags modifiers inside) fun result => made ++ [.branch result.1 (view result.2)] :=
  lays_node flags modifiers (.bind (lays_write _) fun _ => lays)

theorem lays_commas {item : α → Layout β} {outline : β → Outline}
    (lays : ∀ element made, Lays made (item element) fun value => made ++ [outline value]) (elements : List α)
    (made : List Outline) : Lays made (commas item elements) fun values => made ++ values.map outline := by
  induction elements generalizing made with
  | nil => exact .pure (List.append_nil _)
  | cons first rest ih =>
    cases rest with
    | nil => exact .bind (lays first made) fun _ => .pure rfl
    | cons second rest =>
      refine .bind (lays first made) fun _ => .bind (lays_write _) fun _ => .bind (ih _) fun _ => .pure ?_
      simp

theorem lays_identifier (name : String) : Lays made (identifier name) fun identifier => made ++ [.leaf identifier] := by
  intro draft
  have size : (draft.text ++ name).utf8ByteSize = draft.text.utf8ByteSize + name.utf8ByteSize :=
    String.utf8ByteSize_append
  refine ⟨_, rfl, ⟨⟨⟨name, rfl⟩, draft.interner.extends_intern name⟩, ?_, ⟨1, rfl, rfl⟩, ?_, rfl⟩⟩
  · exact .leaf (Nat.le_refl _) rfl ⟨draft.text, "", String.append_empty.symm, rfl⟩ size
      (.nil (Nat.le_refl _) (Nat.le_refl _))
  · intro other mem
    cases List.mem_singleton.mp mem
    exact draft.interner.resolve?_intern name

theorem lays_writeOption (lead : String) (text : Option String) : Lays made (writeOption lead text) fun _ => made := by
  cases text with
  | none => exact .pure rfl
  | some text => exact .bind (lays_write lead) fun _ => lays_write text

theorem lays_optionalName (name : Option String) :
    Lays made (optionalName name) fun name => made ++ name.toList.map .leaf := by
  cases name with
  | none => exact .pure (List.append_nil _)
  | some name => exact .bind (lays_write " ") fun _ => .bind (lays_identifier name) fun _ => .pure rfl

theorem lays_bindingElement (name : String) (made : List Outline) :
    Lays made (bindingElement name) fun element => made ++ [element.outline] :=
  .bind (lays_plain (lays_identifier name)) fun _ => .pure rfl

theorem lays_pattern (shape : PatternShape) (opening closing : String) (names : List String) :
    Lays made (pattern shape opening closing names) fun binding => made ++ [binding.outline] :=
  .bind (lays_plain (.bind (lays_write opening) fun _ => .bind (lays_commas lays_bindingElement names _) fun _ =>
    .bind (lays_write closing) fun _ => .pure rfl)) fun _ => .pure rfl

theorem lays_binding (declared : DeclaredBinding) :
    Lays made (binding declared) fun binding => made ++ [binding.outline] := by
  cases declared with
  | name name => exact .bind (lays_identifier name) fun _ => .pure rfl
  | object names => exact lays_pattern _ _ _ names
  | array names => exact lays_pattern _ _ _ names

theorem lays_declarator (declared : Declarator) (made : List Outline) :
    Lays made (declarator declared) fun declared => made ++ [declared.outline] :=
  .bind (lays_plain (.bind (lays_binding _) fun _ => .bind (lays_writeOption _ _) fun _ =>
    .bind (lays_writeOption _ _) fun _ => .pure rfl)) fun _ => .pure rfl

theorem lays_variableList (flags : NodeFlags) (declarators : List Declarator) :
    Lays made (variableList flags declarators) fun list => made ++ [list.outline] :=
  .bind (lays_node _ _ (.bind (lays_write _) fun _ => lays_commas lays_declarator declarators _)) fun _ => .pure rfl

theorem lays_exportSpecifier (name : String) (made : List Outline) :
    Lays made (exportSpecifier name) fun specifier => made ++ [specifier.outline] :=
  .bind (lays_plain (lays_identifier name)) fun _ => .pure rfl

theorem lays_nameBetween (keyword name opening body closing : String) :
    Lays [] (do
      write keyword
      let name ← identifier name
      write opening
      write body
      write closing
      return name) fun name => [.leaf name] :=
  .bind (lays_write keyword) fun _ => .bind (lays_identifier name) fun _ =>
    .bind (lays_write opening) fun _ => .bind (lays_write body) fun _ => .bind (lays_write closing) fun _ => .pure rfl

theorem lays_words (first second third : String) :
    Lays made (plain do
      write first
      write second
      write third) fun result => made ++ [.branch result.1 []] :=
  lays_plain (.bind (lays_write first) fun _ => .bind (lays_write second) fun _ => lays_write third)

theorem lays_enterSpace (modifiers : ModifierFlags) (name : String) :
    Lays made (enterSpace modifiers name) fun entered => made ++ [.branch entered.1 [.leaf entered.2]] :=
  .bind (lays_modified _ _ (.bind (lays_write _) fun _ => lays_identifier name)) fun _ =>
    .bind (lays_write _) fun _ => .pure rfl

/-- A namespace that is left is closed with its bracket, around the statements in it. -/
theorem leaveSpace_eq {node : Node} {name : Identifier} {body : List Statement} {start draft : Draft}
    {statement : Statement} (left : (leaveSpace node name body).run start = (statement, draft)) :
    draft.text = start.text ++ "\x7d" ∧
      statement.outline = .branch { node with range := ⟨node.range.start, .ofText draft.text⟩ }
        ([.leaf name] ++ Statement.outlines body) ∧
      statement.node = { node with range := ⟨node.range.start, .ofText draft.text⟩ } := by
  cases left
  refine ⟨rfl, ?_, rfl⟩
  rw [Statement.outline]
  rfl

mutual

theorem lays_statement (declaration : Declaration) (made : List Outline) :
    Lays made (statement declaration) fun added => made ++ [added.outline] := by
  cases declaration with
  | typeAlias modifiers name type =>
    rw [statement]
    exact .bind (lays_modified _ _ (lays_nameBetween _ name _ _ _)) fun _ => .pure rfl
  | interface modifiers name members =>
    rw [statement]
    exact .bind (lays_modified _ _ (lays_nameBetween _ name _ _ _)) fun _ => .pure rfl
  | variableDecl modifiers flags declarators =>
    rw [statement]
    exact .bind (lays_modified _ _ (.bind (lays_variableList _ _) fun _ => .bind (lays_write _) fun _ => .pure rfl))
      fun _ => .pure rfl
  | function modifiers name parameters returns =>
    rw [statement]
    exact .bind (lays_modified _ _ (.bind (lays_write _) fun _ => .bind (lays_optionalName _) fun _ =>
      .bind (lays_write _) fun _ => .bind (lays_write _) fun _ => .bind (lays_write _) fun _ =>
      .bind (lays_writeOption _ _) fun _ => .bind (lays_write _) fun _ => .pure rfl)) fun _ => .pure rfl
  | classDecl modifiers name =>
    rw [statement]
    exact .bind (lays_modified _ _ (.bind (lays_write _) fun _ => .bind (lays_optionalName _) fun _ =>
      .bind (lays_write _) fun _ => .pure rfl)) fun _ => .pure rfl
  | enum modifiers name members =>
    rw [statement]
    exact .bind (lays_modified _ _ (lays_nameBetween _ name _ _ _)) fun _ => .pure rfl
  | space modifiers name body =>
    rw [statement]
    intro draft
    -- the node is there from the start, and is closed around the statements in the end
    have open' : Lays [] (do return (← enterSpace modifiers name, ← statements body))
        fun result => .branch result.1.1 [.leaf result.1.2] :: Statement.outlines result.2 :=
      .bind (lays_enterSpace _ _) fun _ => .bind (lays_statements body _) fun _ => .pure rfl
    obtain ⟨new, seen, adds⟩ := open' draft
    rw [List.nil_append] at seen
    subst seen
    exact ⟨_, rfl, adds.close "\x7d"⟩
  | exportNames typeOnly names source =>
    rw [statement]
    exact .bind (lays_plain (.bind (lays_write _) fun _ => .bind (lays_write _) fun _ =>
      .bind (lays_write _) fun _ => .bind (lays_commas lays_exportSpecifier names _) fun _ =>
      .bind (lays_write _) fun _ => .bind (lays_write _) fun _ => .bind (lays_write _) fun _ => .pure rfl))
      fun _ => .pure rfl
  | exportAll source =>
    rw [statement]
    exact .bind (lays_words _ _ _) fun _ => .pure rfl
  | exportValue equals expression =>
    rw [statement]
    exact .bind (lays_words _ _ _) fun _ => .pure rfl
  | empty =>
    rw [statement]
    exact .bind (lays_plain (lays_write _)) fun _ => .pure rfl

theorem lays_statements (declarations : List Declaration) (made : List Outline) :
    Lays made (statements declarations) fun added => made ++ Statement.outlines added := by
  cases declarations with
  | nil =>
    rw [statements]
    exact .pure (List.append_nil _)
  | cons first rest =>
    rw [statements]
    refine .bind (lays_statement first made) fun _ => .bind (lays_write _) fun _ =>
      .bind (lays_statements rest _) fun _ => .pure ?_
    simp [Statement.outlines]

end

end Layout

end ExportLint
