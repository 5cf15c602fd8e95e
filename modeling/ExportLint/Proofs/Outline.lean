import Mathlib
import ExportLint.Tree.Node

/-!
# Outlines of trees

The nodes of a tree without what tells their kinds apart: an identifier, or a node with the nodes
directly below it in their order. Every node of a file is a part of its outline. A forest is laid out
in a stretch of text when the ranges of its nodes nest there and follow each other, and every
identifier stands where its range says.
-/

namespace ExportLint

/-- A node of a tree with what is below it. -/
inductive Outline where
  | leaf (name : Identifier)
  | branch (node : Node) (inner : List Outline)

namespace Outline

def node : Outline → Node
  | leaf name => name.node
  | branch node _ => node

/-- What is directly below the node. -/
def inner : Outline → List Outline
  | leaf _ => []
  | branch _ inner => inner

mutual

/-- The node and all that is below it, each before what is below it. -/
def parts : Outline → List Outline
  | leaf name => [leaf name]
  | branch node inner => branch node inner :: flatten inner

/-- The parts of a forest, tree by tree. -/
def flatten : List Outline → List Outline
  | [] => []
  | first :: rest => first.parts ++ flatten rest

end

/-- The offset of the first byte of the node. -/
def start (part : Outline) : Nat :=
  part.node.range.start.toNat

/-- The offset after the last byte of the node. -/
def stop (part : Outline) : Nat :=
  part.node.range.stop.toNat

def index (part : Outline) : Nat :=
  part.node.id.index

/-- The numbers of all parts of a forest, in their order. -/
def indices (forest : List Outline) : List Nat :=
  (flatten forest).map index

def name? : Outline → Option Identifier
  | leaf name => some name
  | branch _ _ => none

/-- The identifiers of a forest. -/
def names (forest : List Outline) : List Identifier :=
  (flatten forest).filterMap name?

/-- Induction on a forest: on what is below its first node and on what comes after that. -/
@[elab_as_elim]
theorem forestInduction {motive : List Outline → Prop} (nil : motive [])
    (leaf : ∀ name rest, motive rest → motive (leaf name :: rest))
    (branch : ∀ node inner rest, motive inner → motive rest → motive (branch node inner :: rest)) :
    ∀ forest : List Outline, motive forest
  | [] => nil
  | .leaf name :: rest => leaf name rest (forestInduction nil leaf branch rest)
  | .branch node inner :: rest =>
    branch node inner rest (forestInduction nil leaf branch inner) (forestInduction nil leaf branch rest)

@[simp]
theorem flatten_nil : flatten [] = [] := rfl

@[simp]
theorem flatten_leaf (name : Identifier) (rest : List Outline) :
    flatten (leaf name :: rest) = leaf name :: flatten rest := rfl

@[simp]
theorem flatten_branch (node : Node) (inner rest : List Outline) :
    flatten (branch node inner :: rest) = branch node inner :: (flatten inner ++ flatten rest) := rfl

theorem parts_eq (part : Outline) : part.parts = part :: flatten part.inner := by
  cases part <;> rfl

@[simp]
theorem flatten_append (first second : List Outline) : flatten (first ++ second) = flatten first ++ flatten second := by
  induction first with
  | nil => rfl
  | cons part rest ih => rw [List.cons_append, flatten, flatten, ih, List.append_assoc]

@[simp]
theorem indices_nil : indices [] = [] := rfl

@[simp]
theorem indices_leaf (name : Identifier) (rest : List Outline) :
    indices (leaf name :: rest) = name.node.id.index :: indices rest := rfl

@[simp]
theorem indices_branch (node : Node) (inner rest : List Outline) :
    indices (branch node inner :: rest) = node.id.index :: (indices inner ++ indices rest) := by
  rw [indices, flatten_branch, List.map_cons, List.map_append]
  rfl

@[simp]
theorem indices_append (first second : List Outline) : indices (first ++ second) = indices first ++ indices second := by
  rw [indices, flatten_append, List.map_append]
  rfl

@[simp]
theorem names_nil : names [] = [] := rfl

@[simp]
theorem names_leaf (name : Identifier) (rest : List Outline) : names (leaf name :: rest) = name :: names rest := rfl

@[simp]
theorem names_branch (node : Node) (inner rest : List Outline) :
    names (branch node inner :: rest) = names inner ++ names rest := by
  rw [names, flatten_branch, List.filterMap_cons_none rfl, List.filterMap_append]
  rfl

@[simp]
theorem names_append (first second : List Outline) : names (first ++ second) = names first ++ names second := by
  rw [names, flatten_append, List.filterMap_append]
  rfl

theorem mem_names_iff {forest : List Outline} {name : Identifier} :
    name ∈ names forest ↔ leaf name ∈ flatten forest := by
  rw [names, List.mem_filterMap]
  constructor
  · rintro ⟨part, mem, same⟩
    cases part with
    | leaf other =>
      cases same
      exact mem
    | branch => cases same
  · intro mem
    exact ⟨leaf name, mem, rfl⟩

theorem flatten_eq_flatMap (forest : List Outline) : flatten forest = forest.flatMap parts := by
  induction forest with
  | nil => rfl
  | cons part rest ih => rw [flatten, ih, List.flatMap_cons]

theorem sublist_flatten (forest : List Outline) : forest.Sublist (flatten forest) := by
  induction forest using forestInduction with
  | nil => exact .slnil
  | leaf name rest ih => exact ih.cons_cons _
  | branch node inner rest _ ih => exact (ih.trans (List.sublist_append_right _ _)).cons_cons _

/-- The parts of a part of a forest are a stretch of those of the forest. -/
theorem parts_sublist {forest : List Outline} {part : Outline} (mem : part ∈ flatten forest) :
    part.parts.Sublist (flatten forest) := by
  induction forest using forestInduction with
  | nil => cases mem
  | leaf name rest ih =>
    rcases List.mem_cons.mp mem with here | later
    · rw [here]
      exact List.sublist_append_left [leaf name] _
    · exact (ih later).cons _
  | branch node inner rest ihInner ihRest =>
    rw [flatten_branch] at mem ⊢
    rcases List.mem_cons.mp mem with here | below
    · rw [here]
      exact (List.sublist_append_left _ _).cons_cons _
    · refine List.Sublist.cons _ ?_
      rcases List.mem_append.mp below with inside | later
      · exact (ihInner inside).trans (List.sublist_append_left _ _)
      · exact (ihRest later).trans (List.sublist_append_right _ _)

/-- Where a node ends, and which nodes after it are below it, does not change the numbers. -/
theorem indices_stretch (node : Node) (range : Range) (inner rest : List Outline) :
    indices [branch { node with range } (inner ++ rest)] = indices (branch node inner :: rest) := by
  simp

theorem names_stretch (node : Node) (range : Range) (inner rest : List Outline) :
    names [branch { node with range } (inner ++ rest)] = names (branch node inner :: rest) := by
  simp

/-! ### Numbers in order -/

/-- Where the parts of a forest are numbered upwards, a node comes before all that is below it. -/
theorem index_lt_of_rising {forest : List Outline} (rising : (indices forest).Pairwise (· < ·)) {part below : Outline}
    (mem : part ∈ flatten forest) (inside : below ∈ flatten part.inner) : part.index < below.index := by
  have sorted := List.pairwise_map.mp rising
  have stretch := sorted.sublist (parts_sublist mem)
  rw [parts_eq] at stretch
  exact (List.pairwise_cons.mp stretch).1 below inside

/-- Where the parts of a forest are numbered upwards, the trees of the forest are, too. -/
theorem trees_rising {forest : List Outline} (rising : (indices forest).Pairwise (· < ·)) :
    forest.Pairwise fun earlier later => earlier.index < later.index :=
  (List.pairwise_map.mp rising).sublist (sublist_flatten forest)

theorem inner_rising {forest : List Outline} (rising : (indices forest).Pairwise (· < ·)) {part : Outline}
    (mem : part ∈ flatten forest) : part.inner.Pairwise fun earlier later => earlier.index < later.index := by
  have stretch := (List.pairwise_map.mp rising).sublist (parts_sublist mem)
  rw [parts_eq] at stretch
  exact (List.pairwise_cons.mp stretch).2.sublist (sublist_flatten part.inner)

end Outline

/-! ### The outlines of trees -/

def BindingElement.outline (element : BindingElement) : Outline :=
  .branch element.node [.leaf element.name]

def Binding.outline : Binding → Outline
  | .identifier name => .leaf name
  | .pattern _ node elements => .branch node (elements.map BindingElement.outline)

def VariableDeclaration.outline (declared : VariableDeclaration) : Outline :=
  .branch declared.node [declared.binding.outline]

def VariableList.outline (list : VariableList) : Outline :=
  .branch list.node (list.declarations.map VariableDeclaration.outline)

def ExportSpecifier.outline (specifier : ExportSpecifier) : Outline :=
  .branch specifier.node [.leaf specifier.name]

namespace Statement

mutual

def outline : Statement → Outline
  | variableDecl node list => .branch node [list.outline]
  | function node name | classDecl node name => .branch node (name.toList.map .leaf)
  | interface node name | typeAlias node name | enum node name => .branch node [.leaf name]
  | module node name body => .branch node (.leaf name :: outlines body)
  | exports node _ clause _ => .branch node ((clause.getD []).map ExportSpecifier.outline)
  | assignment node _ | empty node => .branch node []

def outlines : List Statement → List Outline
  | [] => []
  | first :: rest => first.outline :: outlines rest

end

theorem outlines_eq_map (statements : List Statement) : outlines statements = statements.map outline := by
  induction statements with
  | nil => rw [outlines, List.map_nil]
  | cons first rest ih => rw [outlines, ih, List.map_cons]

@[simp]
theorem outlines_append (first second : List Statement) :
    outlines (first ++ second) = outlines first ++ outlines second := by
  simp [outlines_eq_map]

theorem mem_flatten_outlines {statements : List Statement} {part : Outline} :
    part ∈ Outline.flatten (outlines statements) ↔ ∃ statement ∈ statements, part ∈ statement.outline.parts := by
  rw [Outline.flatten_eq_flatMap, outlines_eq_map, List.flatMap_map, List.mem_flatMap]

theorem node_outline (statement : Statement) : statement.outline.node = statement.node := by
  cases statement <;> rw [outline] <;> rfl

end Statement

/-- A file as a tree: the file itself is the root. -/
def SourceFile.outline (file : SourceFile) : Outline :=
  .branch file.node (Statement.outlines file.statements)

/-! ### Forests in a text -/

/-- Whether a piece stands in a text after a number of bytes. -/
def StandsAt (text : String) (start : Nat) (piece : String) : Prop :=
  ∃ before after, text = before ++ piece ++ after ∧ before.utf8ByteSize = start

/-- The bytes of a text where a piece stands are those of the piece. -/
theorem StandsAt.extract {text piece : String} {start : Nat} (stands : StandsAt text start piece) :
    text.toByteArray.extract start (start + piece.utf8ByteSize) = piece.toByteArray := by
  obtain ⟨before, after, split, count⟩ := stands
  have behind : (before.toByteArray ++ (piece.toByteArray ++ after.toByteArray)).extract (before.toByteArray.size + 0)
      (before.toByteArray.size + piece.toByteArray.size) = piece.toByteArray := by
    rw [ByteArray.extract_append_size_add, ByteArray.extract_append_eq_left rfl]
  rw [String.size_toByteArray, String.size_toByteArray, Nat.add_zero] at behind
  rw [split, ← count, String.append_assoc, String.toByteArray_append, String.toByteArray_append, behind]

/-- Whether a forest is laid out in a text from one offset to another. -/
inductive Laid (text : String) : Nat → Nat → List Outline → Prop
  | nil {start stop : Nat} (le : start ≤ stop) (inside : stop ≤ text.utf8ByteSize) : Laid text start stop []
  | leaf {start first last stop : Nat} {name : Identifier} {rest : List Outline} (le : start ≤ first)
    (range : name.node.range = ⟨.ofNat first, .ofNat last⟩) (stands : StandsAt text first name.name)
    (size : last = first + name.name.utf8ByteSize) (after : Laid text last stop rest) :
    Laid text start stop (.leaf name :: rest)
  | branch {start first last stop : Nat} {node : Node} {inner rest : List Outline} (le : start ≤ first)
    (range : node.range = ⟨.ofNat first, .ofNat last⟩) (below : Laid text first last inner)
    (after : Laid text last stop rest) : Laid text start stop (.branch node inner :: rest)

namespace Laid

variable {text : String} {start middle stop : Nat} {first second forest : List Outline}

theorem le (laid : Laid text start stop forest) : start ≤ stop := by
  induction laid with
  | nil le _ => exact le
  | leaf => omega
  | branch => omega

theorem inside (laid : Laid text start stop forest) : stop ≤ text.utf8ByteSize := by
  induction laid with
  | nil _ inside => exact inside
  | leaf _ _ _ _ _ ih => exact ih
  | branch _ _ _ _ _ ih => exact ih

/-- A forest that begins later is laid out from an earlier offset as well. -/
theorem earlier {start' : Nat} (le : start' ≤ start) (laid : Laid text start stop forest) :
    Laid text start' stop forest := by
  cases laid with
  | nil le' inside => exact .nil (Nat.le_trans le le') inside
  | leaf le' range stands size after => exact .leaf (Nat.le_trans le le') range stands size after
  | branch le' range below after => exact .branch (Nat.le_trans le le') range below after

theorem append (laid : Laid text start middle first) (laid' : Laid text middle stop second) :
    Laid text start stop (first ++ second) := by
  induction laid with
  | nil le _ => exact laid'.earlier le
  | leaf le range stands size _ ih => exact .leaf le range stands size (ih laid')
  | branch le range below _ _ ih => exact .branch le range below (ih laid')

theorem of_append (laid : Laid text start stop (first ++ second)) :
    ∃ middle, Laid text start middle first ∧ Laid text middle stop second := by
  induction first generalizing start with
  | nil =>
    have le := laid.le
    have inside := laid.inside
    exact ⟨start, .nil (Nat.le_refl _) (by omega), laid⟩
  | cons part rest ih =>
    cases laid with
    | leaf le range stands size after =>
      obtain ⟨middle, left, right⟩ := ih after
      exact ⟨middle, .leaf le range stands size left, right⟩
    | branch le range below after =>
      obtain ⟨middle, left, right⟩ := ih after
      exact ⟨middle, .branch le range below left, right⟩

/-- A forest stays where it is while text is appended. -/
theorem grow (laid : Laid text start stop forest) (more : String) : Laid (text ++ more) start stop forest := by
  induction laid with
  | nil le inside =>
    have longer : (text ++ more).utf8ByteSize = text.utf8ByteSize + more.utf8ByteSize := String.utf8ByteSize_append
    exact .nil le (by omega)
  | leaf le range stands size _ ih =>
    obtain ⟨before, rest, split, count⟩ := stands
    exact .leaf le range ⟨before, rest ++ more, by rw [split, String.append_assoc], count⟩ size ih
  | branch le range _ _ ihInner ihRest => exact .branch le range ihInner ihRest

theorem later (laid : Laid text start middle forest) (le : middle ≤ stop) (inside : stop ≤ text.utf8ByteSize) :
    Laid text start stop forest := by
  have extended := laid.append (.nil le inside)
  rwa [List.append_nil] at extended

/-- What comes after a node is taken into it when the node is stretched to a later end. -/
theorem stretch {node : Node} {inner rest : List Outline} (laid : Laid text start stop (.branch node inner :: rest))
    (more : String) : Laid (text ++ more) start (text ++ more).utf8ByteSize
      [.branch { node with range := ⟨node.range.start, .ofText (text ++ more)⟩ } (inner ++ rest)] := by
  cases laid with
  | branch le range below after =>
    have whole := (below.append after).grow more
    have bound := whole.inside
    have stretched := whole.later bound (Nat.le_refl _)
    have starts : node.range.start = _ := congrArg Range.start range
    refine .branch le ?_ stretched (.nil (Nat.le_refl _) (Nat.le_refl _))
    rw [starts]
    rfl

end Laid

/-- Whether a part of a tree agrees with the text: with what is below it, and as a piece of the text. -/
structure Outline.Placed (text : String) (part : Outline) : Prop where
  ordered : part.start ≤ part.stop
  inside : part.stop ≤ text.utf8ByteSize
  encloses : ∀ child ∈ part.inner, part.start ≤ child.start ∧ child.stop ≤ part.stop
  apart : part.inner.Pairwise fun earlier later => earlier.stop ≤ later.start
  /-- An identifier is what stands at its range. -/
  spelled : ∀ name, part = .leaf name → text.toByteArray.extract part.start part.stop = name.name.toByteArray

namespace Laid

variable {text : String} {start stop : Nat} {forest : List Outline}

/-- Below 2^32 the offsets of a node are not cut. -/
private theorem ends (short : text.utf8ByteSize < 2 ^ 32) (part : Outline) {first last : Nat}
    (range : part.node.range = ⟨.ofNat first, .ofNat last⟩) (le : first ≤ last) (inside : last ≤ text.utf8ByteSize) :
    part.start = first ∧ part.stop = last := by
  constructor
  · rw [Outline.start, range]
    show (UInt32.ofNat first).toNat = first
    rw [UInt32.toNat_ofNat', Nat.mod_eq_of_lt (by omega)]
  · rw [Outline.stop, range]
    show (UInt32.ofNat last).toNat = last
    rw [UInt32.toNat_ofNat', Nat.mod_eq_of_lt (by omega)]

private theorem trees_cons {part : Outline} {rest : List Outline} {first last : Nat} (startsAt : part.start = first)
    (stopsAt : part.stop = last) (le : start ≤ first) (order : first ≤ last) (within : last ≤ stop)
    (others : ∀ other ∈ rest, last ≤ other.start ∧ other.stop ≤ stop)
    (apart : rest.Pairwise fun earlier later => earlier.stop ≤ later.start) :
    (∀ other ∈ part :: rest, start ≤ other.start ∧ other.stop ≤ stop) ∧
      (part :: rest).Pairwise fun earlier later => earlier.stop ≤ later.start := by
  constructor
  · intro other mem
    rcases List.mem_cons.mp mem with here | later
    · rw [here]
      omega
    · have := others other later
      omega
  · refine List.pairwise_cons.mpr ⟨fun other later => ?_, apart⟩
    have := others other later
    omega

/-- The trees of a forest that is laid out in a short text lie in order between its two ends. -/
theorem trees (laid : Laid text start stop forest) (short : text.utf8ByteSize < 2 ^ 32) :
    (∀ part ∈ forest, start ≤ part.start ∧ part.stop ≤ stop) ∧
      forest.Pairwise fun earlier later => earlier.stop ≤ later.start := by
  induction laid with
  | nil le inside => exact ⟨by simp, .nil⟩
  | @leaf start first last stop name rest le range _ size after ih =>
    have within := after.le
    have bound := after.inside
    obtain ⟨startsAt, stopsAt⟩ := ends short (Outline.leaf name) range (by omega) (by omega)
    exact trees_cons startsAt stopsAt le (by omega) within ih.1 ih.2
  | @branch start first last stop node inner rest le range below after _ ih =>
    have within := after.le
    have bound := after.inside
    obtain ⟨startsAt, stopsAt⟩ := ends short (Outline.branch node inner) range below.le (by omega)
    exact trees_cons startsAt stopsAt le below.le within ih.1 ih.2

/-- Every part of a forest that is laid out in a short text agrees with the text. -/
theorem placed (laid : Laid text start stop forest) (short : text.utf8ByteSize < 2 ^ 32) :
    ∀ part ∈ Outline.flatten forest, part.Placed text := by
  -- what is below the first node and what comes after it are laid out on their own
  induction laid with
  | nil => simp
  | @leaf start first last stop name rest le range stands size after ih =>
    intro part mem
    rcases List.mem_cons.mp mem with here | later
    · have within := after.le
      have bound := after.inside
      obtain ⟨startsAt, stopsAt⟩ := ends short (Outline.leaf name) range (by omega) (by omega)
      rw [here]
      refine ⟨by omega, by omega, by simp [Outline.inner], .nil, ?_⟩
      intro other same
      cases same
      rw [startsAt, stopsAt, size, stands.extract]
    · exact ih part later
  | @branch start first last stop node inner rest le range below after ihInner ihRest =>
    intro part mem
    rw [Outline.flatten_branch] at mem
    rcases List.mem_cons.mp mem with here | other
    · have within := after.le
      have bound := after.inside
      have order := below.le
      obtain ⟨startsAt, stopsAt⟩ := ends short (Outline.branch node inner) range order (by omega)
      obtain ⟨enclosed, apart⟩ := below.trees short
      rw [here]
      refine ⟨by omega, by omega, ?_, apart, fun name same => by cases same⟩
      rw [startsAt, stopsAt]
      exact enclosed
    · rcases List.mem_append.mp other with inside | later
      · exact ihInner part inside
      · exact ihRest part later

end Laid

end ExportLint
