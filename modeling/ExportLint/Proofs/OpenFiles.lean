import ExportLint.Proofs.Frames

/-!
# Files that grow

What there is of a file while it is being built: its nodes, which follow each other as the text does also where
namespaces are still open, and the ids that its nodes have taken. Nodes that are added follow those that are there,
and when a namespace is left, its node takes in the nodes that have followed it.
-/

namespace ExportLint

/-! ### The nodes of a file -/

/-- What there is of open namespaces and before them: what stands outside of each, and then its node with
its name. -/
def OpenSpace.forest : List OpenSpace → List Outline
  | [] => []
  | space :: spaces => forest spaces ++ Statement.outlines space.outer ++ [.branch space.node [.leaf space.name]]

/-- The nodes of a file that is being built. What is in an open namespace follows its node for now. -/
def OpenFile.forest (file : OpenFile) : List Outline :=
  OpenSpace.forest file.spaces ++ Statement.outlines file.statements

namespace FileState

def text : FileState → String
  | growing file => file.text
  | finished file => file.text

/-- The nodes of a file so far, without the file itself. -/
def forest : FileState → List Outline
  | growing file => file.forest
  | finished file => Statement.outlines file.statements

/-- The ids that the nodes of a file have taken so far. The file itself is the last node to take one. -/
def drawn : FileState → List Nat
  | growing file => Outline.indices file.forest
  | finished file => Outline.indices (Statement.outlines file.statements) ++ [file.id.index]

/-- Whether the tree of a file agrees with its text and with a store of names. -/
structure Sound (names : Interner) (state : FileState) : Prop where
  laid : Laid state.text 0 state.text.utf8ByteSize state.forest
  known : ∀ name ∈ Outline.names state.forest, names.resolve? name.symbol = some name.name

/-- Whether the ids of a file go upwards and stay below a counter. -/
structure Numbered (counter : Nat) (state : FileState) : Prop where
  rising : state.drawn.Pairwise (· < ·)
  bounded : ∀ index ∈ state.drawn, index < counter

variable {names names' : Interner} {state state' : FileState} {counter count : Nat}

theorem sound_new (names : Interner) (builder : Nat) (name : String) : (growing { builder, name }).Sound names := by
  constructor
  · exact .nil (Nat.le_refl _) (Nat.le_refl _)
  · intro name mem
    cases mem

theorem Sound.mono (sound : state.Sound names) (growth : names'.Extends names) : state.Sound names' :=
  ⟨sound.laid, fun name mem => growth (sound.known name mem)⟩

/-- Ids drawn from the counter on go on upwards. -/
theorem Numbered.draw (numbered : state.Numbered counter)
    (drawn : state'.drawn = state.drawn ++ List.range' counter count) :
    state'.Numbered (counter + count) := by
  constructor
  · rw [drawn]
    refine List.pairwise_append.mpr ⟨numbered.rising, List.pairwise_lt_range', ?_⟩
    intro old oldMem new newMem
    have below := numbered.bounded old oldMem
    have above := (List.mem_range'_1.mp newMem).1
    omega
  · intro index mem
    rw [drawn] at mem
    rcases List.mem_append.mp mem with old | new
    · have := numbered.bounded index old
      omega
    · have := (List.mem_range'_1.mp new).2
      omega

end FileState

/-! ### One call on a growing file -/

section
variable {target next : OpenFile} {start draft : Draft} {names : Interner} {new : List Outline}

/-- A file stays sound when new nodes follow those that it has. -/
theorem FileState.Sound.extend (sound : (FileState.growing target).Sound names) (adds : start.Adds draft new)
    (text : start.text = target.text) (interner : names = start.interner) (text' : next.text = draft.text)
    (forest : next.forest = target.forest ++ new) :
    (FileState.growing next).Sound draft.interner := by
  obtain ⟨rest, appended⟩ := adds.grows.appends
  -- the nodes that were there stay where they are, since the text only gets longer
  have old : Laid draft.text 0 start.text.utf8ByteSize target.forest := by
    rw [appended, text]
    exact sound.laid.grow rest
  constructor
  · show Laid next.text 0 next.text.utf8ByteSize next.forest
    rw [text', forest]
    exact old.append adds.laid
  · intro name mem
    have split : name ∈ Outline.names target.forest ++ Outline.names new := by
      rw [← Outline.names_append, ← forest]
      exact mem
    rcases List.mem_append.mp split with before | added
    · have stands := sound.known name before
      rw [interner] at stands
      exact adds.grows.interner stands
    · exact adds.known name added

variable {space : OpenSpace} {spaces : List OpenSpace} {statement : Statement}

/-- When a namespace is left, its node takes in what has followed it. -/
theorem OpenFile.forest_leave (opened : target.spaces = space :: spaces) (closed : next.spaces = spaces)
    (statements : next.statements = space.outer ++ [statement]) : ∃ outside,
      target.forest = outside ++ (.branch space.node [.leaf space.name] :: Statement.outlines target.statements) ∧
      next.forest = outside ++ [statement.outline] := by
  refine ⟨OpenSpace.forest spaces ++ Statement.outlines space.outer, ?_, ?_⟩
  · rw [forest, opened, OpenSpace.forest, List.append_assoc]
    rfl
  · rw [forest, closed, statements, Statement.outlines_append, ← List.append_assoc]
    rfl

theorem OpenFile.indices_leave (opened : target.spaces = space :: spaces)
    (left : (Layout.leaveSpace space.node space.name target.statements).run start = (statement, draft))
    (closed : next.spaces = spaces) (statements : next.statements = space.outer ++ [statement]) :
    Outline.indices next.forest = Outline.indices target.forest := by
  obtain ⟨_, outline, _⟩ := Layout.leaveSpace_eq left
  obtain ⟨outside, before, after⟩ := OpenFile.forest_leave opened closed statements
  rw [after, before, outline, Outline.indices_append, Outline.indices_append, Outline.indices_stretch]

/-- A file stays sound when a namespace is left. -/
theorem FileState.Sound.leave (sound : (FileState.growing target).Sound names)
    (opened : target.spaces = space :: spaces) (begins : start.text = target.text)
    (left : (Layout.leaveSpace space.node space.name target.statements).run start = (statement, draft))
    (text : next.text = draft.text ++ "\n") (closed : next.spaces = spaces)
    (statements : next.statements = space.outer ++ [statement]) : (FileState.growing next).Sound names := by
  obtain ⟨appended, outline, _⟩ := Layout.leaveSpace_eq left
  obtain ⟨outside, before, after⟩ := OpenFile.forest_leave opened closed statements
  rw [begins] at appended
  rw [outline] at after
  have laid : Laid target.text 0 target.text.utf8ByteSize target.forest := sound.laid
  rw [before] at laid
  -- before the namespace nothing moves; what has followed its node is what the node stands around now
  obtain ⟨middle, first, second⟩ := Laid.of_append laid
  have stretched := second.stretch "\x7d"
  rw [← appended] at stretched
  have longer : draft.text.utf8ByteSize = target.text.utf8ByteSize + 1 := by
    rw [appended, String.utf8ByteSize_append]
    rfl
  have closes : next.text.utf8ByteSize = draft.text.utf8ByteSize + 1 := by
    rw [text, String.utf8ByteSize_append]
    rfl
  refine ⟨?_, ?_⟩
  · show Laid next.text 0 next.text.utf8ByteSize next.forest
    have kept := first.grow ("\x7d" ++ "\n")
    have taken := stretched.grow "\n"
    rw [← String.append_assoc, ← appended, ← text] at kept
    rw [← text] at taken
    rw [after]
    exact kept.append (taken.later (by omega) (Nat.le_refl _))
  · intro name mem
    refine sound.known name ?_
    show name ∈ Outline.names target.forest
    have stays : name ∈ Outline.names next.forest := mem
    rw [after, Outline.names_append, Outline.names_stretch] at stays
    rw [before, Outline.names_append]
    exact stays

end

end ExportLint
