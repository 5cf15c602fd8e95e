import ExportLint.Proofs.Growth
import ExportLint.Workspace

/-!
# What an operation leaves alone

How each operation on a workspace changes it, and what no operation changes: the store of a builder,
what the symbols of a store stand for, and the files that are finished.
-/

namespace ExportLint

namespace Interners

/-- Whether every store of a pool holds its symbols in a later one. -/
def Extends (later pool : Interners) : Prop :=
  ∀ id, (later.contents id).Extends (pool.contents id)

variable {pool : Interners} {id other : StoreId} {store : Interner}

theorem Extends.refl (pool : Interners) : pool.Extends pool := fun _ => .refl _

theorem contents_fresh : pool.fresh.2.contents other = pool.contents other := by
  simp only [contents, fresh, Array.getElem?_push]
  split
  · next last => simp [last]
  · rfl

theorem contents_replace : (pool.replace id store).contents other =
    if id = other ∧ id.index < pool.stores.size then store else pool.contents other := by
  obtain ⟨index⟩ := id
  obtain ⟨place⟩ := other
  simp only [contents, replace, StoreId.mk.injEq, Array.getElem?_setIfInBounds]
  by_cases same : index = place
  · subst same
    by_cases inside : index < pool.stores.size
    · simp [inside]
    · simp [inside]
  · simp [same]

theorem extends_replace (grown : store.Extends (pool.contents id)) : (pool.replace id store).Extends pool := by
  intro other
  rw [contents_replace]
  split
  · next here => exact here.1 ▸ grown
  · exact .refl _

theorem extends_intern (pool : Interners) (id : StoreId) (text : String) : (pool.intern id text).2.Extends pool :=
  extends_replace (Interner.extends_intern _ text)

end Interners

namespace Workspace

variable {workspace before after : Workspace} {builder file program : Nat} {files : List Nat}
  {declarations : List Declaration} {added : List Statement} {done : SourceFile}

theorem finished?_eq_some_iff : workspace.finished? file = some done ↔
    workspace.files[file]? = some (.finished done) := by
  unfold finished?
  match workspace.files[file]? with
  | none => simp
  | some (.growing target) => simp
  | some (.finished other) => simp

theorem growing?_eq_some_iff {target : OpenFile} : workspace.growing? file = some target ↔
    workspace.files[file]? = some (.growing target) := by
  unfold growing?
  match workspace.files[file]? with
  | none => simp
  | some (.growing other) => simp
  | some (.finished done) => simp

/-! ### What an operation does -/

/-- How a file that is being built becomes another one, where its builder goes on from one draft to another. -/
structure Grown (before after : Workspace) (file : Nat) (target next : OpenFile) (owner : Builder)
    (start draft : Draft) : Prop where
  growing : before.growing? file = some target
  owned : before.builders[target.builder]? = some owner
  begins : start =
    { text := target.text, nextId := owner.nextId, interner := before.interners.contents owner.store }
  ends : after = (before.setBuilder target.builder { owner with nextId := draft.nextId } draft.interner).setFile file
    (.growing next)

theorem grow_eq_some {α : Type} {step : OpenFile → Option (Layout (α × OpenFile))} {value : α}
    (grown : before.grow file step = some (value, after)) :
    ∃ target layout next owner start draft, step target = some layout ∧ layout.run start = ((value, next), draft) ∧
      before.Grown after file target { next with text := draft.text } owner start draft := by
  unfold grow at grown
  match growing : before.growing? file with
  | none => simp [growing] at grown
  | some target =>
    match owned : before.builders[target.builder]? with
    | none => simp [growing, owned] at grown
    | some owner =>
      match accepted : step target with
      | none => simp [growing, owned, accepted] at grown
      | some layout =>
        simp only [growing, owned, accepted, Option.bind_eq_bind, Option.bind_some] at grown
        cases grown
        exact ⟨target, layout, _, owner, _, _, accepted, rfl, growing, owned, rfl, rfl⟩

theorem declare_eq_some (declared : before.declare file declarations = some (added, after)) :
    ∃ target owner start draft, (Layout.statements declarations).run start = (added, draft) ∧
      before.Grown after file target
        { target with text := draft.text, statements := target.statements ++ added } owner start draft := by
  obtain ⟨target, layout, next, owner, start, draft, accepted, run, grown⟩ := grow_eq_some declared
  cases accepted
  cases run
  exact ⟨target, owner, start, _, rfl, grown⟩

theorem enterSpace_eq_some {modifiers : ModifierFlags} {name : String}
    (entered : before.enterSpace file modifiers name = some ((), after)) :
    ∃ target owner start draft node identifier,
      (Layout.enterSpace modifiers name).run start = ((node, identifier), draft) ∧
      before.Grown after file target
        { target with
          text := draft.text, statements := []
          spaces := { node, name := identifier, outer := target.statements } :: target.spaces } owner start draft := by
  obtain ⟨target, layout, next, owner, start, draft, accepted, run, grown⟩ := grow_eq_some entered
  cases accepted
  cases run
  exact ⟨target, owner, start, _, _, _, rfl, grown⟩

theorem leaveSpace_eq_some {statement : Statement} (left : before.leaveSpace file = some (statement, after)) :
    ∃ target owner start draft space spaces, target.spaces = space :: spaces ∧
      (Layout.leaveSpace space.node space.name target.statements).run start = (statement, draft) ∧
      before.Grown after file target
        { target with text := draft.text ++ "\n", statements := space.outer ++ [statement], spaces } owner start
        { draft with text := draft.text ++ "\n" } := by
  obtain ⟨target, layout, next, owner, start, draft, accepted, run, grown⟩ := grow_eq_some left
  match opened : target.spaces with
  | [] =>
    rw [opened] at accepted
    cases accepted
  | space :: spaces =>
    rw [opened] at accepted
    cases accepted
    cases run
    exact ⟨target, owner, start, _, space, spaces, opened, rfl, grown⟩

theorem finish_eq_some (finished : before.finish file = some (done, after)) :
    ∃ target owner, before.growing? file = some target ∧ before.builders[target.builder]? = some owner ∧
      target.spaces = [] ∧
      done = { id := ⟨owner.nextId⟩, name := target.name, text := target.text, statements := target.statements } ∧
      after = { before with
        builders := before.builders.setIfInBounds target.builder { owner with nextId := owner.nextId + 1 }
        files := before.files.setIfInBounds file (.finished done) } := by
  unfold finish at finished
  match growing : before.growing? file with
  | none => simp [growing] at finished
  | some target =>
    match owned : before.builders[target.builder]? with
    | none => simp [growing, owned] at finished
    | some owner =>
      match spaces : target.spaces with
      | space :: rest =>
        simp only [growing, owned, spaces, guard, List.isEmpty_cons, Bool.false_eq_true, if_false, Option.bind_eq_bind,
          Option.bind_some] at finished
        cases finished
      | [] =>
        simp only [growing, owned, spaces, guard, List.isEmpty_nil, Option.bind_eq_bind, Option.bind_some] at finished
        cases finished
        exact ⟨target, owner, rfl, owned, spaces, rfl, rfl⟩

theorem addProgram_eq_some (made : before.addProgram builder files = some after) :
    ∃ owner sources, before.builders[builder]? = some owner ∧
      List.Forall₂ (fun file source => before.finished? file = some source) files sources ∧
      after = { before with programs := before.programs.push { store := owner.store, files := sources } } := by
  unfold addProgram at made
  match owned : before.builders[builder]? with
  | none => simp [owned] at made
  | some owner =>
    match listed : files.mapM before.finished? with
    | none => simp [owned, listed] at made
    | some sources =>
      simp only [owned, listed, Option.bind_eq_bind, Option.bind_some] at made
      cases made
      refine ⟨owner, sources, rfl, ?_, rfl⟩
      clear owned
      induction files generalizing sources with
      | nil =>
        cases listed
        exact .nil
      | cons file rest ih =>
        simp only [List.mapM_cons, Option.bind_eq_bind, Option.bind_eq_some_iff] at listed
        obtain ⟨source, found, others, listed, same⟩ := listed
        cases same
        exact .cons found (ih others listed)

/-! ### What no operation changes -/

theorem getElem?_push_of_some {α : Type} {elements : Array α} {index : Nat} {element : α} (new : α)
    (found : elements[index]? = some element) : (elements.push new)[index]? = some element := by
  have inside := (Array.getElem?_eq_some_iff.mp found).1
  rw [Array.getElem?_push, if_neg (Nat.ne_of_lt inside), found]

/-- What no use of a builder changes: which store a builder has, what symbols stand for, which stores there are, and
what is finished. -/
structure Keeps (before after : Workspace) : Prop where
  stores : ∀ (builder : Nat) (owner : Builder), before.builders[builder]? = some owner →
    ∃ counted : Builder, after.builders[builder]? = some counted ∧ counted.store = owner.store
  interners : after.interners.Extends before.interners
  pool : before.interners.stores.size ≤ after.interners.stores.size
  finished : ∀ file done, before.finished? file = some done → after.finished? file = some done

theorem Keeps.trans {middle : Workspace} (first : before.Keeps middle) (second : middle.Keeps after) :
    before.Keeps after where
  stores builder owner owned := by
    obtain ⟨counted, owned', same⟩ := first.stores builder owner owned
    obtain ⟨counted', owned'', same'⟩ := second.stores builder counted owned'
    exact ⟨counted', owned'', same'.trans same⟩
  interners id := (second.interners id).trans (first.interners id)
  pool := Nat.le_trans first.pool second.pool
  finished file done found := second.finished file done (first.finished file done found)

theorem Keeps.names (keeps : before.Keeps after) (builder : Nat) :
    (after.names builder).Extends (before.names builder) := by
  unfold Workspace.names
  match owned : before.builders[builder]? with
  | none => exact Interner.extends_empty _
  | some owner =>
    obtain ⟨counted, owned', same⟩ := keeps.stores builder owner owned
    simp only [owned', Option.map_some, Option.getD_some, same]
    exact keeps.interners owner.store

theorem keeps_addBuilder (workspace : Workspace) (store : StoreId) :
    workspace.Keeps (workspace.addBuilder store) where
  stores _ owner owned := ⟨owner, getElem?_push_of_some _ owned, rfl⟩
  interners := .refl _
  pool := Nat.le_refl _
  finished _ _ found := found

theorem keeps_fresh (workspace : Workspace) :
    workspace.Keeps { workspace with interners := workspace.interners.fresh.2 } where
  stores _ owner owned := ⟨owner, owned, rfl⟩
  interners id := by
    show Interner.Extends (workspace.interners.fresh.2.contents id) _
    rw [Interners.contents_fresh]
    exact .refl _
  pool := by
    have size : workspace.interners.fresh.2.stores.size = workspace.interners.stores.size + 1 := Array.size_push ..
    show _ ≤ workspace.interners.fresh.2.stores.size
    rw [size]
    exact Nat.le_succ _
  finished _ _ found := found

theorem keeps_newBuilder (workspace : Workspace) : workspace.Keeps workspace.newBuilder :=
  (keeps_fresh workspace).trans (keeps_addBuilder _ _)

theorem keeps_shareBuilder (shared : before.shareBuilder builder = some after) : before.Keeps after := by
  obtain ⟨owner, _, rfl⟩ := Option.map_eq_some_iff.mp shared
  exact keeps_addBuilder _ _

theorem keeps_openFile (workspace : Workspace) (builder : Nat) (name : String) :
    workspace.Keeps (workspace.openFile builder name) := by
  refine ⟨fun _ owner owned => ⟨owner, owned, rfl⟩, .refl _, Nat.le_refl _, fun file done found => ?_⟩
  rw [finished?_eq_some_iff] at found ⊢
  exact getElem?_push_of_some _ found

/-- A growing file and the counter of its builder change without touching anything else. -/
theorem keeps_setFile {target : OpenFile} {owner counted : Builder} {state : FileState} {pool : Interners}
    (growing : before.growing? file = some target) (owned : before.builders[builder]? = some owner)
    (same : counted.store = owner.store) (grown : pool.Extends before.interners)
    (size : pool.stores.size = before.interners.stores.size) :
    before.Keeps { before with
      interners := pool
      builders := before.builders.setIfInBounds builder counted
      files := before.files.setIfInBounds file state } where
  stores other owner' owned' := by
    dsimp only
    rw [Array.getElem?_setIfInBounds]
    by_cases here : builder = other
    · subst here
      cases owned.symm.trans owned'
      have inside := (Array.getElem?_eq_some_iff.mp owned).1
      exact ⟨counted, by simp [inside], same⟩
    · exact ⟨owner', by rw [if_neg here, owned'], rfl⟩
  interners := grown
  pool := Nat.le_of_eq size.symm
  finished other done found := by
    rw [finished?_eq_some_iff] at found ⊢
    dsimp only
    have apart : file ≠ other := by
      rintro rfl
      rw [growing?_eq_some_iff.mp growing] at found
      cases found
    rw [Array.getElem?_setIfInBounds, if_neg apart, found]

theorem keeps_finish (finished : before.finish file = some (done, after)) : before.Keeps after := by
  obtain ⟨target, owner, growing, owned, _, _, rfl⟩ := finish_eq_some finished
  exact keeps_setFile growing owned rfl (.refl _) rfl

theorem keeps_addProgram (made : before.addProgram builder files = some after) : before.Keeps after := by
  obtain ⟨owner, sources, _, _, rfl⟩ := addProgram_eq_some made
  exact ⟨fun _ owner owned => ⟨owner, owned, rfl⟩, .refl _, Nat.le_refl _, fun _ _ found => found⟩

theorem keeps_intern (workspace : Workspace) (store : StoreId) (name : String) :
    workspace.Keeps { workspace with interners := (workspace.interners.intern store name).2 } :=
  ⟨fun _ owner owned => ⟨owner, owned, rfl⟩, Interners.extends_intern _ _ _, Nat.le_of_eq Array.size_setIfInBounds.symm,
    fun _ _ found => found⟩

/-! ### Where builders have their names -/

/-- Whether every builder has a store of the pool. -/
def Stored (workspace : Workspace) : Prop :=
  ∀ (builder : Nat) (owner : Builder), workspace.builders[builder]? = some owner →
    owner.store.index < workspace.interners.stores.size

theorem initial_stored : initial.Stored := by
  intro builder owner owned
  have only : builder = 0 ∧ owner = { store := ⟨0⟩ } := by
    match builder with
    | 0 => exact ⟨rfl, by cases owned; rfl⟩
    | number + 1 => cases owned
  rw [only.2]
  exact Nat.zero_lt_one

theorem Stored.newBuilder (stored : workspace.Stored) : workspace.newBuilder.Stored := by
  intro builder owner owned
  simp only [Workspace.newBuilder, Workspace.addBuilder, Interners.fresh, Array.getElem?_push,
    Array.size_push] at owned ⊢
  split at owned
  · cases owned
    exact Nat.lt_succ_self _
  · have := stored builder owner owned
    omega

theorem Stored.shareBuilder (stored : before.Stored) (shared : before.shareBuilder builder = some after) :
    after.Stored := by
  obtain ⟨owner, owned, rfl⟩ := Option.map_eq_some_iff.mp shared
  intro other sharing found
  simp only [Workspace.addBuilder, Array.getElem?_push] at found ⊢
  split at found
  · cases found
    exact stored builder owner owned
  · exact stored other sharing found

theorem Stored.intern (stored : workspace.Stored) (store : StoreId) (name : String) :
    ({ workspace with interners := (workspace.interners.intern store name).2 } : Workspace).Stored := by
  intro builder owner owned
  simpa [Interners.intern, Interners.replace] using stored builder owner owned

/-- Every builder still has a store of the pool when one of them counts on. -/
theorem Stored.count (stored : before.Stored) {owner counted : Builder} {number : Nat}
    (owned : before.builders[number]? = some owner) (same : counted.store = owner.store) :
    ({ before with builders := before.builders.setIfInBounds number counted } : Workspace).Stored := by
  intro builder other found
  dsimp only at found ⊢
  rw [Array.getElem?_setIfInBounds] at found
  split at found
  · split at found
    · cases found
      rw [same]
      exact stored number owner owned
    · cases found
  · exact stored builder other found

theorem Stored.finish (stored : before.Stored) (finished : before.finish file = some (done, after)) : after.Stored := by
  obtain ⟨target, owner, growing, owned, _, _, rfl⟩ := finish_eq_some finished
  exact stored.count owned rfl

namespace Grown

variable {target next : OpenFile} {owner : Builder} {start draft : Draft}

theorem keeps (grown : before.Grown after file target next owner start draft) (extend : draft.Extends start) :
    before.Keeps after := by
  have ends := grown.ends
  have names := extend.interner
  rw [grown.begins] at names
  subst ends
  exact keeps_setFile grown.growing grown.owned rfl (Interners.extends_replace names) Array.size_setIfInBounds

theorem stored (grown : before.Grown after file target next owner start draft) (stored : before.Stored) :
    after.Stored := by
  have ends := grown.ends
  subst ends
  intro builder other found
  have same : ({ owner with nextId := draft.nextId } : Builder).store = owner.store := rfl
  have inside := stored.count grown.owned same builder other found
  simpa [setBuilder, setFile, Interners.replace] using inside

theorem names_before (grown : before.Grown after file target next owner start draft) :
    before.names target.builder = start.interner := by
  rw [grown.begins, names, grown.owned]
  rfl

theorem names_after (grown : before.Grown after file target next owner start draft) (stored : before.Stored) :
    after.names target.builder = draft.interner := by
  have inPool := stored target.builder owner grown.owned
  have isBuilder := (Array.getElem?_eq_some_iff.mp grown.owned).1
  rw [grown.ends]
  simp [names, setBuilder, setFile, isBuilder, Interners.contents_replace, inPool]

theorem files_after (grown : before.Grown after file target next owner start draft) :
    after.files = before.files.setIfInBounds file (.growing next) := by
  rw [grown.ends]
  rfl

theorem programs_after (grown : before.Grown after file target next owner start draft) :
    after.programs = before.programs := by
  rw [grown.ends]
  rfl

end Grown

theorem keeps_declare (declared : before.declare file declarations = some (added, after)) : before.Keeps after := by
  obtain ⟨target, owner, start, draft, run, grown⟩ := declare_eq_some declared
  have extend := (Layout.lays_statements declarations []).grows start
  rw [run] at extend
  exact grown.keeps extend

theorem keeps_enterSpace {modifiers : ModifierFlags} {name : String}
    (entered : before.enterSpace file modifiers name = some ((), after)) : before.Keeps after := by
  obtain ⟨target, owner, start, draft, node, identifier, run, grown⟩ := enterSpace_eq_some entered
  have lays : Layout.Lays [] (Layout.enterSpace modifiers name) fun entered => [.branch entered.1 [.leaf entered.2]] :=
    Layout.lays_enterSpace modifiers name
  have extend := lays.grows start
  rw [run] at extend
  exact grown.keeps extend

theorem keeps_leaveSpace {statement : Statement} (left : before.leaveSpace file = some (statement, after)) :
    before.Keeps after := by
  obtain ⟨target, owner, start, draft, space, spaces, _, run, grown⟩ := leaveSpace_eq_some left
  cases run
  have extend : Draft.Extends { start with text := start.text ++ "\x7d" ++ "\n" } start :=
    ⟨⟨"\x7d" ++ "\n", String.append_assoc⟩, .refl _⟩
  exact grown.keeps extend

end Workspace

end ExportLint
