import ExportLint.Proofs.Snapshots

/-!
# Sessions

Interners are values. Whoever holds one may clone it, give a clone to a builder, intern texts through it and look them
up, while the calls on builders go on, which intern the names of the files that are built. A session goes on in such
steps. For the stores a step comes to one of few things: a holder gains a store, or texts are interned in one store.
-/

namespace ExportLint

/-- Whoever holds an interner. -/
inductive Holder where
  /-- An interner of its own, made or cloned. -/
  | value (number : Nat)
  | builder (number : Nat)
  | program (number : Nat)
  deriving Repr, DecidableEq

/-- What a step does with interners. -/
inductive Event where
  | cloned (clone original : Holder)
  | interned (holder : Holder) (text : String) (symbol : Symbol)
  deriving Repr, DecidableEq

/-- A workspace, and the interners that were made beside it. -/
structure Session where
  workspace : Workspace := {}
  values : Array StoreId := #[]

namespace Session

/-- The store behind the interner of a holder. -/
def held (session : Session) : Holder → Option StoreId
  | .value number => session.values[number]?
  | .builder number => session.workspace.builders[number]?.map Builder.store
  | .program number => session.workspace.programs[number]?.map Program.store

/-- The present contents of a store. -/
def contents (session : Session) (store : StoreId) : Interner :=
  session.workspace.interners.contents store

/-- What a holder sees in its interner. -/
def seen (session : Session) (holder : Holder) : Interner :=
  ((session.held holder).map session.contents).getD .empty

/-- The session with one more interner, on a store of its own. -/
def make (session : Session) : Session :=
  let (store, interners) := session.workspace.interners.fresh
  { workspace := { session.workspace with interners }, values := session.values.push store }

/-- The session with one more interner, on a store that is there. -/
def clone (session : Session) (store : StoreId) : Session :=
  { session with values := session.values.push store }

/-- What a builder interns for the names in a tree. -/
def interned (builder : Nat) (names : List Identifier) : List Event :=
  names.map fun name => .interned (.builder builder) name.name name.symbol

/-- What an action on the builders and the files does to interners. A program has a clone of the interner of its
builder. -/
def events (origin : Nat → Nat) (session : Session) : Workspace.Action → List Event
  | .newBuilder | .openFile _ | .leaveSpace _ _ | .finish _ => []
  | .shareBuilder builder => [.cloned (.builder session.workspace.builders.size) (.builder builder)]
  | .declare file _ statement => interned (origin file) (Outline.names (Statement.outlines [statement]))
  | .enterSpace file _ name =>
    [.interned (.builder (origin file)) name ((session.seen (.builder (origin file))).intern name).1]
  | .addProgram builder _ => [.cloned (.program session.workspace.programs.size) (.builder builder)]

/-- A step of a session, with what it does to interners. -/
inductive Step (origin : Nat → Nat) : Session → List Event → Session → Prop
  | make (session : Session) : Step origin session [] session.make
  | clone {session : Session} {holder : Holder} {store : StoreId} (held : session.held holder = some store) :
    Step origin session [.cloned (.value session.values.size) holder] (session.clone store)
  | intern {session : Session} {holder : Holder} {store : StoreId} (held : session.held holder = some store)
    (text : String) : Step origin session [.interned holder text (session.workspace.interners.intern store text).1]
      { session with
        workspace := { session.workspace with interners := (session.workspace.interners.intern store text).2 } }
  /-- Looking for a text or for a symbol leaves everything as it is. -/
  | look (session : Session) : Step origin session [] session
  | build {session : Session} {holder : Holder} {store : StoreId} (held : session.held holder = some store) :
    Step origin session [.cloned (.builder session.workspace.builders.size) holder]
      { session with workspace := session.workspace.addBuilder store }
  | acts {session : Session} {action : Workspace.Action} {after : Workspace}
    (acts : Workspace.Acts origin session.workspace action after) :
    Step origin session (session.events origin action) { session with workspace := after }

/-- Steps one after the other, with all that they did to interners. -/
inductive Run (origin : Nat → Nat) : Session → List Event → Session → Prop
  | start (session : Session) : Run origin session [] session
  | step {first middle last : Session} {trace events : List Event} (run : Run origin first trace middle)
    (step : Step origin middle events last) : Run origin first (trace ++ events) last

/-- What a step comes to for the interners. -/
inductive Effect (before after : Session) : List Event → Prop
  /-- A new holder has a clone of an interner. -/
  | clones (clone original : Holder) (store : StoreId) (free : before.held clone = none)
    (held : before.held original = some store) (gained : after.held = Function.update before.held clone (some store))
    (contents : after.contents = before.contents) : Effect before after [.cloned clone original]
  /-- A new holder has a store that no other holder has. -/
  | makes (holder : Holder) (store : StoreId) (free : before.held holder = none)
    (unheld : ∀ other, before.held other ≠ some store) (inPool : store.index < after.workspace.interners.stores.size)
    (gained : after.held = Function.update before.held holder (some store))
    (contents : after.contents = before.contents) : Effect before after []
  /-- Texts are interned in the store of a holder, one after the other. -/
  | interns {events : List Event} (holder : Holder) (store : StoreId) (entries : List (String × Symbol))
    (held : before.held holder = some store) (same : after.held = before.held)
    (contents : after.contents =
      Function.update before.contents store ((before.contents store).internAll (entries.map Prod.fst)))
    (known : ∀ entry ∈ entries, (after.contents store).resolve? entry.2 = some entry.1)
    (logged : events = entries.map fun entry => .interned holder entry.1 entry.2) : Effect before after events
  | rests (same : after.held = before.held) (contents : after.contents = before.contents) : Effect before after []

/-- Whether the files of a session are sound, and every holder has a store of the pool. -/
structure Sound (origin : Nat → Nat) (session : Session) : Prop where
  workspace : session.workspace.Sound origin
  inPool : ∀ holder store, session.held holder = some store → store.index < session.workspace.interners.stores.size

variable {origin : Nat → Nat} {session before after : Session} {holder : Holder} {store : StoreId}

/-! ### New holders -/

theorem size_make (session : Session) :
    session.make.workspace.interners.stores.size = session.workspace.interners.stores.size + 1 :=
  Array.size_push ..

theorem held_clone (session : Session) (store : StoreId) :
    (session.clone store).held = Function.update session.held (.value session.values.size) (some store) := by
  funext holder
  cases holder with
  | value number =>
    simp only [held, clone, Array.getElem?_push, Function.update_apply, Holder.value.injEq]
  | builder number => rfl
  | program number => rfl

theorem held_addBuilder (session : Session) (store : StoreId) :
    ({ session with workspace := session.workspace.addBuilder store } : Session).held =
      Function.update session.held (.builder session.workspace.builders.size) (some store) := by
  funext holder
  cases holder with
  | value number => rfl
  | builder number =>
    simp only [held, Workspace.addBuilder, Array.getElem?_push, Function.update_apply, Holder.builder.injEq]
    split
    · rfl
    · rfl
  | program number => rfl

theorem held_addProgram {program : Program} :
    ({ session with
      workspace := { session.workspace with programs := session.workspace.programs.push program } } : Session).held =
      Function.update session.held (.program session.workspace.programs.size) (some program.store) := by
  funext holder
  cases holder with
  | value number => rfl
  | builder number => rfl
  | program number =>
    simp only [held, Array.getElem?_push, Function.update_apply, Holder.program.injEq]
    split
    · rfl
    · rfl

/-! ### Builders at work -/

section
variable {workspace : Workspace} {file : Nat} {target next : OpenFile} {owner : Builder} {start draft : Draft}

/-- A builder that counts on keeps its store. -/
theorem map_store_setIfInBounds {builders : Array Builder} {number : Nat}
    (owned : builders[number]? = some owner) (counted : Builder) (same : counted.store = owner.store) (other : Nat) :
    (builders.setIfInBounds number counted)[other]?.map Builder.store = builders[other]?.map Builder.store := by
  rw [Array.getElem?_setIfInBounds]
  by_cases here : number = other
  · subst here
    have inside := (Array.getElem?_eq_some_iff.mp owned).1
    rw [if_pos rfl, if_pos inside, owned, Option.map_some, Option.map_some, same]
  · rw [if_neg here]

theorem held_of_grown (grown : session.workspace.Grown workspace file target next owner start draft) :
    ({ session with workspace } : Session).held = session.held := by
  obtain ⟨_, owned, _, ends⟩ := grown
  subst ends
  funext holder
  cases holder with
  | value number => rfl
  | builder number => exact map_store_setIfInBounds owned { owner with nextId := draft.nextId } rfl number
  | program number => rfl

theorem names_eq_seen (session : Session) (builder : Nat) :
    session.workspace.names builder = session.seen (.builder builder) := by
  rw [Workspace.names, seen, held, Option.map_map]
  rfl

theorem seen_of_grown (sound : session.Sound origin)
    (grown : session.workspace.Grown workspace file target next owner start draft) :
    session.seen (.builder (origin file)) = start.interner := by
  rw [← names_eq_seen, ← sound.workspace.own file target grown.growing]
  exact grown.names_before

/-- What a file interns while it grows comes into the store of its builder. -/
theorem effect_of_grown (sound : session.Sound origin)
    (grown : session.workspace.Grown workspace file target next owner start draft) (names : List Identifier)
    (interns : draft.interner = start.interner.internAll (names.map Identifier.name))
    (known : ∀ name ∈ names, draft.interner.resolve? name.symbol = some name.name) :
    Effect session { session with workspace } (interned (origin file) names) := by
  have own := sound.workspace.own file target grown.growing
  have holds : session.held (.builder (origin file)) = some owner.store := by
    rw [← own, held, grown.owned]
    rfl
  have inPool := sound.inPool _ _ holds
  have start_eq : start.interner = session.contents owner.store := by
    rw [grown.begins]
    rfl
  have contents : ({ session with workspace } : Session).contents =
      Function.update session.contents owner.store draft.interner := by
    funext other
    have ends := grown.ends
    subst ends
    simp only [Session.contents, Workspace.setFile, Workspace.setBuilder, Interners.contents_replace, inPool, and_true,
      Function.update_apply, eq_comm]
  rw [start_eq] at interns
  refine .interns _ _ (names.map fun name => (name.name, name.symbol)) holds (held_of_grown grown) ?_ ?_ ?_
  · rw [contents, interns, List.map_map]
    rfl
  · rw [contents, Function.update_self]
    intro entry mem
    obtain ⟨name, listed, rfl⟩ := List.mem_map.mp mem
    exact known name listed
  · rw [interned, List.map_map]
    rfl

end

/-! ### The effect of a step -/

theorem effect_newBuilder (sound : session.Sound origin) :
    Effect session { session with workspace := session.workspace.newBuilder } [] := by
  let fresh := session.workspace.interners.fresh
  refine .makes (.builder session.workspace.builders.size) fresh.1 ?_ ?_ ?_ ?_ ?_
  · rw [held, Array.getElem?_size]
    rfl
  · intro other holds
    exact Nat.lt_irrefl _ (sound.inPool other _ holds)
  · have size : fresh.2.stores.size = session.workspace.interners.stores.size + 1 := Array.size_push ..
    show fresh.1.index < fresh.2.stores.size
    rw [size]
    exact Nat.lt_succ_self _
  · exact held_addBuilder { session with workspace := { session.workspace with interners := fresh.2 } } fresh.1
  · funext store
    exact Interners.contents_fresh

/-- What an action on the builders and the files comes to for the interners. -/
theorem effect_of_acts (sound : session.Sound origin) {action : Workspace.Action} {workspace : Workspace}
    (acts : Workspace.Acts origin session.workspace action workspace) :
    Effect session { session with workspace } (session.events origin action) := by
  cases acts with
  | newBuilder => exact effect_newBuilder sound
  | shareBuilder shared =>
    obtain ⟨owner, owned, rfl⟩ := Option.map_eq_some_iff.mp shared
    refine .clones _ _ owner.store ?_ ?_ (held_addBuilder session owner.store) rfl
    · rw [held, Array.getElem?_size]
      rfl
    · rw [held, owned]
      rfl
  | openFile name => exact .rests rfl rfl
  | declare single declared =>
    obtain ⟨target, owner, start, draft, run, grown⟩ := Workspace.declare_eq_some declared
    obtain ⟨new, made, adds⟩ := Layout.lays_statements _ [] start
    rw [run] at made adds
    rw [List.nil_append] at made
    subst made
    exact effect_of_grown sound grown _ adds.interns adds.known
  | @enterSpace _ file modifiers name entered =>
    obtain ⟨target, owner, start, draft, node, identifier, run, grown⟩ := Workspace.enterSpace_eq_some entered
    have lays : Layout.Lays [] (Layout.enterSpace modifiers name) fun entered =>
        [.branch entered.1 [.leaf entered.2]] := Layout.lays_enterSpace modifiers name
    obtain ⟨new, made, adds⟩ := lays start
    rw [run] at made adds
    rw [List.nil_append] at made
    subst made
    have effect := effect_of_grown sound grown _ adds.interns adds.known
    have named : interned (origin file) [identifier] =
        [.interned (.builder (origin file)) name (start.interner.intern name).1] := by
      cases run
      rfl
    rw [events, seen_of_grown sound grown, ← named]
    exact effect
  | leaveSpace left =>
    obtain ⟨target, owner, start, draft, space, spaces, opened, run, grown⟩ := Workspace.leaveSpace_eq_some left
    have same : draft.interner = start.interner := by
      cases run
      rfl
    exact effect_of_grown sound grown [] same fun _ mem => by cases mem
  | finish finished =>
    obtain ⟨target, owner, growing, owned, spaces, made, rfl⟩ := Workspace.finish_eq_some finished
    refine .rests ?_ rfl
    funext holder
    cases holder with
    | value number => rfl
    | builder number => exact map_store_setIfInBounds owned { owner with nextId := owner.nextId + 1 } rfl number
    | program number => rfl
  | addProgram made =>
    obtain ⟨owner, sources, owned, listed, rfl⟩ := Workspace.addProgram_eq_some made
    refine .clones _ _ owner.store ?_ ?_ held_addProgram rfl
    · rw [held, Array.getElem?_size]
      rfl
    · rw [held, owned]
      rfl

theorem Step.effect (sound : before.Sound origin) {events : List Event} (step : Step origin before events after) :
    Effect before after events := by
  cases step with
  | make =>
    refine .makes (.value before.values.size) before.workspace.interners.fresh.1 ?_ ?_ ?_ ?_ ?_
    · exact Array.getElem?_size
    · intro other holds
      exact Nat.lt_irrefl _ (sound.inPool other _ holds)
    · rw [size_make]
      exact Nat.lt_succ_self _
    · exact held_clone before _
    · funext store
      exact Interners.contents_fresh
  | clone held => exact .clones _ _ _ Array.getElem?_size held (held_clone before _) rfl
  | @intern holder store held text =>
    refine .interns _ _ [(text, _)] held rfl ?_ ?_ rfl
    · funext other
      simp only [Session.contents, Interners.intern, Interners.contents_replace, sound.inPool _ _ held, and_true,
        Function.update_apply, eq_comm]
      rfl
    · intro entry mem
      cases List.mem_singleton.mp mem
      rw [Session.contents, Interners.contents_intern (sound.inPool _ _ held)]
      exact Interner.resolve?_intern _ text
  | look => exact .rests rfl rfl
  | build held =>
    refine .clones _ _ _ ?_ held (held_addBuilder before _) rfl
    rw [Session.held, Array.getElem?_size]
    rfl
  | acts acts => exact effect_of_acts sound acts

/-- What is held stays when somebody who has no interner gets one. -/
theorem update_of_free {held : Holder → Option StoreId} {other : Holder} {shared : StoreId}
    (free : held holder = none) (holds : held other = some shared) :
    Function.update held holder (some store) other = some shared := by
  have apart : other ≠ holder := by
    rintro rfl
    rw [free] at holds
    cases holds
  rw [Function.update_of_ne apart, holds]

theorem Effect.held {events : List Event} (effect : Effect before after events)
    (holds : before.held holder = some store) : after.held holder = some store := by
  cases effect with
  | clones clone original shared free held gained contents =>
    rw [gained]
    exact update_of_free free holds
  | makes new fresh free unheld inPool gained contents =>
    rw [gained]
    exact update_of_free free holds
  | interns other shared entries held same contents known logged => rw [same, holds]
  | rests same contents => rw [same, holds]

/-! ### Sessions stay sound -/

theorem start_sound (origin : Nat → Nat) : Sound origin {} where
  workspace := {
    stored _ _ found := by cases found
    own _ _ found := by cases found
    files _ _ found := by cases found
    numbered _ _ found := by cases found
    apart _ _ _ _ found := by cases found
    spent _ _ below := absurd below (Nat.not_lt_zero _) }
  inPool holder _ holds := by cases holder <;> cases holds

/-- No store is given up. -/
theorem Step.size_le {events : List Event} (step : Step origin before events after) :
    before.workspace.interners.stores.size ≤ after.workspace.interners.stores.size := by
  cases step with
  | make =>
    rw [size_make]
    exact Nat.le_succ _
  | clone held => exact Nat.le_refl _
  | intern held text => exact Nat.le_of_eq Array.size_setIfInBounds.symm
  | look => exact Nat.le_refl _
  | build held => exact Nat.le_refl _
  | acts acts => exact acts.keeps.pool

theorem Effect.inPool {events : List Event} (effect : Effect before after events)
    (size : before.workspace.interners.stores.size ≤ after.workspace.interners.stores.size)
    (inPool : ∀ holder store, before.held holder = some store → store.index < before.workspace.interners.stores.size)
    (holder : Holder) (store : StoreId) (holds : after.held holder = some store) :
    store.index < after.workspace.interners.stores.size := by
  have old (holds : before.held holder = some store) := Nat.lt_of_lt_of_le (inPool holder store holds) size
  cases effect with
  | clones clone original shared free held gained contents =>
    rw [gained, Function.update_apply] at holds
    split at holds
    · cases holds
      exact Nat.lt_of_lt_of_le (inPool original _ held) size
    · exact old holds
  | makes new fresh free unheld inside gained contents =>
    rw [gained, Function.update_apply] at holds
    split at holds
    · cases holds
      exact inside
    · exact old holds
  | interns other shared entries held same contents known logged =>
    rw [same] at holds
    exact old holds
  | rests same contents =>
    rw [same] at holds
    exact old holds

theorem Sound.step (sound : before.Sound origin) {events : List Event} (step : Step origin before events after) :
    after.Sound origin := by
  refine ⟨?_, (step.effect sound).inPool step.size_le sound.inPool⟩
  have workspace := sound.workspace
  cases step with
  | make =>
    refine workspace.elsewhere (Workspace.keeps_fresh _) (fun builder owner owned => ?_) rfl fun _ => rfl
    show owner.store.index < before.make.workspace.interners.stores.size
    rw [size_make]
    exact Nat.lt_succ_of_lt (workspace.stored builder owner owned)
  | clone held => exact workspace
  | intern held text => exact workspace.call (.intern _ _ text)
  | look => exact workspace
  | @build holder store held =>
    refine workspace.elsewhere (Workspace.keeps_addBuilder _ _) (fun builder owner owned => ?_) rfl
      (Workspace.counter_addBuilder _ _)
    simp only [Workspace.addBuilder, Array.getElem?_push] at owned
    split at owned
    · cases owned
      exact sound.inPool holder store held
    · exact workspace.stored builder owner owned
  | acts acts => exact workspace.call (.acts acts)

theorem Run.sound {trace : List Event} (run : Run origin before trace after) (sound : before.Sound origin) :
    after.Sound origin := by
  induction run with
  | start => exact sound
  | step _ step ih => exact ih.step step

theorem Run.held {trace : List Event} (run : Run origin before trace after) (sound : before.Sound origin)
    (holds : before.held holder = some store) : after.held holder = some store := by
  induction run with
  | start => exact holds
  | step run step ih => exact (step.effect (run.sound sound)).held ih

theorem Run.trans {middle : Session} {trace more : List Event} (run : Run origin before trace middle)
    (further : Run origin middle more after) : Run origin before (trace ++ more) after := by
  induction further with
  | start =>
    rw [List.append_nil]
    exact run
  | step _ step ih =>
    rw [← List.append_assoc]
    exact ih.step step

end Session

end ExportLint
