import ExportLint.Proofs.Sessions

/-!
# Shared names

In a session everybody who holds a clone of an interner sees the same texts, which are those that were interned
through any of the clones, and nobody else sees them. A text has one symbol then, whoever interned it and whenever,
and the identifiers in the trees of finished files carry the symbols of their names.
-/

namespace ExportLint

namespace Interner

variable {store : Interner} {texts : List String}

theorem extends_internAll (store : Interner) (texts : List String) : (store.internAll texts).Extends store := by
  induction texts generalizing store with
  | nil => exact .refl _
  | cons text rest ih => exact (ih _).trans (store.extends_intern text)

/-- A store holds the texts that were interned in it, each where it came first. -/
theorem toList_internAll (holds : store.strings.toList = texts.eraseDups) (more : List String) :
    (store.internAll more).strings.toList = (texts ++ more).eraseDups := by
  induction more generalizing store texts with
  | nil => rw [List.append_nil, ← holds]; rfl
  | cons text rest ih =>
    have one : (store.intern text).2.strings.toList = (texts ++ [text]).eraseDups := by
      rw [toList_intern, holds, List.eraseDups_append]
      by_cases mem : text ∈ texts
      · simp [List.removeAll, mem]
      · simp [List.removeAll, List.eraseDups_cons, mem]
    have others := ih one
    rwa [List.append_assoc, List.singleton_append] at others

theorem symbol_eq_iff {symbol symbol' : Symbol} {text text' : String} (stands : store.resolve? symbol = some text)
    (stands' : store.resolve? symbol' = some text') : symbol = symbol' ↔ text = text' := by
  constructor
  · rintro rfl
    exact Option.some.inj (stands.symm.trans stands')
  · rintro rfl
    have found := find?_eq_some_iff.mpr stands
    have found' := find?_eq_some_iff.mpr stands'
    exact Option.some.inj (found.symm.trans found')

theorem toFinset_eraseDups (texts : List String) : texts.eraseDups.toFinset = texts.toFinset := by
  ext text
  rw [List.mem_toFinset, List.mem_toFinset, List.mem_eraseDups]

theorem size_eq_card (holds : store.strings.toList = texts.eraseDups) : store.size = texts.toFinset.card := by
  rw [← toFinset_eraseDups, ← holds, List.toFinset_card_of_nodup store.nodup]
  rfl

theorem eq_of_toList {later : Interner} (same : later.strings.toList = store.strings.toList) : later = store := by
  obtain ⟨strings, _⟩ := store
  obtain ⟨strings', _⟩ := later
  cases Array.toList_inj.mp same
  rfl

/-- A text that did not come before takes the place behind all texts that did. -/
theorem rank_eq_card {more : List String} {text : String} {symbol : Symbol}
    (holds : store.strings.toList = (texts ++ text :: more).eraseDups) (new : text ∉ texts)
    (stands : store.resolve? symbol = some text) : symbol.rank = texts.toFinset.card := by
  have split : store.strings.toList =
      texts.eraseDups ++ text :: ((more.removeAll texts).filter fun other => !other == text).eraseDups := by
    rw [holds, List.eraseDups_append, List.cons_removeAll, if_pos (by simpa using new), List.eraseDups_cons]
  have distinct := store.nodup
  rw [split] at distinct
  have count : texts.eraseDups.length = texts.toFinset.card := by
    rw [← toFinset_eraseDups, List.toFinset_card_of_nodup (List.nodup_append.mp distinct).1]
  have place : store.resolve? ⟨texts.eraseDups.length⟩ = some text := by
    rw [resolve?, ← Array.getElem?_toList, split]
    simp
  rw [(symbol_eq_iff stands place).mpr rfl, count]

end Interner

namespace Session

/-- Whether cloning relates two holders. -/
def Related (trace : List Event) : Holder → Holder → Prop :=
  Relation.EqvGen fun clone original => .cloned clone original ∈ trace

/-- The text that an event interns in a store. -/
def mentioned? (held : Holder → Option StoreId) (store : StoreId) : Event → Option String
  | .cloned _ _ => none
  | .interned holder text _ => if held holder = some store then some text else none

/-- The texts that were interned through the holders of a store, in the order of interning. -/
def mentions (held : Holder → Option StoreId) (store : StoreId) (trace : List Event) : List String :=
  trace.filterMap (mentioned? held store)

/-- Whether holders and stores are as they have to be after what has been done to interners. -/
structure Accounts (held : Holder → Option StoreId) (contents : StoreId → Interner) (trace : List Event) : Prop where
  cloned : ∀ clone original, .cloned clone original ∈ trace →
    ∃ store, held clone = some store ∧ held original = some store
  related : ∀ holder other store, held holder = some store → held other = some store → Related trace holder other
  interned : ∀ holder text symbol, .interned holder text symbol ∈ trace →
    ∃ store, held holder = some store ∧ (contents store).resolve? symbol = some text
  contents : ∀ store, (contents store).strings.toList = (mentions held store trace).eraseDups

variable {origin : Nat → Nat} {session before after : Session} {holder other : Holder} {store : StoreId}
  {held : Holder → Option StoreId} {contents : StoreId → Interner} {trace events : List Event}

theorem Related.mono (related : Related trace holder other) (events : List Event) :
    Related (trace ++ events) holder other :=
  Relation.EqvGen.mono (fun _ _ mem => List.mem_append_left events mem) _ _ related

theorem mentions_append (held : Holder → Option StoreId) (store : StoreId) (trace events : List Event) :
    mentions held store (trace ++ events) = mentions held store trace ++ mentions held store events :=
  List.filterMap_append

theorem mem_mentions_iff {text : String} : text ∈ mentions held store trace ↔
    ∃ holder symbol, held holder = some store ∧ .interned holder text symbol ∈ trace := by
  rw [mentions, List.mem_filterMap]
  constructor
  · rintro ⟨event, mem, same⟩
    cases event with
    | cloned clone original => cases same
    | interned holder text' symbol =>
      rw [mentioned?] at same
      split at same
      · next holds =>
        cases same
        exact ⟨holder, symbol, holds, mem⟩
      · cases same
  · rintro ⟨holder, symbol, holds, mem⟩
    exact ⟨_, mem, if_pos holds⟩

/-- What is interned through one holder is mentioned in its store and in no other one. -/
theorem mentions_entries (holds : held holder = some store) (entries : List (String × Symbol)) (other : StoreId) :
    mentions held other (entries.map fun entry => .interned holder entry.1 entry.2) =
      if other = store then entries.map Prod.fst else [] := by
  rw [mentions, List.filterMap_map]
  by_cases same : other = store
  · subst same
    rw [if_pos rfl, ← List.filterMap_eq_map]
    refine List.filterMap_congr fun entry _ => ?_
    exact if_pos holds
  · rw [if_neg same]
    refine List.filterMap_eq_nil_iff.mpr fun entry _ => ?_
    refine if_neg ?_
    rw [holds]
    exact fun here => same (Option.some.inj here).symm

namespace Accounts

/-- Where nobody loses an interner, what has been interned goes on to be mentioned where it was. -/
theorem mentions_eq (accounts : Accounts held contents trace) {held' : Holder → Option StoreId}
    (kept : ∀ holder store, held holder = some store → held' holder = some store) (store : StoreId) :
    mentions held' store trace = mentions held store trace := by
  refine List.filterMap_congr fun event mem => ?_
  cases event with
  | cloned clone original => rfl
  | interned holder text symbol =>
    obtain ⟨shared, holds, _⟩ := accounts.interned holder text symbol mem
    rw [mentioned?, mentioned?, kept holder shared holds, holds]

/-- The accounts go on when a holder that had no interner gets one. -/
theorem gain (accounts : Accounts held contents trace) (free : held holder = none)
    (clones : ∀ event ∈ events, ∃ original, event = .cloned holder original ∧ held original = some store)
    (linked : ∀ other, held other = some store → Related (trace ++ events) holder other) :
    Accounts (Function.update held holder (some store)) contents (trace ++ events) := by
  have kept (other : Holder) (shared : StoreId) (holds : held other = some shared) :
      Function.update held holder (some store) other = some shared := update_of_free free holds
  constructor
  · intro clone original mem
    rcases List.mem_append.mp mem with old | new
    · obtain ⟨shared, holds, holds'⟩ := accounts.cloned clone original old
      exact ⟨shared, kept _ _ holds, kept _ _ holds'⟩
    · obtain ⟨_, same, holds⟩ := clones _ new
      cases same
      exact ⟨store, Function.update_self .., kept _ _ holds⟩
  · intro first second shared holds holds'
    rw [Function.update_apply] at holds holds'
    split at holds <;> split at holds'
    · next here there => exact here ▸ there ▸ .refl _
    · next here there =>
      cases holds
      exact here ▸ linked second holds'
    · next here there =>
      cases holds'
      exact there ▸ (linked first holds).symm
    · exact (accounts.related first second shared holds holds').mono events
  · intro user text symbol mem
    rcases List.mem_append.mp mem with old | new
    · obtain ⟨shared, holds, stands⟩ := accounts.interned user text symbol old
      exact ⟨shared, kept _ _ holds, stands⟩
    · obtain ⟨_, same, _⟩ := clones _ new
      cases same
  · intro other
    have added : mentions (Function.update held holder (some store)) other events = [] := by
      refine List.filterMap_eq_nil_iff.mpr fun event mem => ?_
      obtain ⟨_, rfl, _⟩ := clones event mem
      rfl
    rw [mentions_append, added, accounts.mentions_eq kept, List.append_nil]
    exact accounts.contents other

/-- The accounts go on when texts are interned in one store. -/
theorem intern (accounts : Accounts held contents trace) (holds : held holder = some store)
    (entries : List (String × Symbol))
    (known : ∀ entry ∈ entries, ((contents store).internAll (entries.map Prod.fst)).resolve? entry.2 = some entry.1) :
    Accounts held (Function.update contents store ((contents store).internAll (entries.map Prod.fst)))
      (trace ++ entries.map fun entry => .interned holder entry.1 entry.2) := by
  constructor
  · intro clone original mem
    rcases List.mem_append.mp mem with old | new
    · exact accounts.cloned clone original old
    · obtain ⟨_, _, same⟩ := List.mem_map.mp new
      cases same
  · intro first second shared holds holds'
    exact (accounts.related first second shared holds holds').mono _
  · intro user text symbol mem
    rcases List.mem_append.mp mem with old | new
    · obtain ⟨shared, uses, stands⟩ := accounts.interned user text symbol old
      refine ⟨shared, uses, ?_⟩
      rw [Function.update_apply]
      split
      · next here => exact (contents store).extends_internAll _ (here ▸ stands)
      · exact stands
    · obtain ⟨entry, listed, same⟩ := List.mem_map.mp new
      cases same
      refine ⟨store, holds, ?_⟩
      rw [Function.update_self]
      exact known entry listed
  · intro other
    rw [mentions_append, mentions_entries holds, Function.update_apply]
    by_cases here : other = store
    · subst here
      rw [if_pos rfl, if_pos rfl]
      exact Interner.toList_internAll (accounts.contents other) _
    · rw [if_neg here, if_neg here, List.append_nil]
      exact accounts.contents other

theorem effect (accounts : Accounts before.held before.contents trace) (effect : Effect before after events) :
    Accounts after.held after.contents (trace ++ events) := by
  cases effect with
  | clones clone original store free holds gained contents =>
    rw [gained, contents]
    have link : Related (trace ++ [.cloned clone original]) clone original :=
      .rel _ _ (List.mem_append_right _ (List.mem_singleton_self _))
    refine accounts.gain free ?_ ?_
    · intro event mem
      exact ⟨original, List.mem_singleton.mp mem, holds⟩
    · intro other holds'
      exact link.trans _ _ _ ((accounts.related original other store holds holds').mono _)
  | makes holder store free unheld inPool gained contents =>
    rw [gained, contents]
    refine accounts.gain free ?_ ?_
    · intro event mem
      cases mem
    · intro other holds
      exact absurd holds (unheld other)
  | interns holder store entries holds same contents known logged =>
    rw [contents, Function.update_self] at known
    rw [same, contents, logged]
    exact accounts.intern holds entries known
  | rests same contents =>
    rw [same, contents, List.append_nil]
    exact accounts

end Accounts

/-! ### What sessions come to -/

theorem Run.accounts (run : Run origin {} trace session) : Accounts session.held session.contents trace := by
  induction run with
  | start =>
    constructor
    · intro clone original mem
      cases mem
    · intro holder other store holds
      cases holder <;> cases holds
    · intro holder text symbol mem
      cases mem
    · intro store
      rfl
  | step run step ih => exact ih.effect (step.effect (run.sound (start_sound origin)))

/-- What interning comes to after a run, with all that was done to interners in it. -/
structure SharesNames (origin : Nat → Nat) (session : Session) (trace : List Event) : Prop where
  /-- Who is related by cloning sees the same, and others have stores that are not shared. -/
  seen_of_related : ∀ holder other, Related trace holder other → session.seen holder = session.seen other
  related_iff : ∀ holder other store, session.held holder = some store →
    (session.held other = some store ↔ Related trace holder other)
  /-- What is seen depends on what related holders have interned, and on nothing else. -/
  strings : ∀ holder store, session.held holder = some store →
    (session.seen holder).strings.toList = (mentions session.held store trace).eraseDups
  size : ∀ holder store, session.held holder = some store →
    (session.seen holder).size = (mentions session.held store trace).toFinset.card
  /-- A text that was not interned before takes the next symbol. -/
  next : ∀ earlier later holder text symbol store, trace = earlier ++ .interned holder text symbol :: later →
    session.held holder = some store → text ∉ mentions session.held store earlier →
    symbol.rank = (mentions session.held store earlier).toFinset.card
  symbol_eq_iff : ∀ holder other text text' symbol symbol', .interned holder text symbol ∈ trace →
    .interned other text' symbol' ∈ trace → Related trace holder other → (symbol = symbol' ↔ text = text')
  resolves : ∀ holder text symbol, .interned holder text symbol ∈ trace →
    (session.seen holder).resolve? symbol = some text
  find?_eq_some_iff : ∀ holder text symbol, (session.seen holder).find? text = some symbol ↔
    ∃ other, Related trace holder other ∧ .interned other text symbol ∈ trace
  identifier : ∀ file done, session.workspace.finished? file = some done → ∀ name ∈ Outline.names [done.outline],
    (session.seen (.builder (origin file))).resolve? name.symbol = some name.name
  identifiers : ∀ file other done done', session.workspace.finished? file = some done →
    session.workspace.finished? other = some done' → Related trace (.builder (origin file)) (.builder (origin other)) →
    ∀ name ∈ Outline.names [done.outline], ∀ name' ∈ Outline.names [done'.outline],
      (name.symbol = name'.symbol ↔ name.name = name'.name)

/-- What does not change while a session goes on from one state to a later one. -/
structure Undisturbed (session later : Session) (trace more : List Event) : Prop where
  held : ∀ holder store, session.held holder = some store → later.held holder = some store
  resolves : ∀ holder symbol text, (session.seen holder).resolve? symbol = some text →
    (later.seen holder).resolve? symbol = some text
  /-- What is interned through others that cloning does not relate to a holder is not seen by it. -/
  seen_of_unrelated : ∀ holder store, session.held holder = some store →
    (∀ other text symbol, .interned other text symbol ∈ more → ¬ Related (trace ++ more) holder other) →
      later.seen holder = session.seen holder

theorem seen_of_held (holds : session.held holder = some store) : session.seen holder = session.contents store := by
  rw [seen, holds]
  rfl

namespace Accounts

variable (accounts : Accounts session.held session.contents trace) {text : String} {symbol : Symbol}
include accounts

theorem held_eq_of_related (related : Related trace holder other) : session.held holder = session.held other := by
  induction related with
  | rel clone original mem =>
    obtain ⟨store, holds, holds'⟩ := accounts.cloned clone original mem
    rw [holds, holds']
  | refl => rfl
  | symm _ _ _ ih => exact ih.symm
  | trans _ _ _ _ _ first second => exact first.trans second

theorem seen_eq_of_related (related : Related trace holder other) : session.seen holder = session.seen other := by
  rw [seen, seen, accounts.held_eq_of_related related]

theorem resolves (mem : .interned holder text symbol ∈ trace) :
    (session.seen holder).resolve? symbol = some text := by
  obtain ⟨store, holds, stands⟩ := accounts.interned holder text symbol mem
  rw [seen_of_held holds]
  exact stands

theorem find?_eq_some_iff : (session.seen holder).find? text = some symbol ↔
    ∃ other, Related trace holder other ∧ .interned other text symbol ∈ trace := by
  constructor
  · intro found
    have stands := Interner.find?_eq_some_iff.mp found
    cases holds : session.held holder with
    | none =>
      rw [seen, holds] at stands
      cases stands
    | some store =>
      rw [seen_of_held holds] at stands
      have listed : text ∈ (session.contents store).strings.toList := by
        rw [Interner.resolve?, ← Array.getElem?_toList] at stands
        exact List.mem_of_getElem? stands
      rw [accounts.contents, List.mem_eraseDups] at listed
      obtain ⟨other, symbol', holds', mem⟩ := mem_mentions_iff.mp listed
      have stands' := accounts.resolves mem
      rw [seen_of_held holds'] at stands'
      rw [(Interner.symbol_eq_iff stands stands').mpr rfl]
      exact ⟨other, accounts.related holder other store holds holds', mem⟩
  · rintro ⟨other, related, mem⟩
    have stands := accounts.resolves mem
    rw [seen, ← accounts.held_eq_of_related related] at stands
    exact Interner.find?_eq_some_iff.mpr stands

/-- A text that is interned for the first time takes the symbol after those of the texts before it. -/
theorem rank_of_new {earlier later : List Event} (split : trace = earlier ++ .interned holder text symbol :: later)
    (holds : session.held holder = some store) (new : text ∉ mentions session.held store earlier) :
    symbol.rank = (mentions session.held store earlier).toFinset.card := by
  have mem : .interned holder text symbol ∈ trace := by
    rw [split]
    exact List.mem_append_right _ List.mem_cons_self
  have stands := accounts.resolves mem
  have strings := accounts.contents store
  have here : mentioned? session.held store (.interned holder text symbol) = some text := if_pos holds
  rw [split, mentions_append, mentions, mentions, List.filterMap_cons_some here] at strings
  rw [seen_of_held holds] at stands
  exact Interner.rank_eq_card strings new stands

theorem undisturbed {later : Session} {more : List Event}
    (accounts' : Accounts later.held later.contents (trace ++ more))
    (held : ∀ holder store, session.held holder = some store → later.held holder = some store) :
    session.Undisturbed later trace more where
  held := held
  resolves holder symbol text stands := by
    obtain ⟨other, related, mem⟩ := accounts.find?_eq_some_iff.mp (Interner.find?_eq_some_iff.mpr stands)
    have found := accounts'.find?_eq_some_iff.mpr ⟨other, related.mono more, List.mem_append_left more mem⟩
    exact Interner.find?_eq_some_iff.mp found
  seen_of_unrelated holder store holds unrelated := by
    have holds' := held holder store holds
    have none : mentions later.held store more = [] := by
      rw [List.eq_nil_iff_forall_not_mem]
      intro text mem
      obtain ⟨other, symbol, uses, listed⟩ := mem_mentions_iff.mp mem
      exact unrelated other text symbol listed (accounts'.related holder other store holds' uses)
    apply Interner.eq_of_toList
    rw [seen_of_held holds, seen_of_held holds']
    have strings := accounts'.contents store
    rw [mentions_append, none, List.append_nil, accounts.mentions_eq held, ← accounts.contents] at strings
    exact strings

end Accounts

theorem Sound.identifier (sound : session.Sound origin) {file : Nat} {done : SourceFile}
    (finished : session.workspace.finished? file = some done) {name : Identifier}
    (mem : name ∈ Outline.names [done.outline]) :
    (session.seen (.builder (origin file))).resolve? name.symbol = some name.name := by
  rw [← names_eq_seen]
  have state := sound.workspace.files file _ (Workspace.finished?_eq_some_iff.mp finished)
  apply state.known
  rw [SourceFile.outline, Outline.names_branch, Outline.names_nil, List.append_nil] at mem
  exact mem

/-- Interning is shared by clones and by nobody else, symbols stand for texts one to one and for good, and the
identifiers of finished files carry the symbols of their names. -/
theorem Run.sharesNames (run : Run origin {} trace session) : session.SharesNames origin trace ∧
    ∀ more later, Run origin session more later → session.Undisturbed later trace more := by
  have accounts := run.accounts
  have sound := run.sound (start_sound origin)
  refine ⟨?_, fun more later further => ?_⟩
  · constructor
    · intro holder other related
      exact accounts.seen_eq_of_related related
    · intro holder other store holds
      constructor
      · intro holds'
        exact accounts.related holder other store holds holds'
      · intro related
        rw [← accounts.held_eq_of_related related, holds]
    · intro holder store holds
      rw [seen_of_held holds]
      exact accounts.contents store
    · intro holder store holds
      rw [seen_of_held holds]
      exact Interner.size_eq_card (accounts.contents store)
    · intro earlier later holder text symbol store split holds new
      exact accounts.rank_of_new split holds new
    · intro holder other text text' symbol symbol' mem mem' related
      have stands := accounts.resolves mem
      rw [accounts.seen_eq_of_related related] at stands
      exact Interner.symbol_eq_iff stands (accounts.resolves mem')
    · intro holder text symbol mem
      exact accounts.resolves mem
    · intro holder text symbol
      exact accounts.find?_eq_some_iff
    · intro file done finished name mem
      exact sound.identifier finished mem
    · intro file other done done' finished finished' related name mem name' mem'
      have stands := sound.identifier finished mem
      rw [accounts.seen_eq_of_related related] at stands
      exact Interner.symbol_eq_iff stands (sound.identifier finished' mem')
  · apply accounts.undisturbed (run.trans further).accounts
    intro holder store holds
    exact further.held sound holds

/-- A file is built and finished with a clone of the first interner, while a second one is made and used beside it. -/
theorem Run.sharesNames_beside : ∃ session trace symbol done name, Run (fun _ => 0) {} trace session ∧
    .interned (.builder 0) "Id" symbol ∈ trace ∧ (session.seen (.value 0)).find? "Id" = some symbol ∧
    (session.seen (.value 1)).strings.toList = ["Other"] ∧ session.workspace.finished? 0 = some done ∧
    Outline.names [done.outline] = [name] ∧ (session.seen (.builder 0)).resolve? name.symbol = some "Id" := by
  have made : Run (fun _ => 0) {} _ _ := ((Run.start {}).step (.make _)).step (.make _)
  have built := made.step (.build (rfl : Session.held _ (.value 0) = some ⟨0⟩))
  have opened := built.step (.acts (.openFile _ "a.ts"))
  have declared := opened.step (.acts (.declare (by decide)
    (rfl : Workspace.declare _ 0 [.typeAlias .none "Id" "number"] = some ([_], _))))
  have finished := declared.step (.acts (.finish (rfl : Workspace.finish _ 0 = some (_, _))))
  have run := finished.step (.intern (rfl : Session.held _ (.value 1) = some ⟨1⟩) "Other")
  have shares := run.sharesNames.1
  refine ⟨_, _, ⟨0⟩, _, _, run, by decide, ?_, ?_, rfl, rfl, ?_⟩
  · refine (shares.find?_eq_some_iff (.value 0) "Id" ⟨0⟩).mpr ⟨.builder 0, ?_, by decide⟩
    exact (shares.related_iff _ _ ⟨0⟩ rfl).mp rfl
  · exact (shares.strings (.value 1) ⟨1⟩ rfl).trans (by decide)
  · exact shares.identifier 0 _ rfl _ (List.mem_singleton_self _)

end Session

end ExportLint
