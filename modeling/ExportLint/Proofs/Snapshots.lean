import ExportLint.Proofs.NameSearch

/-!
# Programs over time

A program keeps the number of its store and not a copy of it, so what is interned after the program was
made counts when a name is resolved in it. A name that resolves goes on to resolve to the same. A name
that does not may begin to: files of other builders carry symbols of other stores, and once the store of
the program has come to give the name such a symbol, their declaration is found.
-/

namespace ExportLint

open Relation (ReflTransGen)

namespace Interner

variable {store later : Interner} {text : String} {symbol : Symbol}

theorem find?_of_extends (grown : later.Extends store) (found : store.find? text = some symbol) :
    later.find? text = some symbol :=
  find?_eq_some_iff.mpr (grown (find?_eq_some_iff.mp found))

/-- A string that is interned later takes none of the symbols that were taken before. -/
theorem size_le_of_find? (grown : later.Extends store) (absent : store.find? text = none)
    (found : later.find? text = some symbol) : store.size ≤ symbol.rank := by
  by_contra below
  have bound : symbol.rank < store.strings.size := Nat.lt_of_not_le below
  have taken : store.resolve? symbol = some store.strings[symbol.rank] := Array.getElem?_eq_getElem bound
  have same : some text = some store.strings[symbol.rank] := (find?_eq_some_iff.mp found).symm.trans (grown taken)
  rw [← Option.some.inj same] at taken
  rw [find?_eq_some_iff.mpr taken] at absent
  cases absent

theorem find?_eq_none_iff : store.find? text = none ↔ text ∉ store.strings.toList := by
  simp [find?]

theorem intern_of_absent (absent : store.find? text = none) :
    (store.intern text).2.strings.toList = store.strings.toList ++ [text] := by
  rw [toList_intern, if_neg (find?_eq_none_iff.mp absent)]

theorem size_intern_of_absent (absent : store.find? text = none) : (store.intern text).2.size = store.size + 1 := by
  rw [size, ← Array.length_toList, intern_of_absent absent]
  simp [size]

/-- A new string takes the next symbol. -/
theorem find?_intern_of_absent (absent : store.find? text = none) :
    (store.intern text).2.find? text = some ⟨store.size⟩ := by
  rw [find?_eq_some_iff, resolve?, ← Array.getElem?_toList, intern_of_absent absent]
  simp [size]

theorem find?_intern_of_ne {other : String} (absent : store.find? text = none) (apart : other ≠ text)
    (unknown : store.find? other = none) : (store.intern text).2.find? other = none := by
  rw [find?_eq_none_iff, intern_of_absent absent]
  simpa [apart] using find?_eq_none_iff.mp unknown

/-- There is always a further string to intern. -/
theorem exists_absent (store : Interner) (text : String) : ∃ fresh, store.find? fresh = none ∧ text ≠ fresh := by
  obtain ⟨fresh, new⟩ := Infinite.exists_notMem_finset (text :: store.strings.toList).toFinset
  rw [List.mem_toFinset, List.mem_cons, not_or] at new
  exact ⟨fresh, find?_eq_none_iff.mpr new.2, Ne.symm new.1⟩

end Interner

theorem Interners.contents_intern {pool : Interners} {store : StoreId} (inPool : store.index < pool.stores.size)
    (text : String) : (pool.intern store text).2.contents store = ((pool.contents store).intern text).2 := by
  simp [intern, contents_replace, inPool]

namespace Workspace

variable {origin : Nat → Nat} {workspace before after later : Workspace} {number : Nat} {program : Program}
  {names : Interner} {name : String} {σ : Type} [TypeOracle σ]

/-- What a name stands for in a program of a workspace, with the names that its store holds by now. -/
def resolve? (workspace : Workspace) (number : Nat) (oracle : σ) (name : String) : Option Resolution :=
  (workspace.program? number).bind fun (program, names) => program.resolve? names oracle name

/-- Whether a name stands for the same in a program, whatever is called from now on. -/
def Settled (origin : Nat → Nat) (workspace : Workspace) (number : Nat) (oracle : σ) (name : String) : Prop :=
  ∀ later, ReflTransGen (Call origin) workspace later →
    later.resolve? number oracle name = workspace.resolve? number oracle name

/-! ### What calls leave of a program -/

theorem Call.program_stays (call : Call origin before after) (found : before.programs[number]? = some program) :
    after.programs[number]? = some program := by
  rcases call.programs with same | ⟨new, pushed, _⟩
  · rw [same, found]
  · have inside := (Array.getElem?_eq_some_iff.mp found).1
    rw [pushed, Array.getElem?_push, if_neg (Nat.ne_of_lt inside), found]

theorem programs_of_calls (calls : ReflTransGen (Call origin) before after)
    (found : before.programs[number]? = some program) : after.programs[number]? = some program := by
  induction calls with
  | refl => exact found
  | tail _ call ih => exact call.program_stays ih

theorem contents_of_calls (calls : ReflTransGen (Call origin) before after) (store : StoreId) :
    (after.interners.contents store).Extends (before.interners.contents store) := by
  induction calls with
  | refl => exact .refl _
  | tail _ call ih => exact (call.keeps.interners store).trans ih

/-! ### Names that are interned later -/

theorem declaration?_eq_none_iff {symbol : Symbol} (found : names.find? name = some symbol) :
    program.declaration? names name = none ↔
      ∀ declared ∈ program.typeDeclarations, declared.name.name = name → declared.name.symbol ≠ symbol := by
  simp only [Program.declaration?, found, Option.bind_eq_bind, Option.bind_some, List.find?_eq_none]
  constructor
  · intro none declared mem spelled same
    exact none declared mem (by simp [spelled, same])
  · intro apart declared mem same
    simp only [Bool.and_eq_true, beq_iff_eq] at same
    exact apart declared mem same.2 same.1

/-- A name without a symbol can be given any symbol that is not taken, by interning other names first. -/
theorem exists_calls_intern (origin : Nat → Nat) {store : StoreId}
    (inPool : store.index < workspace.interners.stores.size)
    (absent : (workspace.interners.contents store).find? name = none) {rank : Nat}
    (free : (workspace.interners.contents store).size ≤ rank) :
    ∃ later, ReflTransGen (Call origin) workspace later ∧
      (later.interners.contents store).find? name = some ⟨rank⟩ := by
  obtain ⟨gap, rfl⟩ := Nat.exists_eq_add_of_le free
  clear free
  induction gap generalizing workspace with
  | zero =>
    refine ⟨_, .single (.intern workspace store name), ?_⟩
    rw [Interners.contents_intern inPool]
    exact Interner.find?_intern_of_absent absent
  | succ gap ih =>
    -- one further string takes the next symbol, and the name is still without one
    obtain ⟨fresh, new, apart⟩ := (workspace.interners.contents store).exists_absent name
    let next : Workspace := { workspace with interners := (workspace.interners.intern store fresh).2 }
    have grown : next.interners.contents store = ((workspace.interners.contents store).intern fresh).2 :=
      Interners.contents_intern inPool fresh
    have inPool' : store.index < next.interners.stores.size := by
      simpa [next, Interners.intern, Interners.replace] using inPool
    have absent' : (next.interners.contents store).find? name = none := by
      rw [grown]
      exact Interner.find?_intern_of_ne new apart absent
    obtain ⟨later, calls, found⟩ := ih inPool' absent'
    refine ⟨later, .head (.intern workspace store fresh) calls, ?_⟩
    rw [found, grown, Interner.size_intern_of_absent new]
    congr 2
    omega

/-! ### Which names are settled -/

theorem resolve?_of_program (found : workspace.programs[number]? = some program) (oracle : σ) (name : String) :
    workspace.resolve? number oracle name =
      program.resolve? (workspace.interners.contents program.store) oracle name := by
  rw [resolve?, program?, found]
  rfl

theorem resolve?_of_keyword {kind : Primitive} (keyword : Primitive.ofKeyword? name = some kind) (oracle : σ) :
    program.resolve? names oracle name = some (.primitive kind (TypeOracle.keywordType oracle kind)) := by
  rw [Program.resolve?, keyword]

theorem resolve?_eq_none_iff (keyword : Primitive.ofKeyword? name = none) (oracle : σ) :
    program.resolve? names oracle name = none ↔ program.declaration? names name = none := by
  rw [Program.resolve?, keyword]
  exact Option.map_eq_none_iff

theorem declaration?_of_absent (absent : names.find? name = none) : program.declaration? names name = none := by
  rw [Program.declaration?, absent]
  rfl

/-- What a name with a symbol stands for is not touched by further names. -/
theorem resolve?_of_extends {more : Interner} (grown : more.Extends names) {symbol : Symbol}
    (known : names.find? name = some symbol) (program : Program) (oracle : σ) :
    program.resolve? more oracle name = program.resolve? names oracle name := by
  unfold Program.resolve? Program.declaration?
  rw [known, Interner.find?_of_extends grown known]

/-- A name without a symbol goes on to resolve to nothing, where its declarations carry symbols that stand for
other names. -/
theorem declaration?_of_taken {more : Interner} (grown : more.Extends names) (absent : names.find? name = none)
    (taken : ∀ declared ∈ program.typeDeclarations, declared.name.name = name →
      declared.name.symbol.rank < names.size) : program.declaration? more name = none := by
  cases new : more.find? name with
  | none => exact declaration?_of_absent new
  | some symbol =>
    rw [declaration?_eq_none_iff new]
    intro declared mem spelled same
    have below := taken declared mem spelled
    have above := Interner.size_le_of_find? grown absent new
    rw [same] at below
    omega

/-- What tells of a name that it resolves to the same from now on: it is a keyword, or it has a symbol already, or
every type that is declared under it carries a symbol that stands for another name. -/
def Secured (program : Program) (names : Interner) (name : String) : Prop :=
  (∃ kind, Primitive.ofKeyword? name = some kind) ∨ (∃ symbol, names.find? name = some symbol) ∨
    ∀ declared ∈ program.typeDeclarations, declared.name.name = name → declared.name.symbol.rank < names.size

theorem Secured.settled (secured : Secured program names name)
    (found : workspace.program? number = some (program, names)) (origin : Nat → Nat) (oracle : σ) :
    workspace.Settled origin number oracle name := by
  obtain ⟨_, present, same⟩ := Option.map_eq_some_iff.mp found
  cases same
  intro later calls
  have grown := contents_of_calls calls program.store
  rw [resolve?_of_program present, resolve?_of_program (programs_of_calls calls present)]
  cases keyword : Primitive.ofKeyword? name with
  | some kind => rw [resolve?_of_keyword keyword, resolve?_of_keyword keyword]
  | none =>
    cases known : (workspace.interners.contents program.store).find? name with
    | some symbol => exact resolve?_of_extends grown known program oracle
    | none =>
      rw [(resolve?_eq_none_iff keyword oracle).mpr (declaration?_of_absent known), resolve?_eq_none_iff keyword]
      refine declaration?_of_taken grown known ?_
      rcases secured with ⟨_, spelled⟩ | ⟨_, symbol⟩ | taken
      · rw [keyword] at spelled
        cases spelled
      · rw [known] at symbol
        cases symbol
      · exact taken

/-- What a name stands for it goes on to stand for. -/
theorem secured_of_resolved {oracle : σ} {resolution : Resolution}
    (resolved : program.resolve? names oracle name = some resolution) : Secured program names name := by
  cases keyword : Primitive.ofKeyword? name with
  | some kind => exact .inl ⟨kind, keyword⟩
  | none =>
    cases known : names.find? name with
    | some symbol => exact .inr (.inl ⟨symbol, known⟩)
    | none =>
      rw [(resolve?_eq_none_iff keyword oracle).mpr (declaration?_of_absent known)] at resolved
      cases resolved

/-- Every name is settled in a program whose files were built on its store. -/
theorem secured_of_shared (made : workspace.Made origin) (found : workspace.program? number = some (program, names))
    (shared : ∀ file ∈ program.files, ∃ number owner, workspace.finished? number = some file ∧
      workspace.builders[origin number]? = some owner ∧ owner.store = program.store) (name : String) :
    Secured program names name := by
  obtain ⟨_, _, same⟩ := Option.map_eq_some_iff.mp found
  cases same
  refine .inr (or_iff_not_imp_left.mpr fun unknown declared mem spelled => ?_)
  obtain ⟨file, listed, inFile⟩ := List.mem_flatMap.mp mem
  obtain ⟨other, owner, finished, owned, store⟩ := shared file listed
  have stands := made.sound.known finished inFile
  rw [Workspace.names, owned, Option.map_some, Option.getD_some, store, spelled] at stands
  exact absurd ⟨_, Interner.find?_eq_some_iff.mpr stands⟩ unknown

/-- Whether a name resolves to the same from now on is seen from what there is. -/
theorem settled_iff (made : workspace.Made origin) (found : workspace.program? number = some (program, names))
    (oracle : σ) (name : String) : workspace.Settled origin number oracle name ↔ Secured program names name := by
  refine ⟨fun settled => ?_, fun secured => secured.settled found origin oracle⟩
  obtain ⟨_, present, same⟩ := Option.map_eq_some_iff.mp found
  cases same
  by_contra unsettled
  simp only [Secured, not_or, not_exists, not_forall] at unsettled
  obtain ⟨noKeyword, noSymbol, declared, mem, spelled, free⟩ := unsettled
  have keyword : Primitive.ofKeyword? name = none := Option.eq_none_iff_forall_ne_some.mpr noKeyword
  have absent := Option.eq_none_iff_forall_ne_some.mpr noSymbol
  obtain ⟨builder, owner, owned, store⟩ := (made.provides present).owner
  have inPool := made.sound.stored builder owner owned
  rw [store] at inPool
  -- the store comes to give the name the very symbol that the declaration carries
  obtain ⟨later, calls, symbol⟩ := exists_calls_intern origin inPool absent (Nat.le_of_not_lt free)
  have unchanged := settled later calls
  rw [resolve?_of_program present, resolve?_of_program (programs_of_calls calls present),
    (resolve?_eq_none_iff keyword oracle).mpr (declaration?_of_absent absent), resolve?_eq_none_iff keyword,
    declaration?_eq_none_iff symbol] at unchanged
  exact unchanged declared mem spelled rfl

/-! ### A file of another builder -/

/-- The alias in the file of another builder. -/
def foreignAlias : List Declaration :=
  [.typeAlias .none "Foo" "string"]

/-- A program on a store without names, made of a file that another builder has built on its own store. -/
def foreign : Workspace where
  interners := ⟨#[.empty, (layout foreignAlias).2.interner]⟩
  builders := #[{ store := ⟨0⟩ }, { store := ⟨1⟩, nextId := (layout foreignAlias).2.nextId + 1 }]
  files := #[.finished (soleFile "foreign.ts" foreignAlias)]
  programs := #[{ store := ⟨0⟩, files := [soleFile "foreign.ts" foreignAlias] }]

/-- The first file is built by the second builder, and further ones by the first. -/
def foreignOrigin : Nat → Nat
  | 0 => 1
  | _ => 0

theorem foreign_made : foreign.Made foreignOrigin := by
  have opened : Made foreignOrigin (initial.newBuilder.openFile 1 "foreign.ts") :=
    .tail (.single (.acts (.newBuilder .initial))) (.acts (.openFile initial.newBuilder "foreign.ts"))
  have written := opened.declare (rfl : Workspace.declare _ 0 foreignAlias = some (_, _))
  have finished := written.tail (.acts (.finish (rfl : Workspace.finish _ 0 = some (_, _))))
  exact finished.tail (.acts (.addProgram (rfl : Workspace.addProgram _ 0 [0] = some foreign)))

theorem foreign_program : foreign.program? 0 =
    some ({ store := ⟨0⟩, files := [soleFile "foreign.ts" foreignAlias] }, .empty) := rfl

theorem settled_iff_foreign : foreign.Settled foreignOrigin 0 (Checker.initial false) "Bar" ∧
    ¬ foreign.Settled foreignOrigin 0 (Checker.initial false) "Foo" := by
  constructor
  · refine (settled_iff foreign_made foreign_program (Checker.initial false) "Bar").mpr (.inr (.inr ?_))
    intro declared mem
    cases List.mem_singleton.mp mem
    intro spelled
    exact absurd spelled (by decide)
  · rw [settled_iff foreign_made foreign_program]
    rintro (⟨kind, keyword⟩ | ⟨symbol, known⟩ | taken)
    · cases keyword
    · cases known
    · exact absurd (taken _ (List.mem_singleton.mpr rfl) rfl) (by decide)

/-- The alias is not found until the first builder writes a type of the same name. Then it is found: it carries the
symbol that the name has got by this. -/
theorem not_settled_foreign : foreign.Made foreignOrigin ∧
    foreign.resolve? 0 (Checker.initial false) "Foo" = none ∧
    (∃ added later, (foreign.openFile 0 "local.ts").declare 1 [.typeAlias .none "Foo" "number"] = some (added, later) ∧
      later.resolve? 0 (Checker.initial false) "Foo" = some (.declared ⟨0⟩ ⟨9⟩)) ∧
    ¬ foreign.Settled foreignOrigin 0 (Checker.initial false) "Foo" := by
  have found : ∃ added later,
      (foreign.openFile 0 "local.ts").declare 1 [.typeAlias .none "Foo" "number"] = some (added, later) ∧
      later.resolve? 0 (Checker.initial false) "Foo" = some (.declared ⟨0⟩ ⟨9⟩) := ⟨_, _, rfl, rfl⟩
  refine ⟨foreign_made, rfl, found, ?_⟩
  intro settled
  obtain ⟨added, later, declared, resolved⟩ := found
  have opened : Call foreignOrigin foreign (foreign.openFile 0 "local.ts") := .acts (.openFile foreign "local.ts")
  obtain ⟨statement, single⟩ := exists_declare declared
  have unchanged := settled later (.tail (.single opened) (.acts (.declare (by decide) single)))
  rw [resolved] at unchanged
  cases unchanged

end Workspace

end ExportLint
