import ExportLint.Proofs.ModeSwitches
import ExportLint.Proofs.NestedQuestions

/-!
# Types that were built

A checker builds every type from types that are there. So a type mentions only types before it, also where it is the
copy that an alias makes, and what is in the table stays there as it is. Questions about types of the table then lead
to questions about earlier types only, and no type is ever looked up that is not in the table.
-/

namespace ExportLint

open Relation (ReflTransGen)

namespace TypeTable

/-- What holds of a table in which every type was built from types that were there. -/
structure WellBuilt (table : TypeTable) : Prop where
  intrinsic : TypeId.error.index < table.size
  own : ∀ (place : Nat) (entry : TypeEntry), table.entries[place]? = some entry → entry.id = ⟨place⟩
  /-- Everything that a type mentions comes before it. -/
  earlier : ∀ (place : Nat) (entry : TypeEntry), table.entries[place]? = some entry →
    ∀ part ∈ entry.form.parts, part.index < place
  callable : ∀ (place : Nat) (entry : TypeEntry) (members : Members) (signatures : List Signature),
    table.entries[place]? = some entry → entry.form = .object members signatures →
      ∀ signature ∈ signatures, signature.minArguments ≤ signature.parameters.length

/-- What building comes to: a single type is its own union, and for everything else there is one more type. -/
inductive Builds (table : TypeTable) : Blueprint → TypeId → TypeTable → Prop
  | single (type : TypeId) : Builds table (.union [type]) type table
  | pushed {blueprint : Blueprint} (flags : TypeFlags) (form : TypeForm) (aliasName : Option String)
    (several : ∀ type, blueprint ≠ .union [type]) :
    Builds table blueprint table.nextId (table.push flags form aliasName)

variable {table : TypeTable} {strict : Bool} {question outer inner : Question} {demand : Demand} {memo : Memo}
  {kind : TypeId → TypeId → Prop}

theorem Orderly.wellBuilt (orderly : table.Orderly) (intrinsic : table.Extends .initial) : table.WellBuilt where
  intrinsic := by
    obtain ⟨entry, found⟩ : ∃ entry, initial.find? .error = some entry := exists_find? (by decide)
    exact index_lt_of_find? (intrinsic found)
  own place entry found := by
    have stands : table.find? ⟨place⟩ = some entry := found
    exact orderly.numbered stands
  earlier place entry found := by
    have stands : table.find? ⟨place⟩ = some entry := found
    exact orderly.grounded stands
  callable place entry members signatures found form signature mem := by
    have stands : table.find? ⟨place⟩ = some entry := found
    have carries := orderly.regular stands
    rw [form] at carries
    exact Nat.le_of_eq (carries.2 signature mem)

theorem exists_addAlias {target : TypeId} (inside : target.index < table.size) (name : String) :
    ∃ entry, table.find? target = some entry ∧
      table.addAlias name target = .ok (table.nextId, table.push entry.flags entry.form (some name)) := by
  obtain ⟨entry, found⟩ := exists_find? inside
  refine ⟨entry, found, ?_⟩
  rw [addAlias, get_eq_ok_iff.mpr found]
  rfl

/-- A blueprint whose parts are there is always built. -/
theorem exists_builds {blueprint : Blueprint} (there : ∀ part ∈ blueprint.parts, part.index < table.size) :
    ∃ id later, table.build blueprint = .ok (id, later) ∧ table.Builds blueprint id later := by
  have copies {name : String} {target : TypeId} (mem : target ∈ blueprint.parts)
      (several : ∀ type, blueprint ≠ .union [type]) :
      ∃ id later, table.addAlias name target = .ok (id, later) ∧ table.Builds blueprint id later := by
    obtain ⟨entry, _, added⟩ := exists_addAlias (there target mem) name
    exact ⟨_, _, added, .pushed _ _ _ several⟩
  cases blueprint with
  | stringLiteral value => exact ⟨_, _, rfl, .pushed _ _ _ fun _ => nofun⟩
  | numberLiteral value => exact ⟨_, _, rfl, .pushed _ _ _ fun _ => nofun⟩
  | booleanLiteral value => exact ⟨_, _, rfl, .pushed _ _ _ fun _ => nofun⟩
  | object members => exact ⟨_, _, rfl, .pushed _ _ _ fun _ => nofun⟩
  | function parameters returns => exact ⟨_, _, rfl, .pushed _ _ _ fun _ => nofun⟩
  | union types =>
    match types with
    | [] => exact ⟨_, _, rfl, .pushed _ _ _ fun _ => nofun⟩
    | [type] => exact ⟨_, _, rfl, .single type⟩
    | first :: second :: rest => exact ⟨_, _, rfl, .pushed _ _ _ fun _ => nofun⟩
  | aliasOf name target => exact copies (List.mem_singleton_self _) fun _ => nofun
  | errorAlias name => exact copies (List.mem_singleton_self _) fun _ => nofun

/-! ### Questions inside questions -/

/-- What is asked while a demand is settled is one of the pairs that the demand asks about. -/
theorem Meets.asked (meets : table.Meets strict question demand memo) (asks : demand.Asks kind) :
    kind question.source question.target := by
  induction meets with
  | here => exact asks
  | bothFirst _ ih => exact ih asks.1
  | bothSecond _ _ ih => exact ih asks.2
  | eitherFirst _ ih => exact ih asks.1
  | eitherSecond _ _ ih => exact ih asks.2

theorem Nests.inside (nests : table.Nests strict outer inner) (numbered : table.Numbered) (closed : table.Closed) :
    inner.source.index < table.size ∧ inner.target.index < table.size := by
  obtain ⟨_, demand, demanded, meets⟩ := nests
  exact meets.asked (asks_inside numbered closed demanded)

theorem Nests.earlier (nests : table.Nests strict outer inner) (numbered : table.Numbered)
    (grounded : table.Grounded) :
    inner.source.index + inner.target.index < outer.source.index + outer.target.index := by
  obtain ⟨_, demand, demanded, meets⟩ := nests
  exact meets.asked (asks_earlier numbered grounded demanded)

/-- However deep a question lies inside another one about types of the table, it is about types of the table. -/
theorem inside_of_nested (nested : ReflTransGen (table.Nests strict) outer inner) (numbered : table.Numbered)
    (closed : table.Closed) (inside : outer.source.index < table.size ∧ outer.target.index < table.size) :
    inner.source.index < table.size ∧ inner.target.index < table.size := by
  induction nested with
  | refl => exact inside
  | tail _ nests _ => exact nests.inside numbered closed

theorem exists_demandOf {source target : TypeId} (strict : Bool) (inSource : source.index < table.size)
    (inTarget : target.index < table.size) : ∃ demand, table.demandOf strict source target = .ok demand := by
  obtain ⟨entry, found⟩ := exists_find? inSource
  obtain ⟨entry', found'⟩ := exists_find? inTarget
  exact ⟨_, demandOf_eq_ok_iff.mpr ⟨entry, entry', found, found', rfl⟩⟩

end TypeTable

namespace Checker

/-- What holds of a checker that was used as its constructors allow: its table is well built, stays so with all that
is in it, and no question about types of the table looks for a type elsewhere. -/
structure StaysInside (checker : Checker) : Prop where
  table : checker.table.WellBuilt
  build : ∀ blueprint : Blueprint, (∀ part ∈ blueprint.parts, part.index < checker.table.size) →
    ∃ id table, checker.build blueprint = .ok (id, { checker with table }) ∧ checker.table.Builds blueprint id table
  kept : ∀ later, ReflTransGen OrderlyUse checker later → ∀ place, place < checker.table.size →
    later.table.entries[place]? = checker.table.entries[place]?
  isError : ∀ type : TypeId, type.index < checker.table.size → ∃ answer, TypeOracle.isError checker type = .ok answer
  aliasName : ∀ type : TypeId, type.index < checker.table.size → ∃ name, TypeOracle.aliasName checker type = .ok name
  fits : ∀ source target : TypeId, source.index < checker.table.size → target.index < checker.table.size →
    ∃ answer memo, checker.fits source target = .ok (answer, { checker with memo })
  /-- At any depth both types of a question can be looked up, and so can all that their comparison looks up. -/
  nested : ∀ source target : TypeId, source.index < checker.table.size → target.index < checker.table.size →
    ∀ inner, ReflTransGen (checker.table.Nests checker.strict) ⟨source, target, checker.memo⟩ inner →
      ∃ demand, checker.table.demandOf checker.strict inner.source inner.target = .ok demand ∧
        demand.Asks fun a b => a.index < checker.table.size ∧ b.index < checker.table.size
  descends : ∀ outer inner, checker.table.Nests checker.strict outer inner →
    inner.source.index + inner.target.index < outer.source.index + outer.target.index

variable {checker before after later : Checker}

/-- A use leaves the table as it is or adds one type to it. -/
theorem OrderlyUse.table (use : OrderlyUse before after) : after.table = before.table ∨
    ∃ flags form aliasName, after.table = before.table.push flags form aliasName := by
  cases use with
  | step step => exact step.step.table
  | switched strict => exact .inl rfl

theorem extends_of_uses (history : ReflTransGen OrderlyUse before after) : after.table.Extends before.table := by
  induction history with
  | refl => exact TypeTable.Extends.refl _
  | tail _ use ih =>
    rcases use.table with same | ⟨flags, form, aliasName, new⟩
    · rw [same]
      exact ih
    · rw [new]
      exact TypeTable.extends_push.trans ih

/-- A checker that was used with any types that are there never looks for a type that is not there. -/
theorem UsedOrderly.staysInside (used : checker.UsedOrderly) : checker.StaysInside := by
  have orderly := used.orderly
  have closed := orderly.grounded.closed
  have intrinsic : checker.table.Extends .initial := extends_of_uses used
  constructor
  · exact orderly.wellBuilt intrinsic
  · intro blueprint there
    obtain ⟨id, table, built, builds⟩ := TypeTable.exists_builds there
    exact ⟨id, table, build_of_table built, builds⟩
  · intro later history place inside
    obtain ⟨entry, found⟩ : ∃ entry, checker.table.find? ⟨place⟩ = some entry := TypeTable.exists_find? inside
    exact (extends_of_uses history found).trans found.symm
  · intro type inside
    obtain ⟨entry, found⟩ := TypeTable.exists_find? inside
    exact ⟨_, TypeTable.map_get_eq_ok_iff.mpr ⟨entry, found, rfl⟩⟩
  · intro type inside
    obtain ⟨entry, found⟩ := TypeTable.exists_find? inside
    exact ⟨_, TypeTable.map_get_eq_ok_iff.mpr ⟨entry, found, rfl⟩⟩
  · intro source target inSource inTarget
    have tabled : checker.Tabled := ⟨orderly.numbered, intrinsic⟩
    obtain ⟨answer, after, answered⟩ := tabled.exists_fits closed ⟨inSource, inTarget⟩
    obtain ⟨memo, _, rfl⟩ := fits_eq_ok_iff.mp answered
    exact ⟨answer, memo, answered⟩
  · intro source target inSource inTarget inner nested
    obtain ⟨inSource', inTarget'⟩ := TypeTable.inside_of_nested nested orderly.numbered closed ⟨inSource, inTarget⟩
    obtain ⟨demand, demanded⟩ := TypeTable.exists_demandOf checker.strict inSource' inTarget'
    exact ⟨demand, demanded, TypeTable.asks_inside orderly.numbered closed demanded⟩
  · intro outer inner nests
    exact nests.earlier orderly.numbered orderly.grounded

/-- A function, an alias of it, a union of both and the union of that alone: the alias mentions what the function
mentions, and the last union is no further type. -/
theorem UsedOrderly.staysInside_alias :
    let checker := ofBlueprints false [.function [("text", .string)] .void, .aliasOf "Reader" ⟨10⟩,
      .union [⟨10⟩, ⟨11⟩], .union [⟨12⟩]]
    checker.table.size = 13 ∧
      (∃ entry, checker.table.entries[11]? = some entry ∧ entry.form.parts = [.string, .void] ∧ entry.id = ⟨11⟩) ∧
      checker.build (.union [⟨12⟩]) = .ok (⟨12⟩, checker) ∧
      ∃ answer memo, checker.fits ⟨12⟩ ⟨11⟩ = .ok (answer, { checker with memo }) := by
  intro checker
  have start : UsedOrderly (initial false) := .refl
  have used : checker.UsedOrderly := start.history (reachedOrderly_ofBlueprints false _)
  have inside := used.staysInside
  refine ⟨by decide, ⟨_, rfl, by decide, inside.table.own 11 _ rfl⟩, rfl, ?_⟩
  exact inside.fits ⟨12⟩ ⟨11⟩ (by decide) (by decide)

end Checker

end ExportLint
