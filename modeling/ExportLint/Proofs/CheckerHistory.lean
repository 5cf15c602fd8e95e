import Mathlib
import ExportLint.Proofs.Settlement
import ExportLint.Types.Checker

/-!
# Histories of checkers

What has happened to a checker since it was made: types were added or built, nodes were bound, and
questions were answered, in any order, where the treatment of `null` was chosen before the first
question. However these are mixed, the memo is one that questions about the present table leave.
Where types are built from types that are there, as the constructors of a checker are meant to be
used, every type mentions earlier types.
-/

namespace ExportLint

namespace Members

theorem mem_of_mem_put {name : String} {type : TypeId} {entries : List (String × TypeId)} {entry : String × TypeId}
    (mem : entry ∈ put name type entries) : entry = (name, type) ∨ entry ∈ entries := by
  induction entries with
  | nil => exact Or.inl (by simpa [put] using mem)
  | cons first rest ih =>
    obtain ⟨other, old⟩ := first
    rw [put] at mem
    split at mem
    · rcases List.mem_cons.mp mem with here | later
      · exact Or.inl here
      · exact Or.inr (List.mem_cons_of_mem _ later)
    · rcases List.mem_cons.mp mem with here | later
      · exact Or.inr (here ▸ List.mem_cons_self)
      · exact (ih later).imp_right (List.mem_cons_of_mem _)

theorem mem_of_mem_ofList {mentioned : List (String × TypeId)} {entry : String × TypeId}
    (mem : entry ∈ (ofList mentioned).entries) : entry ∈ mentioned := by
  unfold ofList at mem
  suffices general : ∀ members : Members,
      entry ∈ (mentioned.foldl (fun members mention => members.insert mention.1 mention.2) members).entries →
        entry ∈ members.entries ∨ entry ∈ mentioned from (general empty mem).resolve_left (by simp [empty])
  clear mem
  induction mentioned with
  | nil => exact fun _ => Or.inl
  | cons mention rest ih =>
    intro members mem
    rcases ih _ mem with old | later
    · rcases mem_of_mem_put old with new | old
      · exact Or.inr (new ▸ List.mem_cons_self)
      · exact Or.inl old
    · exact Or.inr (List.mem_cons_of_mem _ later)

end Members

namespace TypeTable

variable {table later : TypeTable} {strict : Bool} {memo : Memo}

theorem Extends.refl (table : TypeTable) : table.Extends table := fun _ _ found => found

theorem Extends.trans {first second third : TypeTable} (right : third.Extends second)
    (left : second.Extends first) : third.Extends first := fun _ _ found => right (left found)

/-- What is read off a type is read off the type that stands under the number. -/
theorem map_get_eq_ok_iff {α : Type} {read : TypeEntry → α} {id : TypeId} {value : α} :
    read <$> table.get id = .ok value ↔ ∃ entry, table.find? id = some entry ∧ read entry = value := by
  simp only [← get_eq_ok_iff]
  cases table.get id <;> simp [Functor.map, Except.map]

/-! ### Adding a type -/

section
variable {flags : TypeFlags} {form : TypeForm} {aliasName : Option String}

theorem extends_push : (table.push flags form aliasName).Extends table := by
  intro id entry found
  have old : id ≠ table.nextId := by
    rintro rfl
    exact Nat.lt_irrefl _ (index_lt_of_find? found)
  rw [find?_push, if_neg old, found]

theorem Numbered.push (numbered : table.Numbered) : (table.push flags form aliasName).Numbered := by
  intro id entry found
  rw [find?_push] at found
  split at found
  · cases found
    rfl
  · exact numbered found

theorem Grounded.push (grounded : table.Grounded) (there : ∀ part ∈ form.parts, part.index < table.size) :
    (table.push flags form aliasName).Grounded := by
  intro id entry found part mem
  rw [find?_push] at found
  split at found
  · next new =>
    cases found
    rw [new]
    exact there part mem
  · exact grounded found part mem

end

theorem initial_numbered_grounded : initial.Numbered ∧ initial.Grounded := by
  unfold initial
  suffices general : ∀ (kinds : List (TypeFlags × String)) (table : TypeTable), table.Numbered ∧ table.Grounded →
      (kinds.foldl (fun table kind => table.push kind.1 (.intrinsic kind.2)) table).Numbered ∧
      (kinds.foldl (fun table kind => table.push kind.1 (.intrinsic kind.2)) table).Grounded from
    general _ _ ⟨by simp [Numbered, find?], by simp [Grounded, find?]⟩
  intro kinds
  induction kinds with
  | nil => exact fun _ => id
  | cons kind rest ih =>
    rintro table known
    exact ih _ ⟨known.1.push, known.2.push (by simp [TypeForm.parts])⟩

/-- A blueprint leaves the table as it is or adds one type to it, which mentions parts of the
blueprint or what such a part mentions. -/
theorem build_cases {blueprint : Blueprint} {id : TypeId} (built : table.build blueprint = .ok (id, later)) :
    later = table ∨ ∃ flags form aliasName, later = table.push flags form aliasName ∧
      ∀ part ∈ form.parts, part ∈ blueprint.parts ∨
        ∃ target ∈ blueprint.parts, ∃ entry, table.find? target = some entry ∧ part ∈ entry.form.parts := by
  have copied {name : String} {target : TypeId} (mem : target ∈ blueprint.parts)
      (built : table.addAlias name target = .ok (id, later)) : ∃ flags form aliasName,
      later = table.push flags form aliasName ∧ ∀ part ∈ form.parts, part ∈ blueprint.parts ∨
        ∃ target ∈ blueprint.parts, ∃ entry, table.find? target = some entry ∧ part ∈ entry.form.parts := by
    unfold addAlias at built
    match found : table.get target with
    | .error fault => simp [found, bind, Except.bind] at built
    | .ok entry =>
      simp only [found, bind, Except.bind, pure, Except.pure, Except.ok.injEq, Prod.mk.injEq] at built
      exact ⟨_, _, _, built.2.symm, fun part inside => Or.inr ⟨target, mem, entry, get_eq_ok_iff.mp found, inside⟩⟩
  unfold build at built
  split at built <;> try (cases built)
  · exact Or.inr ⟨_, _, _, rfl, by simp [TypeForm.parts]⟩
  · exact Or.inr ⟨_, _, _, rfl, by simp [TypeForm.parts]⟩
  · exact Or.inr ⟨_, _, _, rfl, by simp [TypeForm.parts]⟩
  · refine Or.inr ⟨_, _, _, rfl, fun part mem => Or.inl ?_⟩
    simp only [TypeForm.parts, List.flatMap_nil, List.append_nil, List.mem_map] at mem
    obtain ⟨entry, listed, rfl⟩ := mem
    exact List.mem_map.mpr ⟨entry, Members.mem_of_mem_ofList listed, rfl⟩
  · refine Or.inr ⟨_, _, _, rfl, fun part mem => Or.inl ?_⟩
    simpa [TypeForm.parts, Members.empty, Signature.parts, Signature.ofRequired, Blueprint.parts] using mem
  · exact Or.inl rfl
  · exact Or.inr ⟨_, _, _, rfl, fun part mem => Or.inl mem⟩
  · exact Or.inr (copied (by simp [Blueprint.parts]) built)
  · exact Or.inr (copied (by simp [Blueprint.parts]) built)

/-! ### Memos of a table -/

/-- The memos that questions about the types of a table leave. -/
inductive Remembers (table : TypeTable) (strict : Bool) : Memo → Prop
  | nothing : Remembers table strict .empty
  | asked {memo grown : Memo} {source target : TypeId} {answer : Bool} (before : Remembers table strict memo)
    (settles : table.Settles strict (.fits source target) memo answer grown) : Remembers table strict grown

theorem Remembers.grow (growth : later.Extends table) (remembers : table.Remembers strict memo) :
    later.Remembers strict memo := by
  induction remembers with
  | nothing => exact .nothing
  | asked _ settles ih => exact .asked ih (settles.grow growth (.same _))

theorem Remembers.inside (remembers : table.Remembers strict memo) {source target : TypeId} {answer : Bool}
    (found : memo.find? source target = some answer) :
    source.index < table.size ∧ target.index < table.size := by
  induction remembers generalizing answer with
  | nothing => simp at found
  | asked _ settles ih =>
    rcases settles.inside found with ⟨old, there⟩ | within
    · exact ih there
    · exact within

end TypeTable

namespace Checker

variable {checker before after : Checker} {source target : TypeId} {answer : Bool}

theorem fits_eq_ok_iff : checker.fits source target = .ok (answer, after) ↔
    ∃ memo, checker.table.Settles checker.strict (.fits source target) checker.memo answer memo ∧
      after = { checker with memo } := by
  have mapped : checker.fits source target =
      (checker.table.settle checker.strict (.fits source target) checker.memo).map fun result =>
        (result.1, { checker with memo := result.2 }) := rfl
  simp only [mapped, ← TypeTable.settle_eq_ok_iff]
  match checker.table.settle checker.strict (.fits source target) checker.memo with
  | .error fault => simp [Except.map]
  | .ok (answer', memo) =>
    simp only [Except.map, Except.ok.injEq, Prod.mk.injEq]
    constructor
    · rintro ⟨rfl, rfl⟩
      exact ⟨memo, ⟨rfl, rfl⟩, rfl⟩
    · rintro ⟨_, ⟨rfl, rfl⟩, rfl⟩
      exact ⟨rfl, rfl⟩

/-- The answer to a question about two types. -/
def answerTo (checker : Checker) (source target : TypeId) : Except Fault Bool :=
  Prod.fst <$> checker.fits source target

theorem answerTo_eq_ok_iff :
    checker.answerTo source target = .ok answer ↔ ∃ after, checker.fits source target = .ok (answer, after) := by
  unfold answerTo
  cases checker.fits source target with
  | error fault => simp [Functor.map, Except.map]
  | ok result =>
    obtain ⟨answer', after⟩ := result
    simp [Functor.map, Except.map, eq_comm]

/-- A question that the first checker answers, which is the second one after that. -/
def Asked (before after : Checker) : Prop :=
  ∃ source target answer, before.fits source target = .ok (answer, after)

/-- A use of a checker, which chooses the treatment of `null` only while nothing is remembered. -/
inductive Step : Checker → Checker → Prop
  | chosen {checker : Checker} (strict : Bool) (unasked : checker.memo = .empty) :
    Step checker (checker.withStrict strict)
  | added (checker : Checker) (flags : TypeFlags) (form : TypeForm) : Step checker (checker.add flags form).2
  | built {before after : Checker} {blueprint : Blueprint} {id : TypeId}
    (built : before.build blueprint = .ok (id, after)) : Step before after
  | bound (checker : Checker) (node : NodeId) (type : TypeId) : Step checker (checker.bind node type)
  | asked {before after : Checker} (asked : before.Asked after) : Step before after

/-- A use of a checker that builds types from types that are there. -/
inductive OrderlyStep : Checker → Checker → Prop
  | chosen {checker : Checker} (strict : Bool) (unasked : checker.memo = .empty) :
    OrderlyStep checker (checker.withStrict strict)
  | built {before after : Checker} {blueprint : Blueprint} {id : TypeId}
    (there : ∀ part ∈ blueprint.parts, part.index < before.table.size)
    (built : before.build blueprint = .ok (id, after)) : OrderlyStep before after
  | bound (checker : Checker) (node : NodeId) (type : TypeId) : OrderlyStep checker (checker.bind node type)
  | asked {before after : Checker} (asked : before.Asked after) : OrderlyStep before after

/-- A new checker has come to be this one by any uses. -/
def Reached (checker : Checker) : Prop :=
  Relation.ReflTransGen Step (initial false) checker

/-- A new checker has come to be this one by orderly uses. -/
def ReachedOrderly (checker : Checker) : Prop :=
  Relation.ReflTransGen OrderlyStep (initial false) checker

theorem OrderlyStep.step (step : OrderlyStep before after) : Step before after := by
  cases step with
  | chosen strict unasked => exact .chosen strict unasked
  | built _ built => exact .built built
  | bound node type => exact .bound _ node type
  | asked asked => exact .asked asked

theorem ReachedOrderly.reached (reached : checker.ReachedOrderly) : checker.Reached := by
  induction reached with
  | refl => exact .refl
  | tail _ step ih => exact ih.tail step.step

theorem build_eq_ok {blueprint : Blueprint} {id : TypeId} (built : before.build blueprint = .ok (id, after)) :
    before.table.build blueprint = .ok (id, after.table) ∧ after = { before with table := after.table } := by
  have mapped : before.build blueprint =
      (before.table.build blueprint).map fun result => (result.1, { before with table := result.2 }) := rfl
  rw [mapped] at built
  match made : before.table.build blueprint with
  | .error fault => simp [made, Except.map] at built
  | .ok (id', table) =>
    simp only [made, Except.map, Except.ok.injEq, Prod.mk.injEq] at built
    obtain ⟨rfl, rfl⟩ := built
    exact ⟨rfl, rfl⟩

theorem Asked.eq (asked : before.Asked after) : after = { before with memo := after.memo } := by
  obtain ⟨source, target, answer, answered⟩ := asked
  obtain ⟨memo, _, rfl⟩ := fits_eq_ok_iff.mp answered
  rfl

/-- What holds of the types of a checker, even where the treatment of `null` is changed between questions. -/
structure Tabled (checker : Checker) : Prop where
  numbered : checker.table.Numbered
  intrinsic : checker.table.Extends .initial

/-- What holds of a checker however it has been used. -/
structure Coherent (checker : Checker) : Prop extends Tabled checker where
  remembers : checker.table.Remembers checker.strict checker.memo

theorem initial_coherent (strict : Bool) : (initial strict).Coherent where
  numbered := TypeTable.initial_numbered_grounded.1
  intrinsic := TypeTable.Extends.refl _
  remembers := .nothing

/-- A use of a checker leaves its table as it is or adds one type to it. -/
theorem Step.table (step : Step before after) : after.table = before.table ∨
    ∃ flags form aliasName, after.table = before.table.push flags form aliasName := by
  cases step with
  | chosen strict unasked => exact .inl rfl
  | added flags form => exact .inr ⟨flags, form, none, rfl⟩
  | built built =>
    rcases TypeTable.build_cases (build_eq_ok built).1 with old | ⟨flags, form, aliasName, new, _⟩
    · exact .inl old
    · exact .inr ⟨flags, form, aliasName, new⟩
  | bound node type => exact .inl rfl
  | asked asked => exact .inl (by rw [asked.eq])

theorem Tabled.step (tabled : before.Tabled) (step : Step before after) : after.Tabled := by
  rcases step.table with same | ⟨flags, form, aliasName, new⟩
  · exact ⟨same ▸ tabled.numbered, same ▸ tabled.intrinsic⟩
  · constructor
    · rw [new]
      exact tabled.numbered.push
    · rw [new]
      exact TypeTable.extends_push.trans tabled.intrinsic

theorem Coherent.asked (coherent : before.Coherent) (asked : before.Asked after) : after.Coherent := by
  refine ⟨coherent.toTabled.step (.asked asked), ?_⟩
  obtain ⟨source, target, answer, answered⟩ := asked
  obtain ⟨memo, settles, rfl⟩ := fits_eq_ok_iff.mp answered
  exact coherent.remembers.asked settles

theorem Coherent.step (coherent : before.Coherent) (step : Step before after) : after.Coherent := by
  refine ⟨coherent.toTabled.step step, ?_⟩
  cases step with
  | chosen strict unasked =>
    simp only [withStrict, unasked]
    exact .nothing
  | added flags form => exact coherent.remembers.grow TypeTable.extends_push
  | built built =>
    obtain ⟨made, same⟩ := build_eq_ok built
    rw [same]
    rcases TypeTable.build_cases made with old | ⟨flags, form, aliasName, new, _⟩
    · rw [old]
      exact coherent.remembers
    · rw [new]
      exact coherent.remembers.grow TypeTable.extends_push
  | bound node type => exact coherent.remembers
  | asked asked => exact (coherent.asked asked).remembers

theorem Reached.coherent (reached : checker.Reached) : checker.Coherent := by
  induction reached with
  | refl => exact initial_coherent false
  | tail _ step ih => exact ih.step step

theorem OrderlyStep.grounded (step : OrderlyStep before after) (grounded : before.table.Grounded) :
    after.table.Grounded := by
  cases step with
  | chosen strict unasked => exact grounded
  | built there built =>
    rcases TypeTable.build_cases (build_eq_ok built).1 with old | ⟨flags, form, aliasName, new, parts⟩
    · rw [old]
      exact grounded
    · rw [new]
      refine grounded.push fun part mem => ?_
      rcases parts part mem with given | ⟨target, given, entry, found, inside⟩
      · exact there part given
      · exact Nat.lt_trans (grounded found part inside) (there target given)
  | bound node type => exact grounded
  | asked asked =>
    rw [asked.eq]
    exact grounded

theorem ReachedOrderly.grounded (reached : checker.ReachedOrderly) : checker.table.Grounded := by
  induction reached with
  | refl => exact TypeTable.initial_numbered_grounded.2
  | tail _ step ih => exact step.grounded ih

/-! ### Further questions -/

variable {fresh later : Checker}

/-- Questions change nothing but the memo. -/
theorem eq_of_asked (history : Relation.ReflTransGen Asked fresh later) :
    later = { fresh with memo := later.memo } := by
  induction history with
  | refl => rfl
  | tail _ asked ih =>
    have same := asked.eq
    rw [ih] at same
    exact same

theorem Coherent.history (coherent : fresh.Coherent) (history : Relation.ReflTransGen Asked fresh later) :
    later.Coherent := by
  induction history with
  | refl => exact coherent
  | tail _ asked ih => exact ih.asked asked

theorem ReachedOrderly.history (reached : fresh.ReachedOrderly) (history : Relation.ReflTransGen Asked fresh later) :
    later.ReachedOrderly :=
  reached.trans (history.lift id fun _ _ asked => .asked asked)

/-- In a closed table every question about its types has an answer. -/
theorem Tabled.exists_fits (tabled : checker.Tabled) (closed : checker.table.Closed)
    (inside : source.index < checker.table.size ∧ target.index < checker.table.size) :
    ∃ answer after, checker.fits source target = .ok (answer, after) := by
  obtain ⟨answer, grown, settles⟩ :=
    TypeTable.exists_settles tabled.numbered closed (.fits source target) checker.memo inside
  exact ⟨answer, _, fits_eq_ok_iff.mpr ⟨grown, settles, rfl⟩⟩

theorem Coherent.exists_answer (coherent : checker.Coherent) (closed : checker.table.Closed)
    (inside : source.index < checker.table.size ∧ target.index < checker.table.size) :
    ∃ answer, checker.answerTo source target = .ok answer := by
  obtain ⟨answer, after, fits⟩ := coherent.exists_fits closed inside
  exact ⟨answer, answerTo_eq_ok_iff.mpr ⟨after, fits⟩⟩

/-- A checker that knows object types with the given members, which may mention any of them. -/
def ofRecords (records : List (List (String × TypeId))) : Checker where
  table := records.foldl (fun table members => table.push TypeFlags.object (.object (.ofList members) [])) .initial

theorem reached_ofRecords (records : List (List (String × TypeId))) : (ofRecords records).Reached := by
  unfold ofRecords
  suffices general : ∀ table, Reached { table } → Reached {
      table := records.foldl
        (fun table members => table.push TypeFlags.object (.object (.ofList members) [])) table } from
    general _ .refl
  induction records with
  | nil => exact fun _ => id
  | cons members rest ih =>
    intro table reached
    exact ih _ (reached.tail (.added _ TypeFlags.object (.object (.ofList members) [])))

end Checker

end ExportLint
