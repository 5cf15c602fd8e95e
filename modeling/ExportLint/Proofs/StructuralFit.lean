import ExportLint.Proofs.Judgement

/-!
# Structural fit

The largest relation between types that the rules for one type fitting another support: whoever is
related fits by identity, or the demand that the rules make of the pair is met by the relation
itself. It is defined for types that contain themselves as for any others. No question about such
types is ever answered with no if they are related: provisional answers are yes, and the rules are
monotone, also where parameters are compared the other way round. So no export that fits is rejected.
-/

namespace ExportLint

namespace TypeTable

variable {table : TypeTable} {strict : Bool} {rel : TypeId → TypeId → Prop} {source target : TypeId}
  {demand : Demand} {memo grown : Memo} {answer : Bool}

/-- Whether the rules accept every pair of a relation when smaller questions are read as the relation. -/
def Supports (table : TypeTable) (strict : Bool) (rel : TypeId → TypeId → Prop) : Prop :=
  ∀ ⦃source target : TypeId⦄, rel source target → source = target ∨
    ∃ demand, table.demandOf strict source target = .ok demand ∧ demand.Holds rel

/-- Whether some relation that the rules support relates the source to the target. -/
def StructurallyFits (table : TypeTable) (strict : Bool) (source target : TypeId) : Prop :=
  ∃ rel, table.Supports strict rel ∧ rel source target

/-- Every supported relation is part of the structural fit. -/
theorem Supports.structurallyFits (supports : table.Supports strict rel) (related : rel source target) :
    table.StructurallyFits strict source target :=
  ⟨rel, supports, related⟩

/-- The structural fit is itself supported, so it is the largest supported relation. -/
theorem supports_structurallyFits : table.Supports strict (table.StructurallyFits strict) := by
  rintro source target ⟨rel, supports, related⟩
  rcases supports related with same | ⟨demand, demanded, met⟩
  · exact Or.inl same
  · have larger : demand.Holds (table.StructurallyFits strict) :=
      met.mono fun s t related => supports.structurallyFits related
    exact Or.inr ⟨demand, demanded, larger⟩

theorem structurallyFits_self (id : TypeId) : table.StructurallyFits strict id id :=
  ⟨Eq, fun _ _ same => Or.inl same, rfl⟩

/-- A pair of two types is related exactly when the rules accept it for related types. -/
theorem structurallyFits_iff : table.StructurallyFits strict source target ↔ source = target ∨
    ∃ demand, table.demandOf strict source target = .ok demand ∧
      demand.Holds (table.StructurallyFits strict) := by
  constructor
  · intro fits
    exact supports_structurallyFits fits
  · intro accepted
    -- the relation with this one pair added to it is supported as well
    have supports : table.Supports strict fun s t =>
        table.StructurallyFits strict s t ∨ (s = source ∧ t = target) := by
      rintro s t (fits | ⟨rfl, rfl⟩)
      · rcases supports_structurallyFits fits with same | ⟨demand, demanded, met⟩
        · exact Or.inl same
        · exact Or.inr ⟨demand, demanded, met.mono fun _ _ => Or.inl⟩
      · rcases accepted with same | ⟨demand, demanded, met⟩
        · exact Or.inl same
        · exact Or.inr ⟨demand, demanded, met.mono fun _ _ => Or.inl⟩
    exact supports.structurallyFits (Or.inr ⟨rfl, rfl⟩)

/-- What is added to a table does not change which of its types fit each other. -/
theorem structurallyFits_grow_iff {later : TypeTable} (numbered : table.Numbered) (closed : table.Closed)
    (growth : later.Extends table) (inside : source.index < table.size ∧ target.index < table.size) :
    later.StructurallyFits strict source target ↔ table.StructurallyFits strict source target := by
  have demanded {s t : TypeId} {demand : Demand} (known : table.demandOf strict s t = .ok demand) :
      later.demandOf strict s t = .ok demand := by
    have asks := asks_inside numbered closed known
    obtain ⟨sourceEntry, targetEntry, found, found', rfl⟩ := demandOf_eq_ok_iff.mp known
    refine demandOf_eq_ok_iff.mpr ⟨sourceEntry, targetEntry, growth found, growth found', ?_⟩
    exact (sharpens_demand growth sourceEntry targetEntry).eq_of_asks asks
  constructor
  · intro fits
    -- inside the table the larger relation is supported by the smaller table
    refine ⟨fun s t => later.StructurallyFits strict s t ∧ s.index < table.size ∧ t.index < table.size, ?_,
      fits, inside⟩
    rintro s t ⟨fits, there⟩
    obtain ⟨sourceEntry, found⟩ := exists_find? there.1
    obtain ⟨targetEntry, found'⟩ := exists_find? there.2
    have known : table.demandOf strict s t = .ok (table.demand strict sourceEntry targetEntry) :=
      demandOf_eq_ok_iff.mpr ⟨_, _, found, found', rfl⟩
    refine (structurallyFits_iff.mp fits).imp_right ?_
    rintro ⟨demand, knownLater, met⟩
    cases (demanded known).symm.trans knownLater
    exact ⟨_, known, met.asked (asks_inside numbered closed known)⟩
  · rintro ⟨rel, supports, related⟩
    refine ⟨rel, fun s t related => ?_, related⟩
    rcases supports related with same | ⟨demand, known, met⟩
    · exact Or.inl same
    · exact Or.inr ⟨demand, demanded known, met⟩

/-- Whether no pair that fits structurally has been remembered as not fitting. -/
def DeniesNone (table : TypeTable) (strict : Bool) (memo : Memo) : Prop :=
  ∀ ⦃source target : TypeId⦄, table.StructurallyFits strict source target →
    memo.find? source target ≠ some false

theorem deniesNone_empty : table.DeniesNone strict .empty := by
  intro source target _ denied
  simp at denied

theorem DeniesNone.record (denies : table.DeniesNone strict memo)
    (granted : table.StructurallyFits strict source target → answer = true) :
    table.DeniesNone strict (memo.record source target answer) := by
  intro s t fits denied
  rw [Memo.find?_record] at denied
  by_cases here : s = source ∧ t = target
  · obtain ⟨rfl, rfl⟩ := here
    simp [granted fits] at denied
  · rw [if_neg here] at denied
    exact denies fits denied

/-- A run over a memo that denies none leaves one that denies none, and grants every demand that is
met structurally. -/
theorem Settles.grants (settles : table.Settles strict demand memo answer grown)
    (denies : table.DeniesNone strict memo) :
    table.DeniesNone strict grown ∧ (demand.Holds (table.StructurallyFits strict) → answer = true) := by
  induction settles with
  | holds memo => exact ⟨denies, fun _ => rfl⟩
  | fails memo => exact ⟨denies, fun met => met.elim⟩
  | same id memo => exact ⟨denies, fun _ => rfl⟩
  | remembered apart found =>
    refine ⟨denies, fun fits => ?_⟩
    have remembered := denies fits
    rw [found] at remembered
    simpa using remembered
  | @asked source target memo grown demand answer apart unknown demanded _ ih =>
    obtain ⟨inner, grants⟩ := ih (denies.record fun _ => rfl)
    have granted : table.StructurallyFits strict source target → answer = true := by
      intro fits
      rcases supports_structurallyFits fits with same | ⟨demand', demanded', met⟩
      · exact absurd same apart
      · cases demanded.symm.trans demanded'
        exact grants met
    exact ⟨inner.record granted, granted⟩
  | bothFirst _ ih =>
    obtain ⟨after, grants⟩ := ih denies
    exact ⟨after, fun met => grants met.1⟩
  | bothSecond _ _ ihLeft ihRight =>
    obtain ⟨middle, _⟩ := ihLeft denies
    obtain ⟨after, grants⟩ := ihRight middle
    exact ⟨after, fun met => grants met.2⟩
  | eitherFirst _ ih => exact ⟨(ih denies).1, fun _ => rfl⟩
  | eitherSecond _ _ ihLeft ihRight =>
    obtain ⟨middle, grantsLeft⟩ := ihLeft denies
    obtain ⟨after, grantsRight⟩ := ihRight middle
    refine ⟨after, fun met => ?_⟩
    rcases met with left | right
    · cases grantsLeft left
    · exact grantsRight right

theorem Remembers.deniesNone (remembers : table.Remembers strict memo) : table.DeniesNone strict memo := by
  induction remembers with
  | nothing => exact deniesNone_empty
  | asked _ settles ih => exact (settles.grants ih).1

end TypeTable

namespace Checker

open Relation (ReflTransGen)

variable {checker after : Checker} {source target : TypeId} {answer : Bool}

theorem Coherent.grants (coherent : checker.Coherent) (answered : checker.fits source target = .ok (answer, after))
    (fits : checker.table.StructurallyFits checker.strict source target) : answer = true := by
  obtain ⟨memo, settles, _⟩ := fits_eq_ok_iff.mp answered
  exact (settles.grants coherent.remembers.deniesNone).2 fits

theorem unfit_of_judge {rule : Rule} {program : Program} {store : Interner} {exported : CheckedExport}
    {diagnostic : Diagnostic} {before : Checker} (coherent : checker.Coherent)
    (history : ReflTransGen Asked checker before)
    (judged : rule.judge program store exported before = .ok (some diagnostic, after))
    (invalid : diagnostic.messageId = .invalidExportType) : ∃ typeName expected,
      rule.typeMap.expectedType? exported.name = some typeName ∧
      program.resolve? store checker typeName = some expected ∧
      exported.file.report exported.statement.node .invalidExportType
        { exportName := some exported.name, typeName } = .ok diagnostic ∧
      ¬ checker.table.StructurallyFits checker.strict (checker.typeOf exported.node) expected.type := by
  have unresolved {payload : Payload} (reported : exported.file.report exported.statement.node .unresolvedType
      payload = .ok diagnostic) : False := by
    obtain ⟨span, start, _, _, rfl⟩ := SourceFile.report_eq_ok_iff.mp reported
    cases invalid
  have same := eq_of_asked history
  have coherent' := coherent.history history
  cases Rule.judge_eq_ok_iff.mp judged with
  | undeclared _ _ reported => exact (unresolved reported).elim
  | untyped _ _ _ _ reported => exact (unresolved reported).elim
  | @unfitting _ typeName expected _ configured known _ unfit reported =>
    rw [same] at known
    refine ⟨typeName, expected, configured, known, reported, fun fits => ?_⟩
    have yes := coherent'.grants unfit (by rw [same]; exact fits)
    cases yes

/-- Every question about types of a closed table is answered, with yes if they fit structurally; and
whatever a run of the rule reports as an export that does not fit does not fit structurally. -/
theorem never_rejects_structural_fit (reached : checker.Reached) (closed : checker.table.Closed) :
    (∀ source target : TypeId, source.index < checker.table.size → target.index < checker.table.size →
      ∃ answer, checker.answerTo source target = .ok answer ∧
        (answer = false → ¬ checker.table.StructurallyFits checker.strict source target)) ∧
    ∀ (rule : Rule) (program : Program) (store : Interner) (found : Collection) (after : Checker),
      rule.checkProgram program store checker = .ok (found, after) →
      ∃ outcomes, found.items = outcomes.reduceOption ∧
        List.Forall₂ (fun exported outcome => ∀ diagnostic, outcome = some diagnostic →
          diagnostic.messageId = .invalidExportType → ∃ typeName expected,
            rule.typeMap.expectedType? exported.name = some typeName ∧
            program.resolve? store checker typeName = some expected ∧
            exported.file.report exported.statement.node .invalidExportType
              { exportName := some exported.name, typeName } = .ok diagnostic ∧
            ¬ checker.table.StructurallyFits checker.strict (checker.typeOf exported.node) expected.type)
          program.checkedExports outcomes := by
  have coherent := reached.coherent
  constructor
  · intro source target inSource inTarget
    obtain ⟨answer, answered⟩ := coherent.exists_answer closed ⟨inSource, inTarget⟩
    refine ⟨answer, answered, fun no fits => ?_⟩
    obtain ⟨after, asked⟩ := answerTo_eq_ok_iff.mp answered
    have yes := coherent.grants asked fits
    rw [no] at yes
    cases yes
  · intro rule program store found after run
    rw [Rule.checkProgram_eq] at run
    match judged : rule.judgeAll program store program.checkedExports checker with
    | .error fault => simp [judged, Rule.collect, Except.map] at run
    | .ok (outcomes, last) =>
      simp only [judged, Rule.collect, Except.map, Except.ok.injEq, Prod.mk.injEq] at run
      obtain ⟨rfl, rfl⟩ := run
      refine ⟨outcomes, rfl, ?_⟩
      have each := Rule.forall₂_of_judgeAll asked_of_judge .refl judged
      refine each.imp ?_
      rintro exported outcome ⟨middle, next, history, judged⟩ diagnostic rfl invalid
      exact unfit_of_judge coherent history judged invalid

/-- Two records that contain themselves and have the same members fit each other. -/
theorem never_rejects_structural_fit_twins :
    (ofRecords [[("next", ⟨10⟩), ("value", .number)], [("next", ⟨11⟩), ("value", .number)]]).answerTo ⟨10⟩ ⟨11⟩ =
      .ok true := by
  have fits : (ofRecords [[("next", ⟨10⟩), ("value", .number)],
      [("next", ⟨11⟩), ("value", .number)]]).table.StructurallyFits false ⟨10⟩ ⟨11⟩ := by
    refine ⟨fun s t => s = t ∨ (s = ⟨10⟩ ∧ t = ⟨11⟩), ?_, Or.inr ⟨rfl, rfl⟩⟩
    rintro s t (same | ⟨rfl, rfl⟩)
    · exact Or.inl same
    · have met : (Demand.both (.both (.fits ⟨10⟩ ⟨11⟩) (.both (.fits .number .number) .holds)) .holds).Holds
          fun s t => s = t ∨ (s = ⟨10⟩ ∧ t = ⟨11⟩) := ⟨⟨Or.inr ⟨rfl, rfl⟩, Or.inl rfl, trivial⟩, trivial⟩
      exact Or.inr ⟨_, rfl, met⟩
  obtain ⟨answer, answered, unfit⟩ := (never_rejects_structural_fit (reached_ofRecords
    [[("next", ⟨10⟩), ("value", .number)], [("next", ⟨11⟩), ("value", .number)]]) (by decide)).1
    ⟨10⟩ ⟨11⟩ (by decide) (by decide)
  cases answer with
  | true => exact answered
  | false => exact absurd fits (unfit rfl)

end Checker

end ExportLint
