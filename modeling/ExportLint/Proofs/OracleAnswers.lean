import ExportLint.Proofs.Specification

/-!
# Oracles of any kind

What a run of the rule relies on when it asks an oracle: that questions about the types which the oracle itself
gives out are answered, whatever has been asked before. Where the answers are fixed beforehand as a table, a run
comes to what the table alone decides, whichever states the oracle goes through.
-/

namespace ExportLint

open Relation (ReflTransGen)

namespace TypeOracle

variable {σ : Type} [TypeOracle σ] {oracle before after later : σ}

/-- The types that an oracle gives out: of keywords, of declared types, and of what is exported. -/
inductive Gives (oracle : σ) : TypeId → Prop
  | keyword (kind : Primitive) : Gives oracle (keywordType oracle kind)
  | declared (node : NodeId) : Gives oracle (declaredType oracle node)
  | location (node : NodeId) : Gives oracle (typeAt oracle node)

/-- A question whether one given type fits another, answered in one state and leading to the next. -/
inductive Questioned : σ → σ → Prop
  | fits {before after : σ} {source target : TypeId} {answer : Bool} (source_given : Gives before source)
    (target_given : Gives before target) (answered : TypeOracle.fits before source target = .ok (answer, after)) :
    Questioned before after

/-- Whether every question about given types is answered, whatever has been asked before. -/
def Responds (oracle : σ) : Prop :=
  ∀ later, ReflTransGen Questioned oracle later → ∀ source, Gives later source →
    (∃ answer, isError later source = .ok answer) ∧ (∃ name, aliasName later source = .ok name) ∧
      ∀ target, Gives later target → ∃ answer after, TypeOracle.fits later source target = .ok (answer, after)

theorem Responds.history (responds : Responds oracle) (history : ReflTransGen Questioned oracle later) :
    Responds later :=
  fun last further => responds last (history.trans further)

theorem gives_of_resolve? {program : Program} {names : Interner} {name : String} {resolution : Resolution}
    (resolved : program.resolve? names oracle name = some resolution) : Gives oracle resolution.type := by
  unfold Program.resolve? at resolved
  split at resolved
  · cases resolved
    exact .keyword _
  · obtain ⟨declared, _, rfl⟩ := Option.map_eq_some_iff.mp resolved
    exact .declared declared.node

end TypeOracle

open TypeOracle (Gives Questioned Responds)

/-- Whether every message under the name of an export can be raised at its statement. -/
def CheckedExport.Reportable (exported : CheckedExport) : Prop :=
  ∀ message payload, payload.exportName = some exported.name → ∃ diagnostic,
    exported.file.report exported.statement.node message payload = .ok diagnostic

namespace Rule

variable {σ : Type} [TypeOracle σ] {rule : Rule} {program : Program} {names : Interner} {exported : CheckedExport}
  {oracle before after : σ} {outcome : Option Diagnostic} {diagnostic : Diagnostic}

/-- What an outcome reports was raised at the statement of the export, under its name. -/
theorem Judges.reported (judges : rule.Judges program names exported before (some diagnostic) after) :
    ∃ message payload, payload.exportName = some exported.name ∧
      exported.file.report exported.statement.node message payload = .ok diagnostic := by
  cases judges with
  | undeclared _ _ reported => exact ⟨_, _, rfl, reported⟩
  | untyped _ _ _ _ reported => exact ⟨_, _, rfl, reported⟩
  | unfitting _ _ _ _ reported => exact ⟨_, _, rfl, reported⟩

/-- Judging an export asks at most one question, about given types. -/
theorem Judges.questioned (judges : rule.Judges program names exported before outcome after) :
    ReflTransGen Questioned before after := by
  cases judges with
  | unconfigured => exact .refl
  | undeclared => exact .refl
  | untyped => exact .refl
  | fitting _ known _ fits => exact .single (.fits (.location _) (TypeOracle.gives_of_resolve? known) fits)
  | unfitting _ known _ unfit => exact .single (.fits (.location _) (TypeOracle.gives_of_resolve? known) unfit)

/-- Where reports succeed and the oracle answers, an export is judged in one of the ways to judge it. -/
theorem exists_judges (rule : Rule) (responds : Responds oracle) (report : exported.Reportable) :
    ∃ outcome after, rule.Judges program names exported oracle outcome after := by
  obtain ⟨⟨error, isError⟩, ⟨aliased, aliasName⟩, fits⟩ := responds oracle .refl _ (.location exported.node)
  cases configured : rule.typeMap.expectedType? exported.name with
  | none => exact ⟨_, _, .unconfigured configured⟩
  | some typeName =>
    cases known : program.resolve? names oracle typeName with
    | none =>
      obtain ⟨diagnostic, reported⟩ := report .unresolvedType { exportName := some exported.name, typeName } rfl
      exact ⟨_, _, .undeclared configured known reported⟩
    | some expected =>
      cases error with
      | true =>
        obtain ⟨diagnostic, reported⟩ := report .unresolvedType { exportName := some exported.name, typeName := _ } rfl
        exact ⟨_, _, .untyped configured known isError aliasName reported⟩
      | false =>
        obtain ⟨answer, after, fits⟩ := fits _ (TypeOracle.gives_of_resolve? known)
        cases answer with
        | true => exact ⟨_, _, .fitting configured known isError fits⟩
        | false =>
          obtain ⟨diagnostic, reported⟩ := report .invalidExportType { exportName := some exported.name, typeName } rfl
          exact ⟨_, _, .unfitting configured known isError fits reported⟩

/-- Where reports succeed and the oracle answers, exports are judged one after the other to the end. -/
theorem exists_judgeAll_of_responds {exports : List CheckedExport} (rule : Rule) (responds : Responds oracle)
    (report : ∀ exported ∈ exports, exported.Reportable) :
    ∃ outcomes after, rule.judgeAll program names exports oracle = .ok (outcomes, after) := by
  have each : ∀ exported ∈ exports, ∀ before, ReflTransGen Questioned oracle before →
      ∃ outcome after, rule.judge program names exported before = .ok (outcome, after) ∧
        ReflTransGen Questioned oracle after := by
    intro exported mem before history
    obtain ⟨outcome, after, judges⟩ := rule.exists_judges (responds.history history) (report exported mem)
    exact ⟨outcome, after, judge_eq_ok_iff.mpr judges, history.trans judges.questioned⟩
  exact exists_judgeAll each .refl

end Rule

/-! ### The checker as an oracle -/

namespace Checker

variable {checker later : Checker} {type : TypeId}

theorem Tabled.gives_inside (tabled : checker.Tabled) (bound : checker.BindsInside) (given : Gives checker type) :
    type.index < checker.table.size := by
  have typed (node : NodeId) : (checker.typeOf node).index < checker.table.size := by
    obtain ⟨entry, found⟩ := tabled.exists_typeOf bound node
    exact TypeTable.index_lt_of_find? found
  cases given with
  | keyword kind => exact tabled.keywordType_inside kind
  | declared node => exact typed node
  | location node => exact typed node

theorem asked_of_questioned (history : ReflTransGen Questioned checker later) : ReflTransGen Asked checker later := by
  refine history.lift id fun before after questioned => ?_
  cases questioned with
  | fits _ _ answered => exact ⟨_, _, _, answered⟩

/-- A checker answers every question about its types, where these mention types of the table only. -/
theorem Tabled.responds (tabled : checker.Tabled) (closed : checker.table.Closed) (bound : checker.BindsInside) :
    Responds checker := by
  intro later history
  -- questions change nothing but the memo
  obtain ⟨memo, rfl⟩ : ∃ memo, later = { checker with memo } := ⟨_, eq_of_asked (asked_of_questioned history)⟩
  have tabled' : ({ checker with memo } : Checker).Tabled := ⟨tabled.numbered, tabled.intrinsic⟩
  intro source given
  have inside := tabled'.gives_inside bound given
  obtain ⟨entry, found⟩ := TypeTable.exists_find? inside
  have looked : checker.table.get source = .ok entry := TypeTable.get_eq_ok_iff.mpr found
  refine ⟨⟨entry.isError, ?_⟩, ⟨entry.aliasName, ?_⟩, fun target given' => ?_⟩
  · exact congrArg (TypeEntry.isError <$> ·) looked
  · exact congrArg (TypeEntry.aliasName <$> ·) looked
  · exact tabled'.exists_fits closed ⟨inside, tabled'.gives_inside bound given'⟩

end Checker

/-! ### Answers that are fixed -/

/-- Answers to all questions about types, as a table. -/
structure Answers where
  keywordType : Primitive → TypeId
  declaredType : NodeId → TypeId
  typeAt : NodeId → TypeId
  isError : TypeId → Bool
  aliasName : TypeId → Option String
  fits : TypeId → TypeId → Bool

/-- Whether two programs give the same meaning to every name that a rule asks for. -/
def Rule.ResolvesAlike {σ : Type} [TypeOracle σ] (rule : Rule) (program other : Program) (names : Interner)
    (oracle : σ) : Prop :=
  ∀ exportName typeName, rule.typeMap.expectedType? exportName = some typeName →
    other.resolve? names oracle typeName = program.resolve? names oracle typeName

namespace Answers

/-- A table is an oracle that no question changes. -/
instance : TypeOracle Answers where
  keywordType := keywordType
  declaredType := declaredType
  typeAt := typeAt
  isError answers type := .ok (answers.isError type)
  aliasName answers type := .ok (answers.aliasName type)
  fits answers source target := .ok (answers.fits source target, answers)

variable {σ : Type} [TypeOracle σ] {answers : Answers} {oracle later : σ}

theorem responds (answers : Answers) : Responds answers := by
  intro later _ source _
  exact ⟨⟨_, rfl⟩, ⟨_, rfl⟩, fun _ _ => ⟨_, _, rfl⟩⟩

/-- Whether an oracle answers as the table says, about the types that it gives out. -/
structure Agrees (answers : Answers) (oracle : σ) : Prop where
  keywordType : TypeOracle.keywordType oracle = answers.keywordType
  declaredType : TypeOracle.declaredType oracle = answers.declaredType
  typeAt : TypeOracle.typeAt oracle = answers.typeAt
  isError : ∀ type, Gives oracle type → TypeOracle.isError oracle type = .ok (answers.isError type)
  aliasName : ∀ type, Gives oracle type → TypeOracle.aliasName oracle type = .ok (answers.aliasName type)
  fits : ∀ source target, Gives oracle source → Gives oracle target →
    ∃ after, TypeOracle.fits oracle source target = .ok (answers.fits source target, after)

/-- Whether an oracle has fixed answers: it answers as the table says whatever has been asked before. -/
def Fixes (answers : Answers) (oracle : σ) : Prop :=
  ∀ later, ReflTransGen Questioned oracle later → answers.Agrees later

theorem Fixes.history (fixes : answers.Fixes oracle) (history : ReflTransGen Questioned oracle later) :
    answers.Fixes later :=
  fun last further => fixes last (history.trans further)

theorem fixes_self (answers : Answers) : answers.Fixes answers := by
  intro later history
  have same : later = answers := by
    induction history with
    | refl => rfl
    | tail _ questioned ih =>
      cases questioned with
      | fits _ _ answered =>
        cases answered
        exact ih
  rw [same]
  exact ⟨rfl, rfl, rfl, fun _ _ => rfl, fun _ _ => rfl, fun _ _ _ _ => ⟨_, rfl⟩⟩

theorem Agrees.resolve?_eq (agrees : answers.Agrees oracle) (program : Program) (names : Interner) (name : String) :
    program.resolve? names oracle name = program.resolve? names answers name := by
  unfold Program.resolve?
  rw [agrees.keywordType, agrees.declaredType]
  rfl

/-- An oracle that agrees with the table judges an export as the table does, also in a program that gives the
configured names the same meaning. -/
theorem Agrees.judges {rule : Rule} {program other : Program} {names : Interner} {exported : CheckedExport}
    {outcome : Option Diagnostic} {last : Answers} (agrees : answers.Agrees oracle)
    (alike : rule.ResolvesAlike program other names answers)
    (judges : rule.Judges program names exported answers outcome last) :
    ∃ after, rule.Judges other names exported oracle outcome after := by
  have resolve {typeName : String} (configured : rule.typeMap.expectedType? exported.name = some typeName) :
      other.resolve? names oracle typeName = program.resolve? names answers typeName :=
    (agrees.resolve?_eq other names typeName).trans (alike exported.name typeName configured)
  have location : TypeOracle.typeAt oracle exported.node = TypeOracle.typeAt answers exported.node :=
    congrFun agrees.typeAt exported.node
  have isError : TypeOracle.isError oracle (TypeOracle.typeAt oracle exported.node) =
      TypeOracle.isError answers (TypeOracle.typeAt answers exported.node) := by
    rw [agrees.isError _ (.location _), location]
    rfl
  have aliasName : TypeOracle.aliasName oracle (TypeOracle.typeAt oracle exported.node) =
      TypeOracle.aliasName answers (TypeOracle.typeAt answers exported.node) := by
    rw [agrees.aliasName _ (.location _), location]
    rfl
  have fits {name : String} {expected : Resolution} {answer : Bool} {next : Answers}
      (known : other.resolve? names oracle name = some expected)
      (answered : TypeOracle.fits answers (TypeOracle.typeAt answers exported.node) expected.type =
        .ok (answer, next)) :
      ∃ after, TypeOracle.fits oracle (TypeOracle.typeAt oracle exported.node) expected.type = .ok (answer, after) := by
    obtain ⟨after, same⟩ := agrees.fits _ _ (.location exported.node) (TypeOracle.gives_of_resolve? known)
    rw [location] at same ⊢
    cases answered
    exact ⟨after, same⟩
  cases judges with
  | unconfigured free => exact ⟨oracle, .unconfigured free⟩
  | undeclared configured unknown reported =>
    rw [← resolve configured] at unknown
    exact ⟨oracle, .undeclared configured unknown reported⟩
  | untyped configured known failed named reported =>
    rw [← resolve configured] at known
    exact ⟨oracle, .untyped configured known (isError.trans failed) (aliasName.trans named) reported⟩
  | fitting configured known typed yes =>
    rw [← resolve configured] at known
    obtain ⟨after, answered⟩ := fits known yes
    exact ⟨after, .fitting configured known (isError.trans typed) answered⟩
  | unfitting configured known typed no reported =>
    rw [← resolve configured] at known
    obtain ⟨after, answered⟩ := fits known no
    exact ⟨after, .unfitting configured known (isError.trans typed) answered reported⟩

variable {rule : Rule} {program other : Program} {names : Interner} {exported : CheckedExport}
  {exports : List CheckedExport}

/-- What judging an export comes to where the table gives the answers. -/
def outcome (answers : Answers) (rule : Rule) (program : Program) (names : Interner) (exported : CheckedExport) :
    Option Diagnostic :=
  (rule.judge program names exported answers).toOption.bind Prod.fst

theorem outcome_of_judges {outcome : Option Diagnostic} {last : Answers}
    (judges : rule.Judges program names exported answers outcome last) :
    answers.outcome rule program names exported = outcome := by
  rw [Answers.outcome, Rule.judge_eq_ok_iff.mpr judges]
  rfl

/-- What a table makes of an export was raised at its statement. -/
theorem outcome_reported (report : exported.Reportable) {diagnostic : Diagnostic}
    (found : answers.outcome rule program names exported = some diagnostic) :
    ∃ message payload, exported.file.report exported.statement.node message payload = .ok diagnostic := by
  have tabled : ∃ outcome last, rule.Judges program names exported answers outcome last :=
    rule.exists_judges answers.responds report
  obtain ⟨outcome, last, judges⟩ := tabled
  rw [outcome_of_judges judges] at found
  rw [found] at judges
  obtain ⟨message, payload, _, reported⟩ := judges.reported
  exact ⟨message, payload, reported⟩

/-- Exports are judged by an oracle with fixed answers as by its table, one after the other. -/
theorem Fixes.judgeAll_eq (fixes : answers.Fixes oracle) (alike : rule.ResolvesAlike program other names answers)
    (report : ∀ exported ∈ exports, exported.Reportable) :
    ∃ after, rule.judgeAll other names exports oracle =
      .ok (exports.map (answers.outcome rule program names), after) := by
  have each : ∀ exported ∈ exports, ∀ before, ReflTransGen Questioned oracle before →
      ∃ after, rule.judge other names exported before = .ok (answers.outcome rule program names exported, after) ∧
        ReflTransGen Questioned oracle after := by
    intro exported mem before history
    have tabled : ∃ outcome last, rule.Judges program names exported answers outcome last :=
      rule.exists_judges answers.responds (report exported mem)
    obtain ⟨outcome, last, judges⟩ := tabled
    obtain ⟨after, judged⟩ := (fixes before history).judges alike judges
    rw [outcome_of_judges judges]
    exact ⟨after, Rule.judge_eq_ok_iff.mpr judged, history.trans judged.questioned⟩
  obtain ⟨after, run, _⟩ :=
    Rule.judgeAll_eq_ok (List.forall₂_map_right_iff.mpr (List.forall₂_same.mpr each)) .refl
  exact ⟨after, run⟩

end Answers

private theorem eq_ok_getD {α : Type} {run : Except Fault α} {value : α} (ends : run = .ok value) (fallback : α) :
    run = .ok (run.toOption.getD fallback) := by
  rw [ends]
  rfl

/-- What a checker answers, as a table. -/
def Checker.answers (checker : Checker) : Answers where
  keywordType := TypeOracle.keywordType checker
  declaredType := TypeOracle.declaredType checker
  typeAt := TypeOracle.typeAt checker
  isError type := (TypeOracle.isError checker type).toOption.getD false
  aliasName type := (TypeOracle.aliasName checker type).toOption.getD none
  fits source target := (checker.answerTo source target).toOption.getD false

/-- A checker whose types were built from earlier types has fixed answers. -/
theorem Checker.ReachedOrderly.fixes {checker : Checker} (reached : checker.ReachedOrderly)
    (bound : checker.BindsInside) : checker.answers.Fixes checker := by
  intro later history
  have closed := reached.grounded.closed
  have asked := asked_of_questioned history
  have inside {type : TypeId} (given : Gives later type) : type.index < later.table.size :=
    (reached.history asked).reached.coherent.toTabled.gives_inside (bound.history asked) given
  have responds := reached.reached.coherent.toTabled.responds closed bound later history
  -- questions change nothing but the memo
  obtain ⟨memo, same⟩ : ∃ memo, later = { checker with memo } := ⟨_, eq_of_asked asked⟩
  exact {
    keywordType := by rw [same]; rfl
    declaredType := by rw [same]; rfl
    typeAt := by rw [same]; rfl
    isError := fun type given => by
      obtain ⟨error, isError⟩ := (responds type given).1
      rw [same] at isError ⊢
      exact eq_ok_getD isError false
    aliasName := fun type given => by
      obtain ⟨name, aliasName⟩ := (responds type given).2.1
      rw [same] at aliasName ⊢
      exact eq_ok_getD aliasName none
    fits := fun source target given given' => by
      have within : source.index < later.table.size ∧ target.index < later.table.size := ⟨inside given, inside given'⟩
      obtain ⟨answer, after, fits, evaluated⟩ := (reached.history asked).fits_eq_ok within
      rw [same] at within evaluated
      obtain ⟨answer', after', fits', evaluated'⟩ := reached.fits_eq_ok within
      have equal : answer' = answer := by
        have runs := evaluated'.symm.trans evaluated
        cases runs
        rfl
      have known : checker.answerTo source target = .ok answer := answerTo_eq_ok_iff.mpr ⟨after', equal ▸ fits'⟩
      refine ⟨after, ?_⟩
      show later.fits source target = .ok ((checker.answerTo source target).toOption.getD false, after)
      rw [known]
      exact fits }

end ExportLint
