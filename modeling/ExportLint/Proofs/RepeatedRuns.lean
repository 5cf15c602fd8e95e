import ExportLint.Proofs.Anchors
import ExportLint.Proofs.HistoryIndependence

/-!
# Repeated runs

What a checker has answered it answers again, whatever it is asked in between, since a question only
ever overwrites the provisional answer of its own pair. So a run of the rule over a program can be
repeated: the second run reports what the first one did and leaves the checker as it is. This holds
of any types, also of those that contain themselves, and where the treatment of `null` was changed
between earlier questions.
-/

namespace ExportLint

open Relation (ReflTransGen)

namespace Checker

variable {checker before after later : Checker} {source target : TypeId} {answer : Bool}

/-- A use of a checker, in which the treatment of `null` may be changed at any time. -/
inductive Use : Checker → Checker → Prop
  | step {before after : Checker} (step : Step before after) : Use before after
  | chosen (checker : Checker) (strict : Bool) : Use checker (checker.withStrict strict)

/-- A new checker has come to be this one by any uses, in whichever order. -/
def Used (checker : Checker) : Prop :=
  ReflTransGen Use (initial false) checker

theorem Reached.used (reached : checker.Reached) : checker.Used :=
  reached.lift id fun _ _ step => .step step

theorem Used.tabled (used : checker.Used) : checker.Tabled := by
  induction used with
  | refl => exact (initial_coherent false).toTabled
  | tail _ use ih =>
    cases use with
    | step step => exact ih.step step
    | chosen strict => exact ⟨ih.numbered, ih.intrinsic⟩

/-! ### Answers stay -/

theorem Asked.find?_keeps (asked : before.Asked after) {s t : TypeId} {known : Bool}
    (found : before.memo.find? s t = some known) : after.memo.find? s t = some known := by
  obtain ⟨source, target, answer, fits⟩ := asked
  obtain ⟨memo, settles, rfl⟩ := fits_eq_ok_iff.mp fits
  exact settles.keeps found

theorem find?_keeps (history : ReflTransGen Asked before after) {s t : TypeId} {known : Bool}
    (found : before.memo.find? s t = some known) : after.memo.find? s t = some known := by
  induction history with
  | refl => exact found
  | tail _ asked ih => exact asked.find?_keeps ih

theorem find?_of_fits (fits : before.fits source target = .ok (answer, after)) (apart : source ≠ target) :
    after.memo.find? source target = some answer := by
  obtain ⟨memo, settles, rfl⟩ := fits_eq_ok_iff.mp fits
  exact settles.find?_eq apart

/-- What has been answered is answered the same from then on, and nothing more is remembered for it. -/
theorem fits_again (fits : before.fits source target = .ok (answer, after)) (history : ReflTransGen Asked after later) :
    later.fits source target = .ok (answer, later) := by
  by_cases same : source = target
  · subst same
    obtain ⟨memo, settles, _⟩ := fits_eq_ok_iff.mp fits
    have yes : answer = true := by
      cases settles with
      | same => rfl
      | remembered apart => exact absurd rfl apart
      | asked apart => exact absurd rfl apart
    rw [yes]
    exact fits_eq_ok_iff.mpr ⟨later.memo, .same source later.memo, rfl⟩
  · have found := find?_keeps history (find?_of_fits fits same)
    exact fits_eq_ok_iff.mpr ⟨later.memo, .remembered same found, rfl⟩

/-! ### Runs are repeated -/

variable {rule : Rule} {program : Program} {names : Interner} {exports : List CheckedExport}
  {outcomes : List (Option Diagnostic)}

theorem judge_again {exported : CheckedExport} {outcome : Option Diagnostic}
    (judged : rule.judge program names exported before = .ok (outcome, after))
    (history : ReflTransGen Asked after later) :
    rule.judge program names exported later = .ok (outcome, later) := by
  have whole := (asked_of_judge exported before outcome after .refl judged).trans history
  -- later questions have changed nothing but the memo
  obtain ⟨memo, same⟩ : ∃ memo, later = { before with memo } := ⟨_, eq_of_asked whole⟩
  refine Rule.judge_eq_ok_iff.mpr ?_
  cases Rule.judge_eq_ok_iff.mp judged with
  | unconfigured free => exact .unconfigured free
  | undeclared configured unknown reported =>
    subst same
    exact .undeclared configured unknown reported
  | untyped configured known failed named reported =>
    subst same
    exact .untyped configured known failed named reported
  | fitting configured known typed fits =>
    have again := fits_again fits history
    subst same
    exact .fitting configured known typed again
  | unfitting configured known typed unfit reported =>
    have again := fits_again unfit history
    subst same
    exact .unfitting configured known typed again reported

theorem asked_of_judgeAll (run : rule.judgeAll program names exports before = .ok (outcomes, after)) :
    ReflTransGen Asked before after := by
  induction exports generalizing before outcomes with
  | nil =>
    cases run
    exact .refl
  | cons exported rest ih =>
    obtain ⟨outcome, middle, others, judged, rested, _⟩ := Rule.judgeAll_cons_eq_ok_iff.mp run
    exact (asked_of_judge exported before outcome middle .refl judged).trans (ih rested)

theorem judgeAll_again (run : rule.judgeAll program names exports before = .ok (outcomes, after))
    (history : ReflTransGen Asked after later) :
    rule.judgeAll program names exports later = .ok (outcomes, later) := by
  induction exports generalizing before outcomes with
  | nil =>
    cases run
    rfl
  | cons exported rest ih =>
    obtain ⟨outcome, middle, others, judged, rested, rfl⟩ := Rule.judgeAll_cons_eq_ok_iff.mp run
    have first := judge_again judged ((asked_of_judgeAll rested).trans history)
    exact Rule.judgeAll_cons_eq_ok_iff.mpr ⟨outcome, later, others, first, ih rested, rfl⟩

theorem checkProgram_again {found : Collection} (run : rule.checkProgram program names before = .ok (found, after))
    (history : ReflTransGen Asked after later) : rule.checkProgram program names later = .ok (found, later) := by
  rw [Rule.checkProgram_eq] at run ⊢
  obtain ⟨outcomes, judged, rfl⟩ := Rule.collect_eq_ok_iff.mp run
  exact Rule.collect_eq_ok_iff.mpr ⟨outcomes, judgeAll_again judged history, rfl⟩

/-! ### Runs come to an end -/

/-- A run over a program of files that builders have made comes to an end. -/
theorem Tabled.exists_checkProgram (tabled : checker.Tabled) (closed : checker.table.Closed)
    (bound : checker.BindsInside) {origin : Nat → Nat} {workspace : Workspace} {number : Nat}
    (made : workspace.Made origin) (found : workspace.program? number = some (program, names))
    (short : ∀ file ∈ program.files, file.text.utf8ByteSize < 2 ^ 32) :
    ∃ found after, rule.checkProgram program names checker = .ok (found, after) :=
  made.exists_checkProgram found short rule (tabled.responds closed bound)

/-- A checker whose types mention types of the table only answers every question about them. Each answer
leaves what was remembered as it is, is remembered itself, and is given again from then on. And what a run
over a program has reported, every later run reports; where the files of the program were made by builders,
the first run comes to an end. -/
theorem answers_and_runs_repeat (used : checker.Used) (closed : checker.table.Closed) (bound : checker.BindsInside) :
    (∀ source target : TypeId, source.index < checker.table.size → target.index < checker.table.size →
      ∃ answer after, checker.fits source target = .ok (answer, after)) ∧
    (∀ source target answer after, checker.fits source target = .ok (answer, after) →
      (∀ s t known, checker.memo.find? s t = some known → after.memo.find? s t = some known) ∧
      (source ≠ target → after.memo.find? source target = some answer) ∧
      ∀ later, ReflTransGen Asked after later → later.answerTo source target = .ok answer) ∧
    ∀ (rule : Rule) (program : Program) (names : Interner),
      (∀ found after, rule.checkProgram program names checker = .ok (found, after) →
        ∀ later, ReflTransGen Asked after later → rule.checkProgram program names later = .ok (found, later)) ∧
      ∀ (origin : Nat → Nat) (workspace : Workspace) (number : Nat), workspace.Made origin →
        workspace.program? number = some (program, names) →
        (∀ file ∈ program.files, file.text.utf8ByteSize < 2 ^ 32) →
        ∃ found after, rule.checkProgram program names checker = .ok (found, after) := by
  refine ⟨?_, ?_, ?_⟩
  · intro source target inSource inTarget
    exact used.tabled.exists_fits closed ⟨inSource, inTarget⟩
  · intro source target answer after fits
    have asked : Asked checker after := ⟨source, target, answer, fits⟩
    refine ⟨fun _ _ _ found => asked.find?_keeps found, find?_of_fits fits, ?_⟩
    intro later history
    exact answerTo_eq_ok_iff.mpr ⟨later, fits_again fits history⟩
  · intro rule program names
    constructor
    · intro found after run later history
      exact checkProgram_again run history
    · intro origin workspace number made found short
      exact used.tabled.exists_checkProgram closed bound made found short

/-- Two records that contain themselves, and a constant of one of them that has to fit the other. -/
theorem answers_and_runs_repeat_twins :
    let checker := ((ofRecords [[("next", ⟨10⟩)], [("next", ⟨11⟩)]]).bind ⟨0⟩ ⟨10⟩).bind ⟨4⟩ ⟨11⟩
    let declarations := [Declaration.typeAlias ModifierFlags.exported "ID" "unknown",
      .variableDecl ModifierFlags.exported NodeFlags.constList [{ binding := .name "id" }]]
    let rule : Rule := { typeMap := .ofList [("*", "ID")] }
    (∃ answer after, checker.fits ⟨10⟩ ⟨11⟩ = .ok (answer, after) ∧ after.memo.find? ⟨10⟩ ⟨11⟩ = some answer ∧
      ∀ later, ReflTransGen Asked after later → later.answerTo ⟨10⟩ ⟨11⟩ = .ok answer) ∧
    ∃ program names found after, (Workspace.sole "mod.ts" declarations).program? 0 = some (program, names) ∧
      rule.checkProgram program names checker = .ok (found, after) ∧
      ∀ later, ReflTransGen Asked after later → rule.checkProgram program names later = .ok (found, later) := by
  intro checker declarations rule
  have used : checker.Used :=
    ((reached_ofRecords _).used.tail (.step (.bound _ ⟨0⟩ ⟨10⟩))).tail (.step (.bound _ ⟨4⟩ ⟨11⟩))
  have unbound : (ofRecords [[("next", ⟨10⟩)], [("next", ⟨11⟩)]]).BindsInside := by
    intro node type found
    simp [ofRecords] at found
  have bound : checker.BindsInside := (unbound.bind ⟨0⟩ (by decide)).bind ⟨4⟩ (by decide)
  obtain ⟨ends, answers, runs⟩ := answers_and_runs_repeat used (by decide) bound
  constructor
  · obtain ⟨answer, after, fits⟩ := ends ⟨10⟩ ⟨11⟩ (by decide) (by decide)
    obtain ⟨_, remembered, again⟩ := answers ⟨10⟩ ⟨11⟩ answer after fits
    exact ⟨answer, after, fits, remembered (by decide), again⟩
  · have present : (Workspace.sole "mod.ts" declarations).program? 0 = some (_, _) := rfl
    have short : ∀ file ∈ [Workspace.soleFile "mod.ts" declarations], file.text.utf8ByteSize < 2 ^ 32 := by
      intro file mem
      cases List.mem_singleton.mp mem
      decide
    obtain ⟨again, ends⟩ := runs rule _ _
    obtain ⟨found, after, run⟩ := ends _ _ 0 (Workspace.sole_made "mod.ts" declarations) present short
    exact ⟨_, _, found, after, present, run, again found after run⟩

end Checker

end ExportLint
