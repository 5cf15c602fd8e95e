import ExportLint.Proofs.PlainRecursion
import ExportLint.Proofs.StructuralFit

/-!
# Independence of the history

Whether a question is answered as it would be answered first. For types that contain themselves it
need not be: the answer to a pair inside may rest on the provisional yes of a pair around it, and
stays in the memo when the pair around it comes out as no. The answers of a table are independent of
the history exactly when no history makes it answer yes for types that do not fit structurally.
-/

namespace ExportLint.Checker

open Relation (ReflTransGen)

variable {checker fresh later after : Checker} {source target : TypeId} {answer : Bool}

/-- Whether all questions about types of the table have the same answers after any questions. -/
def HistoryIndependent (fresh : Checker) : Prop :=
  ∀ later, ReflTransGen Asked fresh later → ∀ source target : TypeId, source.index < fresh.table.size →
    target.index < fresh.table.size → later.answerTo source target = fresh.answerTo source target

/-- Whether types that are found to fit after any questions fit structurally. -/
def NeverWronglyFits (fresh : Checker) : Prop :=
  ∀ later, ReflTransGen Asked fresh later → ∀ source target : TypeId, later.answerTo source target = .ok true →
    fresh.table.StructurallyFits fresh.strict source target

theorem answerTo_self (checker : Checker) (id : TypeId) : checker.answerTo id id = .ok true :=
  answerTo_eq_ok_iff.mpr ⟨_, fits_eq_ok_iff.mpr ⟨_, .same id checker.memo, rfl⟩⟩

theorem answerTo_of_remembered (apart : source ≠ target) (found : checker.memo.find? source target = some answer) :
    checker.answerTo source target = .ok answer :=
  answerTo_eq_ok_iff.mpr ⟨_, fits_eq_ok_iff.mpr ⟨_, .remembered apart found, rfl⟩⟩

/-- An answer about two types is an answer about types of the table. -/
theorem Coherent.inside_of_answer (coherent : checker.Coherent) (apart : source ≠ target)
    (answered : checker.answerTo source target = .ok answer) :
    source.index < checker.table.size ∧ target.index < checker.table.size := by
  obtain ⟨after, answered⟩ := answerTo_eq_ok_iff.mp answered
  have remembers := (coherent.asked ⟨source, target, answer, answered⟩).remembers
  obtain ⟨memo, settles, rfl⟩ := fits_eq_ok_iff.mp answered
  exact remembers.inside (settles.find?_eq apart)

/-- A yes about two types is a yes about types of the table. -/
theorem Coherent.inside_of_yes (coherent : checker.Coherent) (apart : source ≠ target)
    (fits : checker.answerTo source target = .ok true) :
    source.index < checker.table.size ∧ target.index < checker.table.size :=
  coherent.inside_of_answer apart fits

/-- A no is about two types, since every type fits itself. -/
theorem apart_of_no (unfit : checker.answerTo source target = .ok false) : source ≠ target := by
  rintro rfl
  cases (answerTo_self checker source).symm.trans unfit

/-- Where the history does not matter, the pairs that a fresh checker finds to fit are supported by
the rules: what a yes rests on is what the checker would answer after it. -/
theorem HistoryIndependent.supports (independent : fresh.HistoryIndependent) (coherent : fresh.Coherent)
    (unasked : fresh.memo = .empty) :
    fresh.table.Supports fresh.strict fun s t => fresh.answerTo s t = .ok true := by
  intro source target fits
  by_cases same : source = target
  · exact Or.inl same
  obtain ⟨after, answered⟩ := answerTo_eq_ok_iff.mp fits
  have history : ReflTransGen Asked fresh after := .single ⟨source, target, true, answered⟩
  have remembers := (coherent.history history).remembers
  obtain ⟨memo, settles, rfl⟩ := fits_eq_ok_iff.mp answered
  rw [unasked] at settles
  cases settles with
  | same => exact absurd rfl same
  | remembered _ found => simp at found
  | @asked _ _ _ grown demand _ _ _ demanded settled =>
    refine Or.inr ⟨demand, demanded, (settled.holds_of_yes rfl).mono ?_⟩
    intro s t supported
    by_cases equal : s = t
    · subst equal
      exact answerTo_self fresh s
    have remembered : (grown.record source target true).find? s t = some true := by
      rw [Memo.find?_record]
      split
      · rfl
      · exact supported.resolve_left equal
    obtain ⟨inSource, inTarget⟩ := remembers.inside remembered
    rw [← independent _ history s t inSource inTarget]
    exact answerTo_of_remembered equal remembered

/-- After any questions, every question about types of a closed table is answered, and with yes if they
fit structurally. -/
theorem Coherent.exists_answer_after (coherent : fresh.Coherent) (closed : fresh.table.Closed)
    (history : ReflTransGen Asked fresh later) (inSource : source.index < fresh.table.size)
    (inTarget : target.index < fresh.table.size) : ∃ answer, later.answerTo source target = .ok answer ∧
      (fresh.table.StructurallyFits fresh.strict source target → answer = true) := by
  have laterCoherent := coherent.history history
  have same := eq_of_asked history
  have laterClosed : later.table.Closed := by
    rw [same]
    exact closed
  have inside : source.index < later.table.size ∧ target.index < later.table.size := by
    rw [same]
    exact ⟨inSource, inTarget⟩
  obtain ⟨answer, answered⟩ := laterCoherent.exists_answer laterClosed inside
  refine ⟨answer, answered, fun fits => ?_⟩
  obtain ⟨after, asked⟩ := answerTo_eq_ok_iff.mp answered
  exact laterCoherent.grants asked (by rw [same]; exact fits)

/-- Where every type mentions only earlier types, the history never matters. -/
theorem Coherent.historyIndependent (coherent : fresh.Coherent) (grounded : fresh.table.Grounded) :
    fresh.HistoryIndependent := by
  intro later history source target inSource inTarget
  have same := eq_of_asked history
  have laterGrounded : later.table.Grounded := by
    rw [same]
    exact grounded
  have inside : source.index < later.table.size ∧ target.index < later.table.size := by
    rw [same]
    exact ⟨inSource, inTarget⟩
  obtain ⟨answer, after, answered, value⟩ := coherent.fits_eq_ok grounded ⟨inSource, inTarget⟩
  obtain ⟨answer', after', answered', value'⟩ := (coherent.history history).fits_eq_ok laterGrounded inside
  rw [same] at value'
  have equal : answer' = answer := by
    have := congrArg ExceptT.run (value'.symm.trans value)
    cases this
    rfl
  rw [answerTo_eq_ok_iff.mpr ⟨after, answered⟩, answerTo_eq_ok_iff.mpr ⟨after', answered'⟩, equal]

/-- The answers of a table are independent of the history exactly when no history makes the checker
find two types to fit that do not fit structurally. Tables whose types mention only earlier types are
of this kind; and wherever two answers differ, the types do not fit structurally, so the yes is wrong. -/
theorem historyIndependent_iff (reached : fresh.Reached) (unasked : fresh.memo = .empty)
    (closed : fresh.table.Closed) :
    (fresh.HistoryIndependent ↔ fresh.NeverWronglyFits) ∧ (fresh.table.Grounded → fresh.HistoryIndependent) ∧
      ∀ later, ReflTransGen Asked fresh later → ∀ source target : TypeId, source.index < fresh.table.size →
        target.index < fresh.table.size → later.answerTo source target ≠ fresh.answerTo source target →
        ¬ fresh.table.StructurallyFits fresh.strict source target := by
  have coherent := reached.coherent
  refine ⟨⟨?_, ?_⟩, coherent.historyIndependent, ?_⟩
  · intro independent later history source target fits
    by_cases same : source = target
    · rw [same]
      exact TypeTable.structurallyFits_self target
    have freshFits : fresh.answerTo source target = .ok true := by
      have inside := (coherent.history history).inside_of_yes same fits
      rw [eq_of_asked history] at inside
      rw [← independent later history source target inside.1 inside.2, fits]
    exact (independent.supports coherent unasked).structurallyFits freshFits
  · intro right later history source target inSource inTarget
    -- after any questions, yes is the answer for the pairs that fit structurally and for no others
    have decides (checker : Checker) (history : ReflTransGen Asked fresh checker) : ∃ answer,
        checker.answerTo source target = .ok answer ∧
          (answer = true ↔ fresh.table.StructurallyFits fresh.strict source target) := by
      obtain ⟨answer, answered, granted⟩ := coherent.exists_answer_after closed history inSource inTarget
      refine ⟨answer, answered, ?_, granted⟩
      rintro rfl
      exact right checker history source target answered
    obtain ⟨answer, answered, iff⟩ := decides later history
    obtain ⟨first, answeredFirst, iffFirst⟩ := decides fresh .refl
    have same : answer = first := Bool.eq_iff_iff.mpr (iff.trans iffFirst.symm)
    rw [answered, answeredFirst, same]
  · intro later history source target inSource inTarget differ fits
    obtain ⟨answer, answered, granted⟩ := coherent.exists_answer_after closed history inSource inTarget
    obtain ⟨first, answeredFirst, grantedFirst⟩ := coherent.exists_answer_after closed .refl inSource inTarget
    rw [answered, answeredFirst, granted fits, grantedFirst fits] at differ
    exact differ rfl

/-! ### Records that contain each other -/

/-- Two pairs of records: the first ones contain the last ones and differ in another member, and the
last ones contain the first ones. -/
def crossed : Checker :=
  .ofRecords [[("x", ⟨12⟩), ("y", .string)], [("x", ⟨13⟩), ("y", .number)], [("a", ⟨10⟩)], [("a", ⟨11⟩)]]

private theorem crossed_first : crossed.table.demandOf false ⟨10⟩ ⟨11⟩ =
    .ok (.both (.both (.fits ⟨12⟩ ⟨13⟩) (.both (.fits .string .number) .holds)) .holds) := by
  rfl

private theorem crossed_last : crossed.table.demandOf false ⟨12⟩ ⟨13⟩ =
    .ok (.both (.both (.fits ⟨10⟩ ⟨11⟩) .holds) .holds) := by
  rfl

private theorem crossed_apart {memo : Memo} (unknown : memo.find? .string .number = none) :
    crossed.table.Settles false (.fits .string .number) memo false
      ((memo.record .string .number true).record .string .number false) := by
  have demanded : crossed.table.demandOf false .string .number = .ok .fails := by rfl
  exact .asked (by decide) unknown demanded (.fails _)

theorem historyIndependent_iff_crossed : (crossed.HistoryIndependent ↔ crossed.NeverWronglyFits) ∧
    ∀ later, crossed.Asked later → ∀ source target : TypeId, source.index < 14 → target.index < 14 →
      later.answerTo source target ≠ crossed.answerTo source target →
      ¬ crossed.table.StructurallyFits false source target := by
  have reached : crossed.Reached := reached_ofRecords _
  obtain ⟨iff, _, wrong⟩ := historyIndependent_iff reached rfl (by decide)
  exact ⟨iff, fun later asked => wrong later (.single asked)⟩

/-- Asked first, the last records do not fit. Asked after the first records, which contain them, they
fit: their yes rests on the provisional one of the first records and outlives it. -/
theorem not_historyIndependent_crossed : crossed.Reached ∧ crossed.memo = .empty ∧ crossed.table.Closed ∧
    (∃ later, crossed.Asked later ∧ later.answerTo ⟨12⟩ ⟨13⟩ = .ok true) ∧
    crossed.answerTo ⟨12⟩ ⟨13⟩ = .ok false ∧ ¬ crossed.HistoryIndependent := by
  have outlived : ∃ later, crossed.Asked later ∧ later.answerTo ⟨12⟩ ⟨13⟩ = .ok true := by
    have inner : crossed.table.Settles false (.fits ⟨12⟩ ⟨13⟩) (Memo.empty.record ⟨10⟩ ⟨11⟩ true) true _ :=
      .asked (by decide) (by simp [Memo.find?_record]) crossed_last
        (.bothSecond (.bothSecond (.remembered (by decide) (by simp [Memo.find?_record])) (.holds _)) (.holds _))
    have outer : crossed.table.Settles false (.fits ⟨10⟩ ⟨11⟩) .empty false _ :=
      .asked (by decide) (by simp) crossed_first (.bothFirst (.bothSecond inner (.bothFirst
        (crossed_apart (by simp [Memo.find?_record, TypeId.string, TypeId.number])))))
    exact ⟨_, ⟨_, _, _, fits_eq_ok_iff.mpr ⟨_, outer, rfl⟩⟩,
      answerTo_of_remembered (by decide) (by simp [Memo.find?_record, TypeId.string, TypeId.number])⟩
  have first : crossed.answerTo ⟨12⟩ ⟨13⟩ = .ok false := by
    have inner : crossed.table.Settles false (.fits ⟨10⟩ ⟨11⟩) (Memo.empty.record ⟨12⟩ ⟨13⟩ true) false _ :=
      .asked (by decide) (by simp [Memo.find?_record]) crossed_first
        (.bothFirst (.bothSecond (.remembered (by decide) (by simp [Memo.find?_record])) (.bothFirst
          (crossed_apart (by simp [Memo.find?_record, TypeId.string, TypeId.number])))))
    have outer : crossed.table.Settles false (.fits ⟨12⟩ ⟨13⟩) .empty false _ :=
      .asked (by decide) (by simp) crossed_last (.bothFirst (.bothFirst inner))
    exact answerTo_eq_ok_iff.mpr ⟨_, fits_eq_ok_iff.mpr ⟨_, outer, rfl⟩⟩
  refine ⟨reached_ofRecords _, rfl, by decide, outlived, first, ?_⟩
  intro independent
  obtain ⟨later, asked, fits⟩ := outlived
  have same := independent later (.single asked) ⟨12⟩ ⟨13⟩ (by decide) (by decide)
  rw [fits, first] at same
  cases same

end ExportLint.Checker
