import ExportLint.Proofs.Strictness

/-!
# Switching the check for null

What a checker remembers is remembered without the treatment of `null` under which it was answered, and
stays when the treatment is switched. So the switch is honoured exactly when every answer that is
remembered would be given again. Whatever is switched in between, no answer leaves the bounds that the two
treatments set: what fits under the check is never denied, and what is granted fits without the check.
-/

namespace ExportLint

open Relation (ReflTransGen)

namespace TypeTable

variable {table : TypeTable} {tight loose strict : Bool}

/-- Whether an answer lies between two treatments of `null`: it is yes for what fits under the tight one, and
is yes only for what fits under the loose one. -/
def Allows (table : TypeTable) (tight loose : Bool) (source target : TypeId) (answer : Bool) : Prop :=
  (table.StructurallyFits tight source target → answer = true) ∧
    (answer = true → table.StructurallyFits loose source target)

/-- The rules of a treatment between two others hand on that an answer lies between these: it is yes to a demand
that is met by what fits under the tight one, and is yes only to one that is met by what fits under the loose one. -/
theorem handsOn_between (above : strict ≤ tight) (below : loose ≤ strict) : table.HandsOn strict fun demand answer =>
    (demand.Holds (table.StructurallyFits tight) → answer = true) ∧
      (answer = true → demand.Holds (table.StructurallyFits loose)) where
  holds := ⟨fun _ => rfl, fun _ => trivial⟩
  fails := ⟨fun met => met.elim, fun yes => by cases yes⟩
  same id := ⟨fun _ => rfl, fun _ => structurallyFits_self id⟩
  asked := by
    rintro source target demand answer apart demanded ⟨granted, supported⟩
    constructor
    · intro fits
      obtain ⟨tighter, known, met⟩ := (structurallyFits_iff.mp fits).resolve_left apart
      obtain ⟨_, known', met'⟩ := demandOf_loosen above known met
      cases demanded.symm.trans known'
      exact granted met'
    · intro yes
      exact structurallyFits_iff.mpr (Or.inr (demandOf_loosen below demanded (supported yes)))
  bothFirst := fun ⟨granted, _⟩ => ⟨fun met => granted met.1, fun yes => by cases yes⟩
  bothSecond := fun ⟨_, supported⟩ ⟨granted, supported'⟩ =>
    ⟨fun met => granted met.2, fun yes => ⟨supported rfl, supported' yes⟩⟩
  eitherFirst := fun ⟨_, supported⟩ => ⟨fun _ => rfl, fun _ => Or.inl (supported rfl)⟩
  eitherSecond := by
    rintro first second answer ⟨granted, _⟩ ⟨granted', supported⟩
    refine ⟨?_, fun yes => Or.inr (supported yes)⟩
    rintro (left | right)
    · cases granted left
    · exact granted' right

end TypeTable

namespace Checker

variable {checker before after later : Checker} {tight loose : Bool} {source target : TypeId}

/-- A use of a checker that builds types from types that are there, and may switch the treatment of `null` at
any time. -/
inductive OrderlyUse : Checker → Checker → Prop
  | step {before after : Checker} (step : OrderlyStep before after) : OrderlyUse before after
  | switched (checker : Checker) (strict : Bool) : OrderlyUse checker (checker.withStrict strict)

/-- A new checker has come to be this one by orderly uses, with any switches between them. -/
def UsedOrderly (checker : Checker) : Prop :=
  ReflTransGen OrderlyUse (initial false) checker

/-- The checker that knows the same types and nodes, has treated `null` in one way from the start, and has been
asked nothing. -/
def unasked (checker : Checker) (strict : Bool) : Checker :=
  { checker with strict, memo := .empty }

/-- Whether the answers that a checker remembers are about types of its table and lie between two treatments of
`null`. -/
structure Bracketed (tight loose : Bool) (checker : Checker) : Prop where
  inside : ∀ ⦃source target answer⦄, checker.memo.find? source target = some answer →
    source.index < checker.table.size ∧ target.index < checker.table.size
  allows : ∀ ⦃source target answer⦄, checker.memo.find? source target = some answer →
    checker.table.Allows tight loose source target answer

/-- Whether after a switch every question has the answer of every checker that has treated `null` in this way from
the start, whatever is built, bound or asked after the switch. -/
def SwitchHonoured (checker : Checker) (strict : Bool) : Prop :=
  ∀ later, ReflTransGen OrderlyStep (checker.withStrict strict) later → later.strict = strict →
    ∀ other : Checker, other.ReachedOrderly → other.table = later.table → other.strict = strict →
      ∀ source target : TypeId, source.index < later.table.size → target.index < later.table.size →
        later.answerTo source target = other.answerTo source target

/-! ### Checkers that were asked nothing -/

theorem OrderlyStep.unasked (step : OrderlyStep before after) (strict : Bool) :
    before.unasked strict = after.unasked strict ∨ OrderlyStep (before.unasked strict) (after.unasked strict) := by
  cases step with
  | chosen => exact Or.inl rfl
  | built there built =>
    obtain ⟨made, same⟩ := build_eq_ok built
    rw [same]
    exact Or.inr (.built there (build_of_table made))
  | bound node type => exact Or.inr (.bound _ node type)
  | asked asked =>
    rw [asked.eq]
    exact Or.inl rfl

/-- Whatever has been switched, the types of a checker are those of a checker that was never asked. -/
theorem UsedOrderly.unasked (used : checker.UsedOrderly) (strict : Bool) : (checker.unasked strict).ReachedOrderly := by
  induction used with
  | refl => exact .single (.chosen strict rfl)
  | tail _ use ih =>
    cases use with
    | switched => exact ih
    | step step =>
      rcases step.unasked strict with same | step
      · rw [← same]
        exact ih
      · exact ih.tail step

theorem UsedOrderly.orderly (used : checker.UsedOrderly) : checker.table.Orderly :=
  (used.unasked false).orderly

theorem UsedOrderly.history (used : checker.UsedOrderly) (history : ReflTransGen OrderlyStep checker later) :
    later.UsedOrderly :=
  used.trans (history.lift id fun _ _ step => .step step)

theorem UsedOrderly.unasked_answer_iff (used : checker.UsedOrderly) (strict : Bool) :
    (checker.unasked strict).answerTo source target = .ok true ↔
      checker.table.StructurallyFits strict source target :=
  (used.unasked strict).answerTo_eq_true_iff

/-! ### What is remembered -/

theorem bracketed_of_memo_empty (unasked : checker.memo = .empty) : checker.Bracketed tight loose := by
  constructor <;> intro source target answer found <;> simp [unasked] at found

theorem Bracketed.grow (bracketed : checker.Bracketed tight loose) (orderly : checker.table.Orderly)
    {table : TypeTable} (growth : table.Extends checker.table) : Bracketed tight loose { checker with table } := by
  constructor
  · intro source target answer found
    obtain ⟨inSource, inTarget⟩ := bracketed.inside found
    obtain ⟨_, found⟩ := TypeTable.exists_find? inSource
    obtain ⟨_, found'⟩ := TypeTable.exists_find? inTarget
    exact ⟨TypeTable.index_lt_of_find? (growth found), TypeTable.index_lt_of_find? (growth found')⟩
  · intro source target answer found
    have same (strict : Bool) : table.StructurallyFits strict source target ↔
        checker.table.StructurallyFits strict source target :=
      TypeTable.structurallyFits_grow_iff orderly.numbered orderly.grounded.closed growth (bracketed.inside found)
    obtain ⟨granted, supported⟩ := bracketed.allows found
    exact ⟨fun fits => granted ((same tight).mp fits), fun yes => (same loose).mpr (supported yes)⟩

theorem Bracketed.asked (bracketed : before.Bracketed tight loose) (orderly : before.table.Orderly)
    (above : before.strict ≤ tight) (below : loose ≤ before.strict) (asked : before.Asked after) :
    after.Bracketed tight loose := by
  obtain ⟨source, target, answer, answered⟩ := asked
  obtain ⟨memo, settles, rfl⟩ := fits_eq_ok_iff.mp answered
  constructor
  · intro s t known found
    rcases settles.inside found with ⟨old, there⟩ | within
    · exact bracketed.inside there
    · exact within
  · intro s t known found
    -- a bound beyond both the question and the pair that is looked up
    have asks : (Demand.fits source target).Asks fun a b =>
        a.index + b.index < max (s.index + t.index + 1) (source.index + target.index + 1) := by
      simp only [Demand.Asks]
      omega
    have kept := (settles.right_below orderly.numbered orderly.grounded (TypeTable.handsOn_between above below) asks
      fun _ _ _ _ found => bracketed.allows found).2
    exact kept (by omega) found

/-- The answer to a question about types of the table lies between the two treatments. -/
theorem Bracketed.exists_answer (bracketed : checker.Bracketed tight loose) (orderly : checker.table.Orderly)
    (above : checker.strict ≤ tight) (below : loose ≤ checker.strict)
    (inside : source.index < checker.table.size ∧ target.index < checker.table.size) :
    ∃ answer, checker.answerTo source target = .ok answer ∧ checker.table.Allows tight loose source target answer := by
  obtain ⟨answer, grown, settles⟩ := TypeTable.exists_settles orderly.numbered orderly.grounded.closed
    (.fits source target) checker.memo inside
  have allows := (settles.right_below orderly.numbered orderly.grounded (TypeTable.handsOn_between above below)
    (Nat.lt_succ_self _) fun _ _ _ _ found => bracketed.allows found).1
  exact ⟨answer, answerTo_eq_ok_iff.mpr ⟨_, fits_eq_ok_iff.mpr ⟨grown, settles, rfl⟩⟩, allows⟩

/-- The treatment of `null` stays as it is, or is chosen before the first question. -/
theorem OrderlyStep.strict_or_unasked (step : OrderlyStep before after) :
    after.strict = before.strict ∨ after.memo = .empty := by
  cases step with
  | chosen strict unasked => exact Or.inr unasked
  | built there built =>
    rw [(build_eq_ok built).2]
    exact Or.inl rfl
  | bound node type => exact Or.inl rfl
  | asked asked =>
    rw [asked.eq]
    exact Or.inl rfl

/-- A step under a treatment between two others keeps the answers between them. -/
theorem OrderlyStep.bracketed (step : OrderlyStep before after) (bracketed : before.Bracketed tight loose)
    (orderly : before.table.Orderly) (above : before.strict ≤ tight) (below : loose ≤ before.strict) :
    after.Bracketed tight loose := by
  cases step with
  | chosen strict unasked => exact bracketed_of_memo_empty unasked
  | built there built =>
    have growth := extends_of_orderly (.single (.built there built))
    rw [(build_eq_ok built).2]
    exact bracketed.grow orderly growth
  | bound node type => exact ⟨bracketed.inside, bracketed.allows⟩
  | asked asked => exact bracketed.asked orderly above below asked

/-- Whatever is switched in between, all answers lie between those under the check and those without it. -/
theorem UsedOrderly.bracketed (used : checker.UsedOrderly) : checker.Bracketed true false := by
  induction used with
  | refl => exact bracketed_of_memo_empty rfl
  | tail used use ih =>
    cases use with
    | switched => exact ⟨ih.inside, ih.allows⟩
    | step step => exact step.bracketed ih (UsedOrderly.orderly used) (Bool.le_true _) (Bool.false_le _)

/-- Where what is remembered is right for the treatment of the checker, it stays right for it. -/
theorem Bracketed.history (used : checker.UsedOrderly) (right : checker.Bracketed checker.strict checker.strict)
    (history : ReflTransGen OrderlyStep checker later) : later.Bracketed later.strict later.strict := by
  induction history with
  | refl => exact right
  | tail past step ih =>
    rcases step.strict_or_unasked with same | unasked
    · rw [same]
      exact step.bracketed ih (used.history past).orderly (le_refl _) (le_refl _)
    · exact bracketed_of_memo_empty unasked

/-- After any orderly uses, with any switches between them: a switch is honoured exactly when every answer that
is remembered is the one that a checker gives which has treated `null` in the new way from the start. And every
question about types of the table is answered, with yes where a checker says so that has always checked for
`null`, and only where a checker says so that has never done it; so pairs on which these agree are never
answered wrongly. -/
theorem switch_honoured_iff (used : checker.UsedOrderly) (strict : Bool) :
    (checker.SwitchHonoured strict ↔ ∀ source target answer, checker.memo.find? source target = some answer →
      (checker.unasked strict).answerTo source target = .ok answer) ∧
    (∀ always, (checker.unasked always).ReachedOrderly) ∧
    ∀ source target : TypeId, source.index < checker.table.size → target.index < checker.table.size →
      ∃ answer, checker.answerTo source target = .ok answer ∧
        ((checker.unasked true).answerTo source target = .ok true → answer = true) ∧
        (answer = true → (checker.unasked false).answerTo source target = .ok true) := by
  have bracketed := used.bracketed
  refine ⟨⟨?_, ?_⟩, used.unasked, ?_⟩
  · intro honoured source target answer found
    obtain ⟨inSource, inTarget⟩ := bracketed.inside found
    rw [← honoured _ .refl rfl (checker.unasked strict) (used.unasked strict) rfl rfl source target inSource inTarget]
    by_cases equal : source = target
    · subst equal
      rw [(bracketed.allows found).1 (TypeTable.structurallyFits_self source)]
      exact answerTo_self _ source
    · exact answerTo_of_remembered equal found
  · intro remembered later history mode other reached table mode' source target inSource inTarget
    have usedSwitched : (checker.withStrict strict).UsedOrderly := used.tail (.switched checker strict)
    have right : (checker.withStrict strict).Bracketed strict strict := by
      refine ⟨bracketed.inside, ?_⟩
      intro s t answer found
      have iff : answer = true ↔ checker.table.StructurallyFits strict s t := by
        rw [← used.unasked_answer_iff strict, remembered s t answer found, Except.ok.injEq]
      exact ⟨iff.mpr, iff.mp⟩
    have rightLater := Bracketed.history usedSwitched right history
    have orderly := (usedSwitched.history history).orderly
    obtain ⟨answer, answered, granted, supported⟩ :=
      rightLater.exists_answer orderly (le_refl _) (le_refl _) ⟨inSource, inTarget⟩
    obtain ⟨answer', answered', iff⟩ := reached.exists_answer (by rw [table]; exact ⟨inSource, inTarget⟩)
    rw [table, mode', ← mode] at iff
    have equal : answer = true ↔ answer' = true :=
      ⟨fun yes => iff.mpr (supported yes), fun yes => granted (iff.mp yes)⟩
    rw [answered, answered', Bool.eq_iff_iff.mpr equal]
  · intro source target inSource inTarget
    rw [used.unasked_answer_iff, used.unasked_answer_iff]
    exact bracketed.exists_answer used.orderly (Bool.le_true _) (Bool.false_le _) ⟨inSource, inTarget⟩

private theorem fits_initial {strict answer : Bool} {demand : Demand} (apart : source ≠ target)
    (demanded : TypeTable.initial.demandOf strict source target = .ok demand)
    (settled : ∀ memo, TypeTable.initial.Settles strict demand memo answer memo) :
    (initial strict).fits source target = .ok (answer, { initial strict with
      memo := (Memo.empty.record source target true).record source target answer }) :=
  fits_eq_ok_iff.mpr ⟨_, .asked apart (by simp [initial]) demanded (settled _), rfl⟩

/-- No number fits a string under either treatment, so that the answer may be remembered. -/
theorem switch_honoured_iff_number : ∃ asked, (initial false).fits .number .string = .ok (false, asked) ∧
    asked.SwitchHonoured true := by
  have demanded (strict : Bool) : TypeTable.initial.demandOf strict .number .string = .ok .fails := by
    cases strict <;> rfl
  have first := fits_initial (by decide) (demanded false) .fails
  have used : UsedOrderly _ := .single (.step (.asked ⟨_, _, _, first⟩))
  refine ⟨_, first, (switch_honoured_iff used true).1.mpr ?_⟩
  intro source target answer found
  simp only [Memo.find?_record] at found
  split at found
  · next pair =>
    obtain ⟨rfl, rfl⟩ := pair
    cases found
    exact answerTo_eq_ok_iff.mpr ⟨_, fits_initial (by decide) (demanded true) .fails⟩
  · simp at found

/-- A checker that does not check for `null` and was asked whether it fits a string. -/
def askedNull : Checker :=
  { initial false with memo := (Memo.empty.record .null .string true).record .null .string true }

/-- It finds `null` to fit the string, and still does so when it checks for `null` from then on; a checker that has
always checked for it says no. -/
theorem not_switchHonoured_null : (initial false).fits .null .string = .ok (true, askedNull) ∧
    askedNull.ReachedOrderly ∧ (askedNull.withStrict true).answerTo .null .string = .ok true ∧
    (askedNull.unasked true).ReachedOrderly ∧ (askedNull.unasked true).answerTo .null .string = .ok false ∧
    ¬ askedNull.SwitchHonoured true := by
  have granted : TypeTable.initial.demandOf false .null .string = .ok .holds := rfl
  have denied : TypeTable.initial.demandOf true .null .string = .ok .fails := rfl
  have first : (initial false).fits .null .string = .ok (true, askedNull) := fits_initial (by decide) granted .holds
  have still : (askedNull.withStrict true).answerTo .null .string = .ok true :=
    answerTo_of_remembered (by decide) (by simp [withStrict, askedNull, Memo.find?_record])
  have refused : (askedNull.unasked true).answerTo .null .string = .ok false :=
    answerTo_eq_ok_iff.mpr ⟨_, fits_initial (by decide) denied .fails⟩
  have start : (askedNull.unasked true).ReachedOrderly := .single (.chosen true rfl)
  refine ⟨first, .single (.asked ⟨_, _, _, first⟩), still, start, refused, ?_⟩
  intro honoured
  have same := honoured _ .refl rfl _ start rfl rfl .null .string (by decide) (by decide)
  rw [refused] at same
  cases still.symm.trans same

end Checker

end ExportLint
