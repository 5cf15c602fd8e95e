import ExportLint.Proofs.CheckerHistory

/-!
# Answers without a memo

The recursion that a checker shortens by its memo: every smaller question is asked anew. It need not
end where types contain themselves, so it is the limit of recursions that stop at a depth. Where
every type mentions only earlier types it ends, and a checker gives its answers, whatever has been
asked before. The reason is that a question leads to earlier pairs only: while a pair is in progress,
nothing that is asked depends on its provisional yes.
-/

namespace ExportLint

namespace TypeTable

/-- The answer to a demand, given the answers to the questions it asks. -/
def evaluateBy (table : TypeTable) (ask : TypeId → TypeId → ExceptT Fault Option Bool) :
    Demand → ExceptT Fault Option Bool
  | .holds => return true
  | .fails => return false
  | .missing id => throw (table.missing id)
  | .fits source target => ask source target
  | .both first second => do
    if ← table.evaluateBy ask first then table.evaluateBy ask second else return false
  | .either first second => do
    if ← table.evaluateBy ask first then return true else table.evaluateBy ask second

/-- The answer to a question that may lead to further questions down to some depth. There is no
outcome where they lead deeper. -/
def askWithin (table : TypeTable) (strict : Bool) : Nat → TypeId → TypeId → ExceptT Fault Option Bool
  | 0, _, _ => ExceptT.mk none
  | depth + 1, source, target =>
    if source = target then return true
    else do table.evaluateBy (table.askWithin strict depth) (← liftExcept (table.demandOf strict source target))

open Classical in
/-- The answer to a demand when nothing is remembered: the outcome at the first depth that has one.
There is no outcome if the questions go on for ever. -/
noncomputable def evaluate (table : TypeTable) (strict : Bool) (demand : Demand) : ExceptT Fault Option Bool :=
  if ends : ∃ depth, (table.evaluateBy (table.askWithin strict depth) demand).run.isSome then
    table.evaluateBy (table.askWithin strict (Nat.find ends)) demand
  else ExceptT.mk none

variable {table : TypeTable} {strict : Bool} {demand first second : Demand} {source target : TypeId}
  {memo grown : Memo} {answer : Bool} {bound : Nat} {outcome : Except Fault Bool}

/-! ### The recursion as a limit of its depths -/

theorem run_bind_eq_some_iff {asked : ExceptT Fault Option Bool} {next : Bool → ExceptT Fault Option Bool} :
    (asked >>= next).run = some outcome ↔
      (∃ answer, asked.run = some (.ok answer) ∧ (next answer).run = some outcome) ∨
      ∃ fault, asked.run = some (.error fault) ∧ outcome = .error fault := by
  rw [ExceptT.run_bind]
  rcases asked.run with - | fault | answer
  · simp
  · simp [eq_comm]
  · simp

/-- An outcome depends on answered questions only. -/
theorem evaluateBy_mono {ask more : TypeId → TypeId → ExceptT Fault Option Bool}
    (agrees : ∀ s t outcome, (ask s t).run = some outcome → (more s t).run = some outcome)
    (ends : (table.evaluateBy ask demand).run = some outcome) :
    (table.evaluateBy more demand).run = some outcome := by
  induction demand generalizing outcome with
  | holds | fails | missing => exact ends
  | fits source target => exact agrees source target outcome ends
  | both first second ihFirst ihSecond =>
    rw [evaluateBy, run_bind_eq_some_iff] at ends ⊢
    rcases ends with ⟨_ | _, left, rest⟩ | ⟨fault, left, same⟩
    · exact Or.inl ⟨false, ihFirst left, rest⟩
    · exact Or.inl ⟨true, ihFirst left, ihSecond rest⟩
    · exact Or.inr ⟨fault, ihFirst left, same⟩
  | either first second ihFirst ihSecond =>
    rw [evaluateBy, run_bind_eq_some_iff] at ends ⊢
    rcases ends with ⟨_ | _, left, rest⟩ | ⟨fault, left, same⟩
    · exact Or.inl ⟨false, ihFirst left, ihSecond rest⟩
    · exact Or.inl ⟨true, ihFirst left, rest⟩
    · exact Or.inr ⟨fault, ihFirst left, same⟩

theorem askWithin_succ {depth : Nat} (ends : (table.askWithin strict depth source target).run = some outcome) :
    (table.askWithin strict (depth + 1) source target).run = some outcome := by
  induction depth generalizing source target outcome with
  | zero => cases ends
  | succ depth ih =>
    rw [askWithin] at ends ⊢
    by_cases same : source = target
    · rw [if_pos same] at ends ⊢
      exact ends
    · rw [if_neg same] at ends ⊢
      cases demanded : table.demandOf strict source target with
      | error fault => rw [demanded] at ends; exact ends
      | ok demand =>
        rw [demanded] at ends
        exact evaluateBy_mono (fun _ _ _ => ih) ends

theorem askWithin_mono {small depth : Nat} (le : small ≤ depth)
    (ends : (table.askWithin strict small source target).run = some outcome) :
    (table.askWithin strict depth source target).run = some outcome := by
  induction le with
  | refl => exact ends
  | step _ ih => exact askWithin_succ ih

theorem evaluateBy_askWithin_mono {small depth : Nat} (le : small ≤ depth)
    (ended : (table.evaluateBy (table.askWithin strict small) demand).run = some outcome) :
    (table.evaluateBy (table.askWithin strict depth) demand).run = some outcome :=
  evaluateBy_mono (fun _ _ _ => askWithin_mono le) ended

theorem evaluate_eq_some_iff : (table.evaluate strict demand).run = some outcome ↔
    ∃ depth, (table.evaluateBy (table.askWithin strict depth) demand).run = some outcome := by
  classical
  constructor
  · intro ended
    unfold evaluate at ended
    split at ended
    · exact ⟨_, ended⟩
    · cases ended
  · rintro ⟨depth, ended⟩
    have ends : ∃ depth, (table.evaluateBy (table.askWithin strict depth) demand).run.isSome :=
      ⟨depth, by rw [ended]; rfl⟩
    rw [evaluate, dif_pos ends]
    obtain ⟨first, found⟩ := Option.isSome_iff_exists.mp (Nat.find_spec ends)
    have early : Nat.find ends ≤ depth := Nat.find_min' ends (by rw [ended]; rfl)
    rw [found, ← evaluateBy_askWithin_mono early found, ended]

/-- The recursion: every question of a demand is answered in the same way. -/
theorem evaluate_eq : table.evaluate strict demand =
    table.evaluateBy (fun source target => table.evaluate strict (.fits source target)) demand := by
  refine Option.ext fun outcome => evaluate_eq_some_iff.trans ⟨?_, fun ends => ?_⟩
  · rintro ⟨depth, ended⟩
    exact evaluateBy_mono (fun _ _ _ answered => evaluate_eq_some_iff.mpr ⟨depth, answered⟩) ended
  -- a demand asks finitely many questions, so the deepest of their depths is enough for it
  induction demand generalizing outcome with
  | holds | fails | missing => exact ⟨0, ends⟩
  | fits source target => exact evaluate_eq_some_iff.mp ends
  | both first second ihFirst ihSecond =>
    simp only [evaluateBy] at ends ⊢
    rcases run_bind_eq_some_iff.mp ends with ⟨_ | _, left, rest⟩ | ⟨fault, left, same⟩ <;>
      obtain ⟨depth, left⟩ := ihFirst _ left
    · exact ⟨depth, run_bind_eq_some_iff.mpr (Or.inl ⟨false, left, rest⟩)⟩
    · obtain ⟨deep, right⟩ := ihSecond _ rest
      exact ⟨max depth deep, run_bind_eq_some_iff.mpr (Or.inl ⟨true,
        evaluateBy_askWithin_mono (Nat.le_max_left ..) left, evaluateBy_askWithin_mono (Nat.le_max_right ..) right⟩)⟩
    · exact ⟨depth, run_bind_eq_some_iff.mpr (Or.inr ⟨fault, left, same⟩)⟩
  | either first second ihFirst ihSecond =>
    simp only [evaluateBy] at ends ⊢
    rcases run_bind_eq_some_iff.mp ends with ⟨_ | _, left, rest⟩ | ⟨fault, left, same⟩ <;>
      obtain ⟨depth, left⟩ := ihFirst _ left
    · obtain ⟨deep, right⟩ := ihSecond _ rest
      exact ⟨max depth deep, run_bind_eq_some_iff.mpr (Or.inl ⟨false,
        evaluateBy_askWithin_mono (Nat.le_max_left ..) left, evaluateBy_askWithin_mono (Nat.le_max_right ..) right⟩)⟩
    · exact ⟨depth, run_bind_eq_some_iff.mpr (Or.inl ⟨true, left, rest⟩)⟩
    · exact ⟨depth, run_bind_eq_some_iff.mpr (Or.inr ⟨fault, left, same⟩)⟩

/-! ### The cases of the recursion -/

theorem evaluate_holds : table.evaluate strict .holds = pure true :=
  evaluate_eq

theorem evaluate_fails : table.evaluate strict .fails = pure false :=
  evaluate_eq

theorem evaluate_missing (id : TypeId) : table.evaluate strict (.missing id) = throw (table.missing id) :=
  evaluate_eq

theorem evaluate_fits : table.evaluate strict (.fits source target) =
    if source = target then pure true
    else liftExcept (table.demandOf strict source target) >>= table.evaluate strict := by
  refine Option.ext fun outcome => evaluate_eq_some_iff.trans ⟨?_, fun ended => ?_⟩
  · rintro ⟨_ | depth, ended⟩
    · cases ended
    rw [evaluateBy, askWithin] at ended
    by_cases same : source = target
    · rw [if_pos same] at ended ⊢
      exact ended
    · rw [if_neg same] at ended ⊢
      cases demanded : table.demandOf strict source target with
      | error fault => rw [demanded] at ended; exact ended
      | ok demand =>
        rw [demanded] at ended
        exact evaluate_eq_some_iff.mpr ⟨depth, ended⟩
  · by_cases same : source = target
    · rw [if_pos same] at ended
      exact ⟨1, by rw [evaluateBy, askWithin, if_pos same]; exact ended⟩
    · rw [if_neg same] at ended
      cases demanded : table.demandOf strict source target with
      | error fault =>
        rw [demanded] at ended
        exact ⟨1, by rw [evaluateBy, askWithin, if_neg same, demanded]; exact ended⟩
      | ok demand =>
        rw [demanded] at ended
        obtain ⟨depth, ended⟩ := evaluate_eq_some_iff.mp ended
        exact ⟨depth + 1, by rw [evaluateBy, askWithin, if_neg same, demanded]; exact ended⟩

theorem evaluate_both : table.evaluate strict (.both first second) =
    table.evaluate strict first >>= fun holds => if holds then table.evaluate strict second else pure false := by
  rw [evaluate_eq, evaluateBy, ← evaluate_eq, ← evaluate_eq]

theorem evaluate_either : table.evaluate strict (.either first second) =
    table.evaluate strict first >>= fun holds => if holds then pure true else table.evaluate strict second := by
  rw [evaluate_eq, evaluateBy, ← evaluate_eq, ← evaluate_eq]

theorem evaluate_same (id : TypeId) : table.evaluate strict (.fits id id) = pure true := by
  rw [evaluate_fits, if_pos rfl]

theorem evaluate_asked (apart : source ≠ target) (demanded : table.demandOf strict source target = .ok demand) :
    table.evaluate strict (.fits source target) = table.evaluate strict demand := by
  rw [evaluate_fits, if_neg apart, demanded]
  rfl

theorem evaluate_bothFirst (left : table.evaluate strict first = pure false) :
    table.evaluate strict (.both first second) = pure false := by
  rw [evaluate_both, left]
  rfl

theorem evaluate_bothSecond (left : table.evaluate strict first = pure true) :
    table.evaluate strict (.both first second) = table.evaluate strict second := by
  rw [evaluate_both, left]
  rfl

theorem evaluate_eitherFirst (left : table.evaluate strict first = pure true) :
    table.evaluate strict (.either first second) = pure true := by
  rw [evaluate_either, left]
  rfl

theorem evaluate_eitherSecond (left : table.evaluate strict first = pure false) :
    table.evaluate strict (.either first second) = table.evaluate strict second := by
  rw [evaluate_either, left]
  rfl

/-! ### Answers under a memo -/

/-- Whether the answers of a memo to all pairs before a bound are those of the recursion. -/
def RightBelow (table : TypeTable) (strict : Bool) (bound : Nat) (memo : Memo) : Prop :=
  ∀ ⦃source target answer⦄, source.index + target.index < bound → memo.find? source target = some answer →
    table.evaluate strict (.fits source target) = pure answer

theorem RightBelow.mono {small : Nat} (right : table.RightBelow strict bound memo) (le : small ≤ bound) :
    table.RightBelow strict small memo :=
  fun _ _ _ before found => right (Nat.lt_of_lt_of_le before le) found

/-- A run that asks only about pairs before a bound leaves all later pairs as they are. -/
theorem Settles.frame (numbered : table.Numbered) (grounded : table.Grounded)
    (settles : table.Settles strict demand memo answer grown)
    (asks : demand.Asks fun a b => a.index + b.index < bound) {s t : TypeId} (outside : bound ≤ s.index + t.index) :
    grown.find? s t = memo.find? s t := by
  induction settles generalizing bound with
  | holds | fails | same | remembered => rfl
  | @asked source target memo grown demand answer apart unknown demanded _ ih =>
    have here : source.index + target.index < bound := asks
    have other : ¬ (s = source ∧ t = target) := by
      rintro ⟨rfl, rfl⟩
      exact Nat.not_lt.mpr outside here
    rw [Memo.find?_record, if_neg other,
      ih (asks_earlier numbered grounded demanded) (Nat.le_trans (Nat.le_of_lt here) outside),
      Memo.find?_record, if_neg other]
  | bothFirst _ ih => exact ih asks.1 outside
  | bothSecond _ _ ihLeft ihRight => exact (ihRight asks.2 outside).trans (ihLeft asks.1 outside)
  | eitherFirst _ ih => exact ih asks.1 outside
  | eitherSecond _ _ ihLeft ihRight => exact (ihRight asks.2 outside).trans (ihLeft asks.1 outside)

/-- Whether the rules hand a property of answers on: it holds of what they settle, and of the answer to a pair or
to a combined demand if it holds of the answers that this one comes from. -/
structure HandsOn (table : TypeTable) (strict : Bool) (right : Demand → Bool → Prop) : Prop where
  holds : right .holds true
  fails : right .fails false
  same : ∀ id, right (.fits id id) true
  asked : ∀ {source target demand answer}, source ≠ target → table.demandOf strict source target = .ok demand →
    right demand answer → right (.fits source target) answer
  bothFirst : ∀ {first second}, right first false → right (.both first second) false
  bothSecond : ∀ {first second answer}, right first true → right second answer → right (.both first second) answer
  eitherFirst : ∀ {first second}, right first true → right (.either first second) true
  eitherSecond : ∀ {first second answer}, right first false → right second answer → right (.either first second) answer

/-- Where every type mentions only earlier types, a property that the rules hand on holds of the answer of a run
that asks only about pairs before a bound, and of all answers to such pairs that it leaves, if it holds of those
that it finds. -/
theorem Settles.right_below (numbered : table.Numbered) (grounded : table.Grounded) {right : Demand → Bool → Prop}
    (rules : table.HandsOn strict right) (settles : table.Settles strict demand memo answer grown)
    (asks : demand.Asks fun a b => a.index + b.index < bound)
    (found : ∀ ⦃s t known⦄, s.index + t.index < bound → memo.find? s t = some known → right (.fits s t) known) :
    right demand answer ∧
      ∀ ⦃s t known⦄, s.index + t.index < bound → grown.find? s t = some known → right (.fits s t) known := by
  induction settles generalizing bound with
  | holds memo => exact ⟨rules.holds, found⟩
  | fails memo => exact ⟨rules.fails, found⟩
  | same id memo => exact ⟨rules.same id, found⟩
  | remembered apart known => exact ⟨found asks known, found⟩
  | @asked source target memo grown demand answer apart unknown demanded settled ih =>
    have here : source.index + target.index < bound := asks
    have earlier := asks_earlier numbered grounded demanded
    -- the bound of the inner run is the pair in progress, whose provisional yes it never reads
    have provisional : ∀ ⦃s t known⦄, s.index + t.index < source.index + target.index →
        (memo.record source target true).find? s t = some known → right (.fits s t) known := by
      intro s t known before recorded
      rw [Memo.find?_record, if_neg (by rintro ⟨rfl, rfl⟩; exact Nat.lt_irrefl _ before)] at recorded
      exact found (Nat.lt_trans before here) recorded
    obtain ⟨value, inner⟩ := ih earlier provisional
    refine ⟨rules.asked apart demanded value, ?_⟩
    intro s t known before left
    rw [Memo.find?_record] at left
    split at left
    · next pair =>
      obtain ⟨rfl, rfl⟩ := pair
      cases left
      exact rules.asked apart demanded value
    · next other =>
      rcases Nat.lt_or_ge (s.index + t.index) (source.index + target.index) with smaller | outside
      · exact inner smaller left
      · rw [settled.frame numbered grounded earlier outside, Memo.find?_record, if_neg other] at left
        exact found before left
  | bothFirst _ ih =>
    obtain ⟨value, after⟩ := ih asks.1 found
    exact ⟨rules.bothFirst value, after⟩
  | bothSecond _ _ ihLeft ihRight =>
    obtain ⟨left, middle⟩ := ihLeft asks.1 found
    obtain ⟨value, after⟩ := ihRight asks.2 middle
    exact ⟨rules.bothSecond left value, after⟩
  | eitherFirst _ ih =>
    obtain ⟨value, after⟩ := ih asks.1 found
    exact ⟨rules.eitherFirst value, after⟩
  | eitherSecond _ _ ihLeft ihRight =>
    obtain ⟨left, middle⟩ := ihLeft asks.1 found
    obtain ⟨value, after⟩ := ihRight asks.2 middle
    exact ⟨rules.eitherSecond left value, after⟩

/-- The rules hand on that an answer is the one of the recursion. -/
theorem handsOn_evaluate : table.HandsOn strict fun demand answer => table.evaluate strict demand = pure answer where
  holds := evaluate_holds
  fails := evaluate_fails
  same := evaluate_same
  asked apart demanded value := (evaluate_asked apart demanded).trans value
  bothFirst left := evaluate_bothFirst left
  bothSecond left value := (evaluate_bothSecond left).trans value
  eitherFirst left := evaluate_eitherFirst left
  eitherSecond left value := (evaluate_eitherSecond left).trans value

/-- A run that asks only about pairs before a bound gives the answers of the recursion and keeps the memo
right before the bound. -/
theorem Settles.evaluate_eq (numbered : table.Numbered) (grounded : table.Grounded)
    (settles : table.Settles strict demand memo answer grown)
    (asks : demand.Asks fun a b => a.index + b.index < bound) (right : table.RightBelow strict bound memo) :
    table.evaluate strict demand = pure answer ∧ table.RightBelow strict bound grown :=
  settles.right_below numbered grounded handsOn_evaluate asks right

/-- All answers that questions leave in a memo are those of the recursion. -/
theorem Remembers.rightBelow (numbered : table.Numbered) (grounded : table.Grounded)
    (remembers : table.Remembers strict memo) (bound : Nat) : table.RightBelow strict bound memo := by
  induction remembers generalizing bound with
  | nothing => exact fun _ _ _ _ found => by simp at found
  | @asked memo grown source target answer _ settles ih =>
    have asks : (Demand.fits source target).Asks fun a b =>
        a.index + b.index < max bound (source.index + target.index + 1) := by
      simp only [Demand.Asks]
      omega
    exact (settles.evaluate_eq numbered grounded asks (ih _)).2.mono (Nat.le_max_left ..)

end TypeTable

namespace Checker

variable {checker : Checker} {source target : TypeId}

/-- Where every type mentions only earlier types, a checker answers what the recursion answers. -/
theorem Coherent.fits_eq_ok (coherent : checker.Coherent) (grounded : checker.table.Grounded)
    (inside : source.index < checker.table.size ∧ target.index < checker.table.size) :
    ∃ answer after, checker.fits source target = .ok (answer, after) ∧
      checker.table.evaluate checker.strict (.fits source target) = pure answer := by
  obtain ⟨answer, grown, settles⟩ :=
    TypeTable.exists_settles coherent.numbered grounded.closed (.fits source target) checker.memo inside
  have right := coherent.remembers.rightBelow coherent.numbered grounded (source.index + target.index + 1)
  exact ⟨answer, _, fits_eq_ok_iff.mpr ⟨grown, settles, rfl⟩,
    (settles.evaluate_eq coherent.numbered grounded (Nat.lt_succ_self _) right).1⟩

theorem ReachedOrderly.fits_eq_ok (reached : checker.ReachedOrderly)
    (inside : source.index < checker.table.size ∧ target.index < checker.table.size) :
    ∃ answer after, checker.fits source target = .ok (answer, after) ∧
      checker.table.evaluate checker.strict (.fits source target) = pure answer :=
  reached.reached.coherent.fits_eq_ok reached.grounded inside

/-- On types that were built from earlier types the memo cannot be seen: every question about types
of the table is answered with the value of the recursion, so two checkers that know the same types
answer alike, whatever each has been asked before. -/
theorem fits_eq_evaluate (reached : checker.ReachedOrderly)
    (inside : source.index < checker.table.size ∧ target.index < checker.table.size) :
    (∃ answer after, checker.fits source target = .ok (answer, after) ∧
      (checker.table.evaluate checker.strict (.fits source target)).run = some (.ok answer)) ∧
    ∀ other : Checker, other.ReachedOrderly → other.table = checker.table → other.strict = checker.strict →
      other.answerTo source target = checker.answerTo source target := by
  obtain ⟨answer, after, answered, value⟩ := reached.fits_eq_ok inside
  refine ⟨⟨answer, after, answered, congrArg ExceptT.run value⟩, ?_⟩
  intro other otherReached sameTable sameStrict
  obtain ⟨answer', after', answered', value'⟩ := otherReached.fits_eq_ok (by rw [sameTable]; exact inside)
  rw [sameTable, sameStrict, value] at value'
  have same : answer = answer' := by
    have := congrArg ExceptT.run value'
    cases this
    rfl
  rw [answerTo_eq_ok_iff.mpr ⟨after, answered⟩, answerTo_eq_ok_iff.mpr ⟨after', answered'⟩, same]

theorem fits_eq_evaluate_records :
    let wide := TypeTable.initial.push TypeFlags.object (.object (.ofList [("x", .number), ("y", .string)]) [])
    let both := wide.push TypeFlags.object (.object (.ofList [("x", .number)]) [])
    let checker : Checker := { table := both, strict := true }
    (∃ answer after, checker.fits ⟨10⟩ ⟨11⟩ = .ok (answer, after) ∧
      (both.evaluate true (.fits ⟨10⟩ ⟨11⟩)).run = some (.ok answer)) ∧
    ∀ other : Checker, other.ReachedOrderly → other.table = both → other.strict = true →
      other.answerTo ⟨10⟩ ⟨11⟩ = checker.answerTo ⟨10⟩ ⟨11⟩ := by
  intro wide both checker
  have strict : ((initial false).withStrict true).ReachedOrderly := .single (.chosen true rfl)
  have first : ({ table := wide, strict := true } : Checker).ReachedOrderly :=
    strict.tail (.built (by decide : ∀ part ∈ (Blueprint.object [("x", .number), ("y", .string)]).parts, _) rfl)
  have second : checker.ReachedOrderly :=
    first.tail (.built (by decide : ∀ part ∈ (Blueprint.object [("x", .number)]).parts, _) rfl)
  exact fits_eq_evaluate second (by decide)

end Checker

end ExportLint
