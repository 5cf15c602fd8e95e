import ExportLint.Proofs.RepeatedRuns

/-!
# Nested questions

Which questions are asked while another one is being answered, and over which memo. Neither the types
nor their numbers get smaller on the way inside. What gets smaller is the number of pairs without an
answer: a question that is not answered at once leaves its provisional yes to all questions inside it.
So no chain of questions inside each other opens a pair twice, and a checker answers every question
about types of a closed table, whatever it remembers.
-/

namespace ExportLint

open Relation (ReflTransGen TransGen)

/-- A question whether one type fits another, with what is remembered when it is asked. -/
structure Question where
  source : TypeId
  target : TypeId
  memo : Memo

namespace Question

/-- The two types of a question. -/
def pair (question : Question) : TypeId × TypeId :=
  (question.source, question.target)

/-- Whether a question has to be settled by its demand: the types are two, and nothing is remembered. -/
def Opened (question : Question) : Prop :=
  question.source ≠ question.target ∧ question.memo.find? question.source question.target = none

end Question

namespace TypeTable

/-- Whether the question is asked while a demand is settled over a memo, as one of the demand itself. -/
inductive Meets (table : TypeTable) (strict : Bool) (question : Question) : Demand → Memo → Prop
  | here : Meets table strict question (.fits question.source question.target) question.memo
  | bothFirst {first second : Demand} {memo : Memo} (met : Meets table strict question first memo) :
    Meets table strict question (.both first second) memo
  | bothSecond {first second : Demand} {memo middle : Memo}
    (left : table.settle strict first memo = .ok (true, middle)) (met : Meets table strict question second middle) :
    Meets table strict question (.both first second) memo
  | eitherFirst {first second : Demand} {memo : Memo} (met : Meets table strict question first memo) :
    Meets table strict question (.either first second) memo
  | eitherSecond {first second : Demand} {memo middle : Memo}
    (left : table.settle strict first memo = .ok (false, middle)) (met : Meets table strict question second middle) :
    Meets table strict question (.either first second) memo

/-- Whether the inner question is asked directly inside the outer one: the outer one is opened, and the
inner one is asked while its demand is settled over its provisional yes. -/
def Nests (table : TypeTable) (strict : Bool) (outer inner : Question) : Prop :=
  outer.Opened ∧ ∃ demand, table.demandOf strict outer.source outer.target = .ok demand ∧
    table.Meets strict inner demand (outer.memo.record outer.source outer.target true)

variable {table : TypeTable} {strict : Bool} {question outer inner : Question} {demand : Demand}
  {memo grown : Memo} {answer : Bool} {source target : TypeId}

/-! ### On the way inside -/

theorem Meets.keeps {s t : TypeId} {known : Bool} (meets : table.Meets strict question demand memo)
    (found : memo.find? s t = some known) : question.memo.find? s t = some known := by
  induction meets with
  | here => exact found
  | bothFirst _ ih => exact ih found
  | bothSecond left _ ih => exact ih ((settle_eq_ok_iff.mp left).keeps found)
  | eitherFirst _ ih => exact ih found
  | eitherSecond left _ ih => exact ih ((settle_eq_ok_iff.mp left).keeps found)

theorem Meets.undecided_le (meets : table.Meets strict question demand memo) :
    question.memo.undecided table.size ≤ memo.undecided table.size := by
  induction meets with
  | here => exact Nat.le_refl _
  | bothFirst _ ih => exact ih
  | bothSecond left _ ih => exact Nat.le_trans ih (undecided_le_of_settle left)
  | eitherFirst _ ih => exact ih
  | eitherSecond left _ ih => exact Nat.le_trans ih (undecided_le_of_settle left)

/-- What is remembered when a question is asked is still remembered in the questions inside it. -/
theorem Nests.keeps {s t : TypeId} {known : Bool} (nests : table.Nests strict outer inner)
    (found : outer.memo.find? s t = some known) : inner.memo.find? s t = some known := by
  obtain ⟨⟨_, unknown⟩, demand, _, meets⟩ := nests
  apply meets.keeps
  have other : ¬ (s = outer.source ∧ t = outer.target) := by
    rintro ⟨rfl, rfl⟩
    simp [unknown] at found
  rw [Memo.find?_record, if_neg other, found]

/-- A question inside another one finds the provisional yes of that one. -/
theorem Nests.provisional (nests : table.Nests strict outer inner) :
    inner.memo.find? outer.source outer.target = some true := by
  obtain ⟨_, demand, _, meets⟩ := nests
  apply meets.keeps
  rw [Memo.find?_record, if_pos ⟨rfl, rfl⟩]

/-- With every step inside there are fewer pairs without an answer. -/
theorem Nests.undecided_lt (nests : table.Nests strict outer inner) :
    inner.memo.undecided table.size < outer.memo.undecided table.size := by
  obtain ⟨⟨_, unknown⟩, demand, demanded, meets⟩ := nests
  calc
    inner.memo.undecided table.size
      ≤ (outer.memo.record outer.source outer.target true).undecided table.size := meets.undecided_le
    _ < outer.memo.undecided table.size := Memo.undecided_record_lt true unknown (index_lt_of_demandOf demanded)

theorem wellFounded_nests (table : TypeTable) (strict : Bool) :
    WellFounded fun inner outer => table.Nests strict outer inner := by
  refine Subrelation.wf ?_ (measure fun question : Question => question.memo.undecided table.size).wf
  intro inner outer nests
  exact nests.undecided_lt

/-! ### Chains of questions -/

/-- However deep it lies inside another one, a question finds the provisional yes of that one. -/
theorem provisional_of_transGen (inside : TransGen (table.Nests strict) outer inner) :
    inner.memo.find? outer.source outer.target = some true := by
  induction inside with
  | single nests => exact nests.provisional
  | tail _ nests ih => exact nests.keeps ih

/-- Along a chain of questions inside each other no pair of types is opened twice. -/
theorem nodup_of_chain {questions : List Question} (chain : questions.IsChain (table.Nests strict))
    (opened : ∀ question ∈ questions, question.Opened) : (questions.map Question.pair).Nodup := by
  have inside : questions.Pairwise (TransGen (table.Nests strict)) :=
    List.isChain_iff_pairwise.mp (chain.imp fun _ _ => TransGen.single)
  refine List.pairwise_map.mpr (inside.imp_of_mem ?_)
  intro outer inner _ mem inside same
  have unknown := (opened inner mem).2
  have found := provisional_of_transGen inside
  simp only [Question.pair, Prod.mk.injEq] at same
  rw [same.1, same.2, unknown] at found
  simp at found

/-- A chain of questions inside each other is no longer than the number of pairs without an answer. -/
theorem length_le_of_chain {questions : List Question}
    (chain : (question :: questions).IsChain (table.Nests strict)) :
    questions.length ≤ question.memo.undecided table.size := by
  induction questions generalizing question with
  | nil => simp
  | cons next rest ih =>
    obtain ⟨nests, chain⟩ := List.isChain_cons_cons.mp chain
    have fewer := nests.undecided_lt
    have := ih chain
    simp only [List.length_cons]
    omega

/-! ### What a run opens -/

/-- A question that is asked while a demand is settled is answered then, and all answers that are
remembered after it are remembered in the end. -/
theorem Meets.exists_settles (meets : table.Meets strict question demand memo)
    (settles : table.Settles strict demand memo answer grown) : ∃ answer' grown',
      table.Settles strict (.fits question.source question.target) question.memo answer' grown' ∧
        ∀ s t known, grown'.find? s t = some known → grown.find? s t = some known := by
  induction meets generalizing answer grown with
  | here => exact ⟨answer, grown, settles, fun _ _ _ => id⟩
  | bothFirst _ ih =>
    cases settles with
    | bothFirst left => exact ih left
    | bothSecond left right =>
      obtain ⟨answer', grown', inner, kept⟩ := ih left
      exact ⟨answer', grown', inner, fun s t known found => right.keeps (kept s t known found)⟩
  | bothSecond left _ ih =>
    cases settles with
    | bothFirst left' => cases left.symm.trans (settle_eq_ok_iff.mpr left')
    | bothSecond left' right =>
      cases left.symm.trans (settle_eq_ok_iff.mpr left')
      exact ih right
  | eitherFirst _ ih =>
    cases settles with
    | eitherFirst left => exact ih left
    | eitherSecond left right =>
      obtain ⟨answer', grown', inner, kept⟩ := ih left
      exact ⟨answer', grown', inner, fun s t known found => right.keeps (kept s t known found)⟩
  | eitherSecond left _ ih =>
    cases settles with
    | eitherFirst left' => cases left.symm.trans (settle_eq_ok_iff.mpr left')
    | eitherSecond left' right =>
      cases left.symm.trans (settle_eq_ok_iff.mpr left')
      exact ih right

/-- A question inside another one is answered while the other one is, and stays answered. -/
theorem Nests.exists_settles (nests : table.Nests strict outer inner)
    (settles : table.Settles strict (.fits outer.source outer.target) outer.memo answer grown) : ∃ answer' grown',
      table.Settles strict (.fits inner.source inner.target) inner.memo answer' grown' ∧
        ∀ s t known, grown'.find? s t = some known → ∃ later, grown.find? s t = some later := by
  obtain ⟨source, target, memo⟩ := outer
  obtain ⟨⟨apart, unknown⟩, demand, demanded, meets⟩ := nests
  cases settles with
  | same => exact absurd rfl apart
  | remembered _ found => simp [unknown] at found
  | @asked _ _ _ middle demand' _ _ _ demanded' settled =>
    cases demanded.symm.trans demanded'
    obtain ⟨answer', grown', inner, kept⟩ := meets.exists_settles settled
    refine ⟨answer', grown', inner, ?_⟩
    intro s t known found
    rw [Memo.find?_record]
    split
    · exact ⟨_, rfl⟩
    · exact ⟨known, kept s t known found⟩

/-- Every pair that is opened inside a question has an answer in the end. -/
theorem exists_answer_of_opened (inside : ReflTransGen (table.Nests strict) outer inner) (opened : inner.Opened)
    (settles : table.Settles strict (.fits outer.source outer.target) outer.memo answer grown) :
    ∃ known, grown.find? inner.source inner.target = some known := by
  induction inside using ReflTransGen.head_induction_on generalizing answer grown with
  | refl => exact ⟨answer, settles.find?_eq opened.1⟩
  | head nests _ ih =>
    obtain ⟨answer', grown', inner, kept⟩ := nests.exists_settles settles
    obtain ⟨known, found⟩ := ih inner
    exact kept _ _ known found

/-- Every pair that gets its first answer while a demand is settled is opened by a question of the
demand or by a question inside one of those. -/
theorem Settles.exists_opened {s t : TypeId} {known : Bool} (settles : table.Settles strict demand memo answer grown)
    (unknown : memo.find? s t = none) (found : grown.find? s t = some known) : ∃ outer inner : Question,
      table.Meets strict outer demand memo ∧ ReflTransGen (table.Nests strict) outer inner ∧ inner.Opened ∧
        inner.pair = (s, t) := by
  induction settles generalizing known with
  | holds memo => simp [unknown] at found
  | fails memo => simp [unknown] at found
  | same id memo => simp [unknown] at found
  | remembered _ _ => simp [unknown] at found
  | @asked source target memo grown demand answer apart free demanded _ ih =>
    have root : (⟨source, target, memo⟩ : Question).Opened := ⟨apart, free⟩
    by_cases here : s = source ∧ t = target
    · obtain ⟨rfl, rfl⟩ := here
      exact ⟨⟨s, t, memo⟩, _, .here, .refl, root, rfl⟩
    · rw [Memo.find?_record, if_neg here] at found
      have unknown' : (memo.record source target true).find? s t = none := by
        rw [Memo.find?_record, if_neg here, unknown]
      obtain ⟨outer, inner, meets, inside, opened, same⟩ := ih unknown' found
      exact ⟨⟨source, target, memo⟩, inner, .here, .head ⟨root, demand, demanded, meets⟩ inside, opened, same⟩
  | bothFirst _ ih =>
    obtain ⟨outer, inner, meets, rest⟩ := ih unknown found
    exact ⟨outer, inner, .bothFirst meets, rest⟩
  | @bothSecond first second memo middle grown answer left right ihLeft ihRight =>
    match known : middle.find? s t with
    | some _ =>
      obtain ⟨outer, inner, meets, rest⟩ := ihLeft unknown known
      exact ⟨outer, inner, .bothFirst meets, rest⟩
    | none =>
      obtain ⟨outer, inner, meets, rest⟩ := ihRight known found
      exact ⟨outer, inner, .bothSecond (settle_eq_ok_iff.mpr left) meets, rest⟩
  | eitherFirst _ ih =>
    obtain ⟨outer, inner, meets, rest⟩ := ih unknown found
    exact ⟨outer, inner, .eitherFirst meets, rest⟩
  | @eitherSecond first second memo middle grown answer left right ihLeft ihRight =>
    match known : middle.find? s t with
    | some _ =>
      obtain ⟨outer, inner, meets, rest⟩ := ihLeft unknown known
      exact ⟨outer, inner, .eitherFirst meets, rest⟩
    | none =>
      obtain ⟨outer, inner, meets, rest⟩ := ihRight known found
      exact ⟨outer, inner, .eitherSecond (settle_eq_ok_iff.mpr left) meets, rest⟩

/-- The pairs that get their first answer while a question is answered are those that are opened by it
or by a question inside it. -/
theorem Settles.exists_answer_iff {s t : TypeId}
    (settles : table.Settles strict (.fits source target) memo answer grown) :
    (∃ known, grown.find? s t = some known) ↔ (∃ known, memo.find? s t = some known) ∨
      ∃ inner : Question, ReflTransGen (table.Nests strict) ⟨source, target, memo⟩ inner ∧ inner.Opened ∧
        inner.pair = (s, t) := by
  constructor
  · rintro ⟨known, found⟩
    match unknown : memo.find? s t with
    | some old => exact Or.inl ⟨old, rfl⟩
    | none =>
      obtain ⟨outer, inner, meets, inside, opened, same⟩ := settles.exists_opened unknown found
      cases meets
      exact Or.inr ⟨inner, inside, opened, same⟩
  · rintro (⟨known, found⟩ | ⟨inner, inside, opened, same⟩)
    · exact ⟨known, settles.keeps found⟩
    · cases same
      exact exists_answer_of_opened inside opened settles

end TypeTable

namespace Checker

variable {checker : Checker}

/-- Whatever a checker remembers and however its types contain each other: every question about types
of a closed table is answered. Questions lie inside each other only to a depth that is bounded by the
number of pairs without an answer; in a chain of them no pair is opened twice; and the pairs that are
opened are those that have an answer afterwards and had none before. -/
theorem every_question_ends (used : checker.Used) (closed : checker.table.Closed) (strict : Bool) (memo : Memo) :
    (∀ source target : TypeId, source.index < checker.table.size → target.index < checker.table.size →
      ∃ answer after, ({ checker with strict, memo } : Checker).fits source target = .ok (answer, after) ∧
        ∀ s t : TypeId, (∃ known, after.memo.find? s t = some known) ↔ (∃ known, memo.find? s t = some known) ∨
          ∃ inner : Question, ReflTransGen (checker.table.Nests strict) ⟨source, target, memo⟩ inner ∧
            inner.Opened ∧ inner.pair = (s, t)) ∧
    (WellFounded fun inner outer => checker.table.Nests strict outer inner) ∧
    ∀ (first : Question) (rest : List Question), (first :: rest).IsChain (checker.table.Nests strict) →
      rest.length ≤ first.memo.undecided checker.table.size ∧
      ((∀ question ∈ first :: rest, question.Opened) → ((first :: rest).map Question.pair).Nodup) := by
  refine ⟨?_, TypeTable.wellFounded_nests checker.table strict, ?_⟩
  · intro source target inSource inTarget
    have tabled : ({ checker with strict, memo } : Checker).Tabled := ⟨used.tabled.numbered, used.tabled.intrinsic⟩
    obtain ⟨answer, after, fits⟩ := tabled.exists_fits closed ⟨inSource, inTarget⟩
    obtain ⟨grown, settles, same⟩ := fits_eq_ok_iff.mp fits
    refine ⟨answer, after, fits, ?_⟩
    intro s t
    rw [same]
    exact settles.exists_answer_iff
  · intro first rest chain
    exact ⟨TypeTable.length_le_of_chain chain, TypeTable.nodup_of_chain chain⟩

/-- Two records that contain each other, and a checker that remembers something wrong about other types. -/
theorem every_question_ends_crossed :
    let checker : Checker := ofRecords [[("next", ⟨11⟩)], [("next", ⟨10⟩)]]
    let memo := Memo.empty.record .string .number true
    let outer : Question := ⟨⟨10⟩, ⟨11⟩, memo⟩
    let inner : Question := ⟨⟨11⟩, ⟨10⟩, memo.record ⟨10⟩ ⟨11⟩ true⟩
    (∃ answer after, ({ checker with strict := true, memo } : Checker).fits ⟨10⟩ ⟨11⟩ = .ok (answer, after)) ∧
      [outer, inner].IsChain (checker.table.Nests true) ∧ inner.Opened ∧
      [(outer.pair), (inner.pair)].Nodup ∧ 1 ≤ memo.undecided checker.table.size := by
  have demanded : (ofRecords [[("next", ⟨11⟩)], [("next", ⟨10⟩)]]).table.demandOf true ⟨10⟩ ⟨11⟩ =
      .ok (.both (.both (.fits ⟨11⟩ ⟨10⟩) .holds) .holds) := by rfl
  intro checker memo outer inner
  obtain ⟨answers, _, chains⟩ :=
    every_question_ends (reached_ofRecords [[("next", ⟨11⟩)], [("next", ⟨10⟩)]]).used (by decide) true memo
  obtain ⟨answer, after, fits, _⟩ := answers ⟨10⟩ ⟨11⟩ (by decide) (by decide)
  have opened : outer.Opened := ⟨by decide, by simp [outer, memo, Memo.find?_record, TypeId.string]⟩
  have opened' : inner.Opened := ⟨by decide, by simp [inner, memo, Memo.find?_record, TypeId.string]⟩
  have nests : checker.table.Nests true outer inner :=
    ⟨opened, _, demanded, .bothFirst (.bothFirst .here)⟩
  have chain : [outer, inner].IsChain (checker.table.Nests true) := .cons_cons nests (.singleton inner)
  obtain ⟨short, nodup⟩ := chains outer [inner] chain
  refine ⟨⟨answer, after, fits⟩, chain, opened', nodup ?_, short⟩
  simp [opened, opened']

end Checker

end ExportLint
