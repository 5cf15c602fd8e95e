import ExportLint.Proofs.Demands
import ExportLint.Types.Settling

/-!
# Settling as a relation

The steps by which `settle` comes to an answer, one rule for each way to settle a demand. What a run
of questions does to the memo is proved by induction on these rules: answers are never lost, a
question leaves its own answer behind, a yes is supported by the answers that were given for it, and
a table that grows settles as before. In a closed table every question is settled.
-/

namespace ExportLint.TypeTable

/-- How a demand is settled over a memo: with which answer, and with which memo after it. -/
inductive Settles (table : TypeTable) (strict : Bool) : Demand → Memo → Bool → Memo → Prop
  | holds (memo : Memo) : Settles table strict .holds memo true memo
  | fails (memo : Memo) : Settles table strict .fails memo false memo
  | same (id : TypeId) (memo : Memo) : Settles table strict (.fits id id) memo true memo
  | remembered {source target : TypeId} {memo : Memo} {answer : Bool} (apart : source ≠ target)
    (found : memo.find? source target = some answer) :
    Settles table strict (.fits source target) memo answer memo
  | asked {source target : TypeId} {memo grown : Memo} {demand : Demand} {answer : Bool} (apart : source ≠ target)
    (unknown : memo.find? source target = none) (demanded : table.demandOf strict source target = .ok demand)
    (settled : Settles table strict demand (memo.record source target true) answer grown) :
    Settles table strict (.fits source target) memo answer (grown.record source target answer)
  | bothFirst {first second : Demand} {memo grown : Memo} (left : Settles table strict first memo false grown) :
    Settles table strict (.both first second) memo false grown
  | bothSecond {first second : Demand} {memo middle grown : Memo} {answer : Bool}
    (left : Settles table strict first memo true middle) (right : Settles table strict second middle answer grown) :
    Settles table strict (.both first second) memo answer grown
  | eitherFirst {first second : Demand} {memo grown : Memo} (left : Settles table strict first memo true grown) :
    Settles table strict (.either first second) memo true grown
  | eitherSecond {first second : Demand} {memo middle grown : Memo} {answer : Bool}
    (left : Settles table strict first memo false middle)
    (right : Settles table strict second middle answer grown) :
    Settles table strict (.either first second) memo answer grown

variable {table later : TypeTable} {strict : Bool} {demand first second : Demand} {source target : TypeId}
  {memo grown : Memo} {answer : Bool}

theorem undecided_le_of_settle (settled : table.settle strict demand memo = .ok (answer, grown)) :
    grown.undecided table.size ≤ memo.undecided table.size := by
  unfold settle at settled
  match within : table.settleWithin strict demand memo with
  | .error fault => simp [within, Except.map] at settled
  | .ok ⟨(answer', grown'), fewer⟩ =>
    simp only [within, Except.map, Except.ok.injEq, Prod.mk.injEq] at settled
    exact settled.2 ▸ fewer

private theorem settles_of_settle (demand : Demand) (memo : Memo) {answer : Bool} {grown : Memo}
    (settled : table.settle strict demand memo = .ok (answer, grown)) :
    table.Settles strict demand memo answer grown := by
  match demand with
  | .holds =>
    cases settle_holds.symm.trans settled
    exact .holds memo
  | .fails =>
    cases settle_fails.symm.trans settled
    exact .fails memo
  | .missing id => cases (settle_missing id).symm.trans settled
  | .fits source target =>
    rw [settle_fits] at settled
    split at settled
    · next equal =>
      cases settled
      exact equal ▸ .same source memo
    · next apart =>
      split at settled
      · next answer found =>
        cases settled
        exact .remembered apart found
      · next unknown =>
        match demanded : table.demandOf strict source target with
        | .error fault => simp [demanded, bind, Except.bind] at settled
        | .ok demand =>
          have := Memo.undecided_record_lt true unknown (index_lt_of_demandOf demanded)
          match inner : table.settle strict demand (memo.record source target true) with
          | .error fault => simp [demanded, inner, bind, Except.bind] at settled
          | .ok (answer', grown') =>
            simp only [demanded, inner, bind, Except.bind, pure, Except.pure, Except.ok.injEq,
              Prod.mk.injEq] at settled
            obtain ⟨rfl, rfl⟩ := settled
            exact .asked apart unknown demanded (settles_of_settle demand _ inner)
  | .both first second =>
    rw [settle_both] at settled
    match left : table.settle strict first memo with
    | .error fault => simp [left, bind, Except.bind] at settled
    | .ok (false, middle) =>
      simp only [left, bind, Except.bind, Bool.false_eq_true, if_false, Except.ok.injEq, Prod.mk.injEq] at settled
      obtain ⟨rfl, rfl⟩ := settled
      exact .bothFirst (settles_of_settle first memo left)
    | .ok (true, middle) =>
      simp only [left, bind, Except.bind, if_true] at settled
      have fewer := undecided_le_of_settle left
      exact .bothSecond (settles_of_settle first memo left) (settles_of_settle second middle settled)
  | .either first second =>
    rw [settle_either] at settled
    match left : table.settle strict first memo with
    | .error fault => simp [left, bind, Except.bind] at settled
    | .ok (true, middle) =>
      simp only [left, bind, Except.bind, if_true, Except.ok.injEq, Prod.mk.injEq] at settled
      obtain ⟨rfl, rfl⟩ := settled
      exact .eitherFirst (settles_of_settle first memo left)
    | .ok (false, middle) =>
      simp only [left, bind, Except.bind, Bool.false_eq_true, if_false] at settled
      have fewer := undecided_le_of_settle left
      exact .eitherSecond (settles_of_settle first memo left) (settles_of_settle second middle settled)
termination_by (memo.undecided table.size, demand)
decreasing_by
  · exact Prod.Lex.left _ _ this
  · exact Prod.Lex.right' _ (Nat.le_refl _) (by decreasing_tactic)
  · exact Prod.Lex.right' _ (Nat.le_refl _) (by decreasing_tactic)
  · exact Prod.Lex.right' _ fewer (by decreasing_tactic)
  · exact Prod.Lex.right' _ (Nat.le_refl _) (by decreasing_tactic)
  · exact Prod.Lex.right' _ (Nat.le_refl _) (by decreasing_tactic)
  · exact Prod.Lex.right' _ fewer (by decreasing_tactic)

private theorem settle_of_settles (settles : table.Settles strict demand memo answer grown) :
    table.settle strict demand memo = .ok (answer, grown) := by
  induction settles with
  | holds memo => exact settle_holds
  | fails memo => exact settle_fails
  | same id memo => rw [settle_fits, if_pos rfl]
  | remembered apart found => rw [settle_fits, if_neg apart, found]
  | asked apart unknown demanded _ ih =>
    rw [settle_fits, if_neg apart, unknown]
    simp [demanded, ih, bind, Except.bind, pure, Except.pure]
  | bothFirst _ ih => simp [settle_both, ih, bind, Except.bind]
  | bothSecond _ _ ihLeft ihRight => simp [settle_both, ihLeft, ihRight, bind, Except.bind]
  | eitherFirst _ ih => simp [settle_either, ih, bind, Except.bind]
  | eitherSecond _ _ ihLeft ihRight => simp [settle_either, ihLeft, ihRight, bind, Except.bind]

/-- The rules settle a demand exactly as the function does. -/
theorem settle_eq_ok_iff :
    table.settle strict demand memo = .ok (answer, grown) ↔ table.Settles strict demand memo answer grown :=
  ⟨settles_of_settle demand memo, settle_of_settles⟩

theorem Settles.undecided_le (settles : table.Settles strict demand memo answer grown) :
    grown.undecided table.size ≤ memo.undecided table.size :=
  undecided_le_of_settle (settle_of_settles settles)

/-- In a closed table every demand about its types is settled. -/
theorem exists_settles (numbered : table.Numbered) (closed : table.Closed) (demand : Demand) (memo : Memo)
    (asks : demand.Asks fun a b => a.index < table.size ∧ b.index < table.size) :
    ∃ answer grown, table.Settles strict demand memo answer grown := by
  match demand with
  | .holds => exact ⟨_, _, .holds memo⟩
  | .fails => exact ⟨_, _, .fails memo⟩
  | .missing id => exact asks.elim
  | .fits source target =>
    by_cases equal : source = target
    · subst equal
      exact ⟨_, _, .same source memo⟩
    · match found : memo.find? source target with
      | some answer => exact ⟨_, _, .remembered equal found⟩
      | none =>
        obtain ⟨sourceEntry, found⟩ := exists_find? asks.1
        obtain ⟨targetEntry, found'⟩ := exists_find? asks.2
        have demanded : table.demandOf strict source target = .ok (table.demand strict sourceEntry targetEntry) :=
          demandOf_eq_ok_iff.mpr ⟨_, _, found, found', rfl⟩
        have := Memo.undecided_record_lt true ‹_› asks
        obtain ⟨answer, grown, settled⟩ := exists_settles numbered closed _ (memo.record source target true)
          (asks_inside numbered closed demanded)
        exact ⟨_, _, .asked equal ‹_› demanded settled⟩
  | .both first second =>
    obtain ⟨answer, middle, left⟩ := exists_settles numbered closed first memo asks.1
    have fewer := left.undecided_le
    obtain ⟨answer', grown, right⟩ := exists_settles numbered closed second middle asks.2
    cases answer with
    | false => exact ⟨_, _, .bothFirst left⟩
    | true => exact ⟨_, _, .bothSecond left right⟩
  | .either first second =>
    obtain ⟨answer, middle, left⟩ := exists_settles numbered closed first memo asks.1
    have fewer := left.undecided_le
    obtain ⟨answer', grown, right⟩ := exists_settles numbered closed second middle asks.2
    cases answer with
    | true => exact ⟨_, _, .eitherFirst left⟩
    | false => exact ⟨_, _, .eitherSecond left right⟩
termination_by (memo.undecided table.size, demand)
decreasing_by
  · exact Prod.Lex.left _ _ this
  · exact Prod.Lex.right' _ (Nat.le_refl _) (by decreasing_tactic)
  · exact Prod.Lex.right' _ fewer (by decreasing_tactic)
  · exact Prod.Lex.right' _ (Nat.le_refl _) (by decreasing_tactic)
  · exact Prod.Lex.right' _ fewer (by decreasing_tactic)

/-! ### What a run leaves in the memo -/

namespace Settles

/-- An answer that was there before a run is there after it. -/
theorem keeps {s t : TypeId} {known : Bool} (settles : table.Settles strict demand memo answer grown)
    (found : memo.find? s t = some known) : grown.find? s t = some known := by
  induction settles with
  | holds memo => exact found
  | fails memo => exact found
  | same id memo => exact found
  | remembered apart _ => exact found
  | @asked source target memo grown demand answer apart unknown demanded _ ih =>
    -- the pair in progress had no answer before, so it is another one
    have other : ¬ (s = source ∧ t = target) := by
      rintro ⟨rfl, rfl⟩
      simp [unknown] at found
    have inner : (memo.record source target true).find? s t = some known := by
      rw [Memo.find?_record, if_neg other, found]
    rw [Memo.find?_record, if_neg other, ih inner]
  | bothFirst _ ih => exact ih found
  | bothSecond _ _ ihLeft ihRight => exact ihRight (ihLeft found)
  | eitherFirst _ ih => exact ih found
  | eitherSecond _ _ ihLeft ihRight => exact ihRight (ihLeft found)

/-- A question about two types leaves its answer behind. -/
theorem find?_eq (settles : table.Settles strict (.fits source target) memo answer grown) (apart : source ≠ target) :
    grown.find? source target = some answer := by
  cases settles with
  | same => exact absurd rfl apart
  | remembered _ found => exact found
  | asked => rw [Memo.find?_record, if_pos ⟨rfl, rfl⟩]

/-- A yes is supported by the answers that the memo holds in the end. -/
theorem holds_of_yes (settles : table.Settles strict demand memo answer grown) (yes : answer = true) :
    demand.Holds fun s t => s = t ∨ grown.find? s t = some true := by
  induction settles with
  | holds memo => trivial
  | fails memo => cases yes
  | same id memo => exact Or.inl rfl
  | remembered apart found => exact Or.inr (yes ▸ found)
  | asked =>
    subst yes
    exact Or.inr (by rw [Memo.find?_record, if_pos ⟨rfl, rfl⟩])
  | bothFirst => cases yes
  | bothSecond _ right ihLeft ihRight =>
    refine ⟨(ihLeft rfl).mono ?_, ihRight yes⟩
    exact fun s t supported => supported.imp_right right.keeps
  | eitherFirst _ ih => exact Or.inl (ih rfl)
  | eitherSecond _ _ _ ihRight => exact Or.inr (ihRight yes)

/-- Only pairs of types of the table get an answer. -/
theorem inside {s t : TypeId} {known : Bool} (settles : table.Settles strict demand memo answer grown)
    (found : grown.find? s t = some known) :
    (∃ old, memo.find? s t = some old) ∨ s.index < table.size ∧ t.index < table.size := by
  induction settles generalizing known with
  | holds memo => exact Or.inl ⟨_, found⟩
  | fails memo => exact Or.inl ⟨_, found⟩
  | same id memo => exact Or.inl ⟨_, found⟩
  | remembered apart _ => exact Or.inl ⟨_, found⟩
  | @asked source target memo grown demand answer apart unknown demanded _ ih =>
    by_cases here : s = source ∧ t = target
    · rw [here.1, here.2]
      exact Or.inr (index_lt_of_demandOf demanded)
    · rw [Memo.find?_record, if_neg here] at found
      simpa [Memo.find?_record, here] using ih found
  | bothFirst _ ih => exact ih found
  | bothSecond _ _ ihLeft ihRight =>
    rcases ihRight found with ⟨old, there⟩ | within
    · exact ihLeft there
    · exact Or.inr within
  | eitherFirst _ ih => exact ih found
  | eitherSecond _ _ ihLeft ihRight =>
    rcases ihRight found with ⟨old, there⟩ | within
    · exact ihLeft there
    · exact Or.inr within

/-- A run in a table is a run in every table that it has grown to. -/
theorem grow (growth : later.Extends table) (settles : table.Settles strict demand memo answer grown)
    {demand' : Demand} (sharper : demand.Sharpens demand') : later.Settles strict demand' memo answer grown := by
  induction settles generalizing demand' with
  | holds memo =>
    cases sharper
    exact .holds memo
  | fails memo =>
    cases sharper
    exact .fails memo
  | same id memo =>
    cases sharper
    exact .same id memo
  | remembered apart found =>
    cases sharper
    exact .remembered apart found
  | asked apart unknown demanded _ ih =>
    cases sharper
    obtain ⟨sourceEntry, targetEntry, found, found', rfl⟩ := demandOf_eq_ok_iff.mp demanded
    exact .asked apart unknown (demandOf_eq_ok_iff.mpr ⟨_, _, growth found, growth found', rfl⟩)
      (ih (sharpens_demand growth _ _))
  | bothFirst _ ih =>
    cases sharper with
    | same => exact .bothFirst (ih (.same _))
    | both left _ => exact .bothFirst (ih left)
  | bothSecond _ _ ihLeft ihRight =>
    cases sharper with
    | same => exact .bothSecond (ihLeft (.same _)) (ihRight (.same _))
    | both left right => exact .bothSecond (ihLeft left) (ihRight right)
  | eitherFirst _ ih =>
    cases sharper with
    | same => exact .eitherFirst (ih (.same _))
    | either left _ => exact .eitherFirst (ih left)
  | eitherSecond _ _ ihLeft ihRight =>
    cases sharper with
    | same => exact .eitherSecond (ihLeft (.same _)) (ihRight (.same _))
    | either left right => exact .eitherSecond (ihLeft left) (ihRight right)

end Settles

end ExportLint.TypeTable
