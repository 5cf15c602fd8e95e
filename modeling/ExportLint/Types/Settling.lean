import ExportLint.Types.Demand
import ExportLint.Types.Memo

/-!
# Settling demands

Answers to demands over a table of types. A question that has no answer yet is first answered with
yes, so that a type that contains itself does not ask for ever, and then with what its own demand
comes to. Every question that is asked for the first time takes a pair of types out of the pairs
without an answer, so settling ends whatever the table is.
-/

namespace ExportLint

/-- An answer with the memo after it, in which no more pairs are undecided than before. -/
abbrev Settled (table : TypeTable) (memo : Memo) :=
  { result : Bool × Memo // result.2.undecided table.size ≤ memo.undecided table.size }

namespace TypeTable

/-- Settles a demand, with the proof that the memo does not shrink. -/
def settleWithin (table : TypeTable) (strict : Bool) (demand : Demand) (memo : Memo) :
    Except Fault (Settled table memo) :=
  match demand with
  | .holds => .ok ⟨(true, memo), Nat.le_refl _⟩
  | .fails => .ok ⟨(false, memo), Nat.le_refl _⟩
  | .missing id => .error (table.missing id)
  | .fits source target =>
    if source = target then .ok ⟨(true, memo), Nat.le_refl _⟩
    else
      match unknown : memo.find? source target with
      | some answer => .ok ⟨(answer, memo), Nat.le_refl _⟩
      | none =>
        match demanded : table.demandOf strict source target with
        | .error fault => .error fault
        | .ok demand =>
          have := Memo.undecided_record_lt true unknown (index_lt_of_demandOf demanded)
          match table.settleWithin strict demand (memo.record source target true) with
          | .error fault => .error fault
          | .ok ⟨(answer, grown), fewer⟩ =>
            .ok ⟨(answer, grown.record source target answer),
              Nat.le_trans (grown.undecided_record_le ..) (Nat.le_trans fewer (Nat.le_of_lt this))⟩
  | .both first second =>
    match table.settleWithin strict first memo with
    | .error fault => .error fault
    | .ok ⟨(false, grown), fewer⟩ => .ok ⟨(false, grown), fewer⟩
    | .ok ⟨(true, grown), fewer⟩ =>
      match table.settleWithin strict second grown with
      | .error fault => .error fault
      | .ok ⟨result, fewer'⟩ => .ok ⟨result, Nat.le_trans fewer' fewer⟩
  | .either first second =>
    match table.settleWithin strict first memo with
    | .error fault => .error fault
    | .ok ⟨(true, grown), fewer⟩ => .ok ⟨(true, grown), fewer⟩
    | .ok ⟨(false, grown), fewer⟩ =>
      match table.settleWithin strict second grown with
      | .error fault => .error fault
      | .ok ⟨result, fewer'⟩ => .ok ⟨result, Nat.le_trans fewer' fewer⟩
termination_by (memo.undecided table.size, demand)
decreasing_by
  · exact Prod.Lex.left _ _ this
  · exact Prod.Lex.right' _ (Nat.le_refl _) (by decreasing_tactic)
  · exact Prod.Lex.right' _ fewer (by decreasing_tactic)
  · exact Prod.Lex.right' _ (Nat.le_refl _) (by decreasing_tactic)
  · exact Prod.Lex.right' _ fewer (by decreasing_tactic)

/-- The answer to a demand, and the memo after it. -/
def settle (table : TypeTable) (strict : Bool) (demand : Demand) (memo : Memo) : Except Fault (Bool × Memo) :=
  (table.settleWithin strict demand memo).map (·.1)

variable {table : TypeTable} {strict : Bool} {memo : Memo}

@[simp]
theorem settle_holds : table.settle strict .holds memo = .ok (true, memo) := by
  rw [settle, settleWithin]
  rfl

@[simp]
theorem settle_fails : table.settle strict .fails memo = .ok (false, memo) := by
  rw [settle, settleWithin]
  rfl

@[simp]
theorem settle_missing (id : TypeId) : table.settle strict (.missing id) memo = .error (table.missing id) := by
  rw [settle, settleWithin]
  rfl

/-- A question asked for the first time counts as answered with yes while its own demand is settled. -/
theorem settle_fits (source target : TypeId) :
    table.settle strict (.fits source target) memo =
      if source = target then .ok (true, memo)
      else
        match memo.find? source target with
        | some answer => .ok (answer, memo)
        | none => do
          let demand ← table.demandOf strict source target
          let (answer, grown) ← table.settle strict demand (memo.record source target true)
          return (answer, grown.record source target answer) := by
  rw [settle, settleWithin]
  split
  · rfl
  · split
    · next found => simp [found, Except.map]
    · next unknown =>
      simp only [unknown]
      split
      · next refused => simp [refused, Except.map, bind, Except.bind]
      · next demand demanded =>
        simp only [demanded, settle, bind, Except.bind]
        cases table.settleWithin strict demand (memo.record source target true) <;> rfl

theorem settle_both (first second : Demand) :
    table.settle strict (.both first second) memo =
      (table.settle strict first memo >>= fun (answer, grown) =>
        if answer then table.settle strict second grown else .ok (false, grown)) := by
  rw [settle, settleWithin, settle]
  match table.settleWithin strict first memo with
  | .error fault => rfl
  | .ok ⟨(false, grown), fewer⟩ => rfl
  | .ok ⟨(true, grown), fewer⟩ =>
    simp only [bind, Except.bind, Except.map, settle, if_true]
    cases table.settleWithin strict second grown <;> rfl

theorem settle_either (first second : Demand) :
    table.settle strict (.either first second) memo =
      (table.settle strict first memo >>= fun (answer, grown) =>
        if answer then .ok (true, grown) else table.settle strict second grown) := by
  rw [settle, settleWithin, settle]
  match table.settleWithin strict first memo with
  | .error fault => rfl
  | .ok ⟨(true, grown), fewer⟩ => rfl
  | .ok ⟨(false, grown), fewer⟩ =>
    simp only [bind, Except.bind, Except.map, settle]
    cases table.settleWithin strict second grown <;> rfl

end TypeTable

end ExportLint
