import ExportLint.Proofs.OrderlyTypes
import ExportLint.Proofs.RepeatedRuns

/-!
# Checking for null

Whether `null` and `undefined` fit only where they are named. Checking that takes fits away and adds none:
the flags that settle a pair settle it without the check, and otherwise the pair makes the same demand, so
the largest relation under the check is supported without it. This reaches parameters too, which are
compared the other way round, since it is one relation that is supported and not one direction of it. A run
over a program that checks for null reports what the run reports that does not, and possibly more.
-/

namespace ExportLint

open Relation (ReflTransGen)

/-- The less is checked, the more flags settle. -/
theorem fitsByFlags_loosen {loose strict : Bool} (le : loose ≤ strict) {source target : TypeFlags}
    (direct : fitsByFlags strict source target) : fitsByFlags loose source target := by
  cases loose with
  | true =>
    cases Bool.eq_true_of_true_le le
    exact direct
  | false =>
    simp only [fitsByFlags, Bool.or_eq_true, Bool.and_eq_true] at direct ⊢
    exact direct.imp_right fun unset => ⟨unset.1, Or.inl rfl⟩

namespace TypeTable

variable {table : TypeTable} {loose strict : Bool} {source target : TypeId} {rel : TypeId → TypeId → Prop}

/-- The less is checked, the less is demanded of a pair. -/
theorem demandOf_loosen (le : loose ≤ strict) {demand : Demand}
    (demanded : table.demandOf strict source target = .ok demand) (met : demand.Holds rel) :
    ∃ looser, table.demandOf loose source target = .ok looser ∧ looser.Holds rel := by
  obtain ⟨sourceEntry, targetEntry, found, found', rfl⟩ := demandOf_eq_ok_iff.mp demanded
  refine ⟨_, demandOf_eq_ok_iff.mpr ⟨sourceEntry, targetEntry, found, found', rfl⟩, ?_⟩
  by_cases free : fitsByFlags loose sourceEntry.flags targetEntry.flags
  · rw [demand, if_pos free]
    trivial
  · have open' : ¬ fitsByFlags strict sourceEntry.flags targetEntry.flags := fun direct =>
      free (fitsByFlags_loosen le direct)
    rw [demand, if_neg open'] at met
    rw [demand, if_neg free]
    exact met

theorem Supports.loosen (supports : table.Supports strict rel) (le : loose ≤ strict) : table.Supports loose rel := by
  intro source target related
  rcases supports related with same | ⟨demand, demanded, met⟩
  · exact Or.inl same
  · exact Or.inr (demandOf_loosen le demanded met)

/-- What fits where more is checked fits where less is checked. -/
theorem StructurallyFits.loosen (fits : table.StructurallyFits strict source target) (le : loose ≤ strict) :
    table.StructurallyFits loose source target := by
  obtain ⟨rel, supports, related⟩ := fits
  exact (supports.loosen le).structurallyFits related

end TypeTable

namespace Checker

variable {loose strict loose' strict' : Checker} {source target : TypeId}

/-- Two checkers with the same types at the same nodes, of which only the second checks for null. -/
structure Tightens (loose strict : Checker) : Prop where
  table : strict.table = loose.table
  nodes : ∀ node, strict.typeOf node = loose.typeOf node
  unchecked : loose.strict = false
  checked : strict.strict = true

/-- Questions do not change what two checkers have in common. -/
theorem Tightens.history (tightens : Tightens loose strict) (history : ReflTransGen Asked loose loose')
    (history' : ReflTransGen Asked strict strict') : Tightens loose' strict' := by
  rw [eq_of_asked history, eq_of_asked history']
  exact ⟨tightens.table, tightens.nodes, tightens.unchecked, tightens.checked⟩

theorem Tightens.isError (tightens : Tightens loose strict) (id : TypeId) :
    TypeOracle.isError loose id = TypeOracle.isError strict id :=
  congrArg (fun table : TypeTable => TypeEntry.isError <$> table.get id) tightens.table.symm

theorem Tightens.aliasName (tightens : Tightens loose strict) (id : TypeId) :
    TypeOracle.aliasName loose id = TypeOracle.aliasName strict id :=
  congrArg (fun table : TypeTable => TypeEntry.aliasName <$> table.get id) tightens.table.symm

theorem Tightens.answerTo (tightens : Tightens loose strict) (reached : loose.ReachedOrderly)
    (reached' : strict.ReachedOrderly) (fits : strict.answerTo source target = .ok true) :
    loose.answerTo source target = .ok true := by
  rw [reached'.answerTo_eq_true_iff, tightens.table, tightens.checked] at fits
  rw [reached.answerTo_eq_true_iff, tightens.unchecked]
  exact fits.loosen (Bool.false_le true)

/-! ### Runs -/

variable {rule : Rule} {program : Program} {names : Interner} {exported : CheckedExport}
  {outcome : Option Diagnostic}

/-- Without the check a checker can take the place of the one that checks. -/
theorem Tightens.replaces (tightens : Tightens loose strict) (reached : loose.ReachedOrderly)
    (reached' : strict.ReachedOrderly) : Replaces Eq strict loose where
  refl := Eq.refl
  nodes := tightens.nodes
  error := by
    rintro id _ failed rfl known
    rw [tightens.isError, known]
  named := by
    rintro id _ name rfl known
    exact ⟨name, (tightens.aliasName id).trans known⟩
  answers := by
    rintro source _ target _ answer rfl rfl answered
    cases answer with
    | true => exact ⟨true, tightens.answerTo reached reached' answered, id⟩
    | false =>
      have inside := reached'.reached.coherent.inside_of_answer (apart_of_no answered) answered
      rw [tightens.table] at inside
      obtain ⟨answer, answered', _⟩ := reached.exists_answer inside
      exact ⟨answer, answered', fun yes => by cases yes⟩

/-- An export is judged without the check as it is judged under it, or it passes. -/
theorem Tightens.judge (tightens : Tightens loose strict) (reached : loose.ReachedOrderly)
    (reached' : strict.ReachedOrderly) (judged : rule.judge program names exported strict = .ok (outcome, strict')) :
    ∃ outcome' loose', rule.judge program names exported loose = .ok (outcome', loose') ∧
      (outcome' = none ∨ outcome' = outcome) := by
  obtain ⟨outcome', loose', judged', _, reported⟩ := (tightens.replaces reached reached').judge judged
  refine ⟨outcome', loose', judged', ?_⟩
  cases outcome' with
  | none => exact Or.inl rfl
  | some diagnostic =>
    obtain ⟨_, rfl, same⟩ := reported diagnostic rfl
    rw [same (by rw [tightens.nodes, tightens.aliasName])]
    exact Or.inr rfl

end Checker

/-- What outcomes report that are none or the ones of another list is reported by that list, in the same order. -/
theorem sublist_reduceOption {outcomes others : List (Option Diagnostic)}
    (fewer : List.Forall₂ (fun outcome other => other = none ∨ other = outcome) outcomes others) :
    others.reduceOption.Sublist outcomes.reduceOption := by
  induction fewer with
  | nil => exact .slnil
  | @cons outcome other _ _ first _ ih =>
    rcases first with rfl | rfl
    · rw [List.reduceOption_cons_of_none]
      cases outcome with
      | none => rwa [List.reduceOption_cons_of_none]
      | some diagnostic =>
        rw [List.reduceOption_cons_of_some]
        exact ih.cons diagnostic
    · cases other with
      | none => rwa [List.reduceOption_cons_of_none, List.reduceOption_cons_of_none]
      | some diagnostic =>
        rw [List.reduceOption_cons_of_some, List.reduceOption_cons_of_some]
        exact ih.cons_cons diagnostic

namespace Checker

variable {loose strict : Checker} {rule : Rule} {program : Program} {names : Interner}

/-- A run that ends under the check ends without it, and reports a part of what is reported under it. -/
theorem Tightens.checkProgram (tightens : Tightens loose strict) (reached : loose.ReachedOrderly)
    (reached' : strict.ReachedOrderly) {found : Collection} {after : Checker}
    (run : rule.checkProgram program names strict = .ok (found, after)) : ∃ found' after',
      rule.checkProgram program names loose = .ok (found', after') ∧ found'.items.Sublist found.items := by
  rw [Rule.checkProgram_eq] at run
  obtain ⟨outcomes, judged, rfl⟩ := Rule.collect_eq_ok_iff.mp run
  have step (exported : CheckedExport) (strict loose : Checker) (outcome : Option Diagnostic) (strict' : Checker)
      (related : Tightens loose strict ∧ loose.ReachedOrderly ∧ strict.ReachedOrderly)
      (judged : rule.judge program names exported strict = .ok (outcome, strict')) : ∃ outcome' loose',
        rule.judge program names exported loose = .ok (outcome', loose') ∧ (outcome' = none ∨ outcome' = outcome) ∧
        Tightens loose' strict' ∧ loose'.ReachedOrderly ∧ strict'.ReachedOrderly := by
    obtain ⟨tightens, reached, reached'⟩ := related
    obtain ⟨outcome', loose', judged', fewer⟩ := tightens.judge reached reached' judged
    have history := asked_of_judge exported loose outcome' loose' .refl judged'
    have history' := asked_of_judge exported strict outcome strict' .refl judged
    exact ⟨outcome', loose', judged', fewer, tightens.history history history', reached.history history,
      reached'.history history'⟩
  obtain ⟨outcomes', after', judged', fewer, _⟩ := Rule.judgeAll_simulates _ _ step ⟨tightens, reached, reached'⟩ judged
  refine ⟨⟨outcomes'.reduceOption⟩, after', ?_, sublist_reduceOption fewer⟩
  rw [Rule.checkProgram_eq]
  exact Rule.collect_eq_ok_iff.mpr ⟨outcomes', judged', rfl⟩

/-- Of two checkers over the same types and nodes, whatever each has been asked, the one that checks for
`null` answers with yes only where the other one does. Where its run over a program ends, the run of the
other one ends as well and reports the same diagnostics in the same order, or a part of them; and its run
does end where the files of the program were made by builders. -/
theorem checking_null_removes_fits (reached : loose.ReachedOrderly) (reached' : strict.ReachedOrderly)
    (tightens : Tightens loose strict) :
    (∀ source target, strict.answerTo source target = .ok true → loose.answerTo source target = .ok true) ∧
    ∀ (rule : Rule) (program : Program) (names : Interner),
      (∀ found after, rule.checkProgram program names strict = .ok (found, after) → ∃ found' after',
        rule.checkProgram program names loose = .ok (found', after') ∧ found'.items.Sublist found.items) ∧
      ∀ (origin : Nat → Nat) (workspace : Workspace) (number : Nat), strict.BindsInside → workspace.Made origin →
        workspace.program? number = some (program, names) →
        (∀ file ∈ program.files, file.text.utf8ByteSize < 2 ^ 32) →
        ∃ found after, rule.checkProgram program names strict = .ok (found, after) := by
  refine ⟨fun source target => tightens.answerTo reached reached', fun rule program names => ⟨?_, ?_⟩⟩
  · intro found after run
    exact tightens.checkProgram reached reached' run
  · intro origin workspace number bound made present short
    exact reached'.reached.coherent.toTabled.exists_checkProgram reached'.grounded.closed bound made present short

/-- A constant that is `null` and has to fit a string. -/
theorem checking_null_removes_fits_constant :
    let declarations := [Declaration.typeAlias ModifierFlags.exported "ID" "string",
      .variableDecl ModifierFlags.exported NodeFlags.constList [{ binding := .name "id" }]]
    let checker (strict : Bool) := ((initial strict).bind ⟨0⟩ .string).bind ⟨4⟩ .null
    let rule : Rule := { typeMap := .ofList [("*", "ID")] }
    ∃ program names found after found' after',
      (Workspace.sole "mod.ts" declarations).program? 0 = some (program, names) ∧
      rule.checkProgram program names (checker true) = .ok (found, after) ∧
      rule.checkProgram program names (checker false) = .ok (found', after') ∧ found'.items.Sublist found.items := by
  intro declarations checker rule
  have reached (strict : Bool) : (checker strict).ReachedOrderly :=
    .head (.chosen strict rfl) (.head (.bound _ ⟨0⟩ .string) (.single (.bound _ ⟨4⟩ .null)))
  have bound : (checker true).BindsInside := ((initial_bindsInside true).bind ⟨0⟩ (by decide)).bind ⟨4⟩ (by decide)
  have tightens : Tightens (checker false) (checker true) := ⟨rfl, fun _ => rfl, rfl, rfl⟩
  have present : (Workspace.sole "mod.ts" declarations).program? 0 = some (_, _) := rfl
  have short : ∀ file ∈ [Workspace.soleFile "mod.ts" declarations], file.text.utf8ByteSize < 2 ^ 32 := by
    intro file mem
    cases List.mem_singleton.mp mem
    decide
  obtain ⟨less, ends⟩ := (checking_null_removes_fits (reached false) (reached true) tightens).2 rule _ _
  obtain ⟨found, after, run⟩ := ends _ _ 0 bound (Workspace.sole_made "mod.ts" declarations) present short
  obtain ⟨found', after', run', part⟩ := less found after run
  exact ⟨_, _, found, after, found', after', present, run, run', part⟩

end Checker

end ExportLint
