import ExportLint.Proofs.HistoryIndependence

/-!
# Orderly tables

What is known of the types that a checker has built from types that were there: each stands under its
own number, mentions earlier types only, and carries the flags of its form. For such types the answer
of a checker is the structural fit, whatever has been asked before, so what is to be said about answers
can be said about a relation between types.
-/

namespace ExportLint

open Relation (ReflTransGen)

/-- Whether the flags are those with which types of the form are built. Every parameter of a call
signature is required. -/
def TypeForm.Carries : TypeForm → TypeFlags → Prop
  | .intrinsic name, flags => (flags, name) ∈ TypeTable.intrinsics
  | .stringLiteral _, flags => flags = TypeFlags.stringLiteral
  | .numberLiteral _, flags => flags = TypeFlags.numberLiteral
  | .booleanLiteral _, flags => flags = TypeFlags.booleanLiteral
  | .object _ signatures, flags =>
    flags = TypeFlags.object ∧ ∀ signature ∈ signatures, signature.minArguments = signature.parameters.length
  | .union _, flags => flags = TypeFlags.union

namespace TypeTable

/-- Whether every type carries the flags of its form. -/
def Regular (table : TypeTable) : Prop :=
  ∀ ⦃id : TypeId⦄ ⦃entry : TypeEntry⦄, table.find? id = some entry → entry.form.Carries entry.flags

/-- What holds of the types that are built from types that are there. -/
structure Orderly (table : TypeTable) : Prop where
  numbered : table.Numbered
  grounded : table.Grounded
  regular : table.Regular

variable {table later : TypeTable} {strict : Bool} {demand : Demand} {source target : TypeId}

theorem find?_push_nextId {flags : TypeFlags} {form : TypeForm} {aliasName : Option String} :
    (table.push flags form aliasName).find? table.nextId = some { id := table.nextId, flags, aliasName, form } := by
  rw [find?_push, if_pos rfl]

theorem Regular.push {flags : TypeFlags} {form : TypeForm} {aliasName : Option String} (regular : table.Regular)
    (carries : form.Carries flags) : (table.push flags form aliasName).Regular := by
  intro id entry found
  rw [find?_push] at found
  split at found
  · cases found
    exact carries
  · exact regular found

theorem initial_regular : initial.Regular := by
  unfold initial
  suffices general : ∀ (kinds : List (TypeFlags × String)) (table : TypeTable), table.Regular →
      (∀ kind ∈ kinds, kind ∈ intrinsics) →
      (kinds.foldl (fun table kind => table.push kind.1 (.intrinsic kind.2)) table).Regular from
    general _ _ (by simp [Regular, find?]) fun _ => id
  intro kinds
  induction kinds with
  | nil => exact fun _ regular _ => regular
  | cons kind rest ih =>
    intro table regular known
    exact ih _ (regular.push (known kind (by simp))) fun kind mem => known kind (by simp [mem])

theorem Regular.addAlias {name : String} {id : TypeId} (regular : table.Regular)
    (added : table.addAlias name target = .ok (id, later)) : later.Regular := by
  obtain ⟨entry, found, made⟩ := bind_eq_ok_iff.mp added
  cases made
  exact regular.push (regular (get_eq_ok_iff.mp found))

theorem Regular.build {blueprint : Blueprint} {id : TypeId} (regular : table.Regular)
    (built : table.build blueprint = .ok (id, later)) : later.Regular := by
  cases blueprint with
  | stringLiteral value => cases built; exact regular.push rfl
  | numberLiteral value => cases built; exact regular.push rfl
  | booleanLiteral value => cases built; exact regular.push rfl
  | object members => cases built; exact regular.push ⟨rfl, by simp⟩
  | function parameters returns => cases built; exact regular.push ⟨rfl, by simp [Signature.ofRequired]⟩
  | union types =>
    rcases types with _ | ⟨single, _ | ⟨second, rest⟩⟩
    · cases built; exact regular.push rfl
    · cases built; exact regular
    · cases built; exact regular.push rfl
  | aliasOf name target => exact regular.addAlias built
  | errorAlias name => exact regular.addAlias built

/-! ### Answers are structural fits -/

/-- A demand that the recursion answers with yes is met by the pairs that it answers with yes. -/
theorem holds_of_evaluate (value : table.evaluate strict demand = pure true) :
    demand.Holds fun s t => table.evaluate strict (.fits s t) = pure true := by
  have answered {first second : Bool} (same : (pure first : ExceptT Fault Option Bool) = pure second) :
      first = second := by
    have := congrArg ExceptT.run same
    cases this
    rfl
  induction demand with
  | holds => trivial
  | fails =>
    rw [evaluate_fails] at value
    cases answered value
  | missing id =>
    rw [evaluate_missing] at value
    cases congrArg ExceptT.run value
  | fits source target => exact value
  | both first second ihFirst ihSecond =>
    rw [evaluate_both] at value
    rcases run_bind_eq_some_iff.mp (congrArg ExceptT.run value) with ⟨_ | _, left, right⟩ | ⟨fault, _, same⟩
    · cases right
    · exact ⟨ihFirst left, ihSecond right⟩
    · cases same
  | either first second ihFirst ihSecond =>
    rw [evaluate_either] at value
    rcases run_bind_eq_some_iff.mp (congrArg ExceptT.run value) with ⟨_ | _, left, right⟩ | ⟨fault, _, same⟩
    · exact Or.inr (ihSecond right)
    · exact Or.inl (ihFirst left)
    · cases same

theorem structurallyFits_of_evaluate (value : table.evaluate strict (.fits source target) = pure true) :
    table.StructurallyFits strict source target := by
  refine ⟨fun s t => table.evaluate strict (.fits s t) = pure true, ?_, value⟩
  intro s t value
  by_cases same : s = t
  · exact Or.inl same
  · match demanded : table.demandOf strict s t with
    | .error fault =>
      rw [evaluate_fits, if_neg same, demanded] at value
      cases congrArg ExceptT.run value
    | .ok demand =>
      rw [evaluate_asked same demanded] at value
      exact Or.inr ⟨demand, rfl, holds_of_evaluate value⟩

theorem StructurallyFits.inside (fits : table.StructurallyFits strict source target) (apart : source ≠ target) :
    source.index < table.size ∧ target.index < table.size := by
  rcases structurallyFits_iff.mp fits with same | ⟨demand, demanded, _⟩
  · exact absurd same apart
  · exact index_lt_of_demandOf demanded

end TypeTable

namespace Checker

variable {before after checker later : Checker} {source target : TypeId}

theorem OrderlyStep.regular (step : OrderlyStep before after) (regular : before.table.Regular) :
    after.table.Regular := by
  cases step with
  | chosen strict unasked => exact regular
  | built there built => exact regular.build (build_eq_ok built).1
  | bound node type => exact regular
  | asked asked =>
    rw [asked.eq]
    exact regular

theorem ReachedOrderly.orderly (reached : checker.ReachedOrderly) : checker.table.Orderly where
  numbered := reached.reached.coherent.numbered
  grounded := reached.grounded
  regular := by
    induction reached with
    | refl => exact TypeTable.initial_regular
    | tail _ step ih => exact step.regular ih

/-- A checker builds what its table builds, and changes in nothing else. -/
theorem build_of_table {blueprint : Blueprint} {id : TypeId} {table : TypeTable}
    (built : checker.table.build blueprint = .ok (id, table)) :
    checker.build blueprint = .ok (id, { checker with table }) := by
  rw [build, built]
  rfl

/-- Types stay as they are, whatever is built after them. -/
theorem extends_of_orderly (history : ReflTransGen OrderlyStep before after) : after.table.Extends before.table := by
  induction history with
  | refl => exact TypeTable.Extends.refl _
  | tail _ step ih =>
    rcases step.step.table with same | ⟨flags, form, aliasName, new⟩
    · rw [same]
      exact ih
    · rw [new]
      exact TypeTable.extends_push.trans ih

/-- Where types were built from types that were there, the answer is yes exactly for the types that fit
structurally. -/
theorem ReachedOrderly.answerTo_eq_true_iff (reached : checker.ReachedOrderly) :
    checker.answerTo source target = .ok true ↔ checker.table.StructurallyFits checker.strict source target := by
  have coherent := reached.reached.coherent
  by_cases same : source = target
  · subst same
    simp [answerTo_self, TypeTable.structurallyFits_self]
  constructor
  · intro fits
    obtain ⟨answer, after, answered, value⟩ := reached.fits_eq_ok (coherent.inside_of_yes same fits)
    rw [answerTo_eq_ok_iff.mpr ⟨after, answered⟩] at fits
    cases fits
    exact TypeTable.structurallyFits_of_evaluate value
  · intro fits
    obtain ⟨answer, answered⟩ := coherent.exists_answer reached.grounded.closed (fits.inside same)
    obtain ⟨after, asked⟩ := answerTo_eq_ok_iff.mp answered
    rw [answered, coherent.grants asked fits]

/-- The answers stay those of the structural fit, whatever is asked. -/
theorem ReachedOrderly.answers_iff (reached : checker.ReachedOrderly) (history : ReflTransGen Asked checker later) :
    later.answerTo source target = .ok true ↔ checker.table.StructurallyFits checker.strict source target := by
  rw [(reached.history history).answerTo_eq_true_iff, eq_of_asked history]

/-- Every question about types of the table is answered, with what the structural fit says. -/
theorem ReachedOrderly.exists_answer (reached : checker.ReachedOrderly)
    (inside : source.index < checker.table.size ∧ target.index < checker.table.size) :
    ∃ answer, checker.answerTo source target = .ok answer ∧
      (answer = true ↔ checker.table.StructurallyFits checker.strict source target) := by
  obtain ⟨answer, answered⟩ := reached.reached.coherent.exists_answer reached.grounded.closed inside
  refine ⟨answer, answered, ?_⟩
  rw [← reached.answerTo_eq_true_iff, answered, Except.ok.injEq]

/-- Questions about types of the table that are the same for the structural fit have the same answer. -/
theorem ReachedOrderly.answerTo_congr (reached : checker.ReachedOrderly) {source' target' : TypeId}
    (inside : source.index < checker.table.size ∧ target.index < checker.table.size)
    (inside' : source'.index < checker.table.size ∧ target'.index < checker.table.size)
    (same : checker.table.StructurallyFits checker.strict source target ↔
      checker.table.StructurallyFits checker.strict source' target') :
    checker.answerTo source target = checker.answerTo source' target' := by
  obtain ⟨answer, answered, iff⟩ := reached.exists_answer inside
  obtain ⟨answer', answered', iff'⟩ := reached.exists_answer inside'
  rw [answered, answered', Bool.eq_iff_iff.mpr (iff.trans (same.trans iff'.symm))]

/-- The checker that has built the blueprints one after the other, without those whose parts are missing. -/
def ofBlueprints (strict : Bool) (blueprints : List Blueprint) : Checker :=
  blueprints.foldl (fun checker blueprint =>
    if ∀ part ∈ blueprint.parts, part.index < checker.table.size then
      match checker.build blueprint with
      | .ok (_, built) => built
      | .error _ => checker
    else checker) (initial strict)

theorem reachedOrderly_ofBlueprints (strict : Bool) (blueprints : List Blueprint) :
    (ofBlueprints strict blueprints).ReachedOrderly := by
  unfold ofBlueprints
  have start : (initial strict).ReachedOrderly := .single (.chosen strict rfl)
  generalize initial strict = checker at start
  induction blueprints generalizing checker with
  | nil => exact start
  | cons blueprint rest ih =>
    apply ih
    dsimp only
    split
    · next there =>
      split
      · next built => exact start.tail (.built there built)
      · exact start
    · exact start

end Checker

/-! ### Fits that can be computed -/

/-- Whether a demand is met by the pairs of a list and by identity. -/
def Demand.isMetBy (pairs : List (TypeId × TypeId)) : Demand → Bool
  | .holds => true
  | .fails => false
  | .missing _ => false
  | .fits source target => source = target ∨ (source, target) ∈ pairs
  | .both first second => first.isMetBy pairs && second.isMetBy pairs
  | .either first second => first.isMetBy pairs || second.isMetBy pairs

theorem Demand.holds_of_isMetBy {pairs : List (TypeId × TypeId)} {demand : Demand} (met : demand.isMetBy pairs) :
    demand.Holds fun s t => s = t ∨ (s, t) ∈ pairs := by
  induction demand with
  | holds => trivial
  | fails => simp [isMetBy] at met
  | missing id => simp [isMetBy] at met
  | fits source target => simpa [isMetBy, Holds] using met
  | both first second ihFirst ihSecond =>
    simp only [isMetBy, Bool.and_eq_true] at met
    exact ⟨ihFirst met.1, ihSecond met.2⟩
  | either first second ihFirst ihSecond =>
    simp only [isMetBy, Bool.or_eq_true] at met
    exact met.imp ihFirst ihSecond

/-- The pairs of a list fit if the demand of each is met by the list. -/
theorem TypeTable.structurallyFits_of_pairs {table : TypeTable} {strict : Bool} (pairs : List (TypeId × TypeId))
    (met : ∀ pair ∈ pairs, (table.demandOf strict pair.1 pair.2).map (·.isMetBy pairs) = .ok true) :
    ∀ pair ∈ pairs, table.StructurallyFits strict pair.1 pair.2 := by
  intro pair mem
  refine ⟨fun s t => s = t ∨ (s, t) ∈ pairs, ?_, Or.inr mem⟩
  rintro s t (same | listed)
  · exact Or.inl same
  · have met := met (s, t) listed
    match demanded : table.demandOf strict s t with
    | .error fault => simp [demanded, Except.map] at met
    | .ok demand =>
      simp only [demanded, Except.map, Except.ok.injEq] at met
      exact Or.inr ⟨demand, rfl, Demand.holds_of_isMetBy met⟩

end ExportLint
