import ExportLint.Proofs.Aliases
import ExportLint.Proofs.Judgement

/-!
# Types under other names

An alias that its type fits, and that fits its type, cannot be told from the type by any question: the
rules look at flags and forms, which an alias copies, and at numbers only for identity. Where `null` and
`undefined` fit everywhere this is so of all aliases but one, the alias of the number that differs from
itself. Then it does not matter for the judgement of an export whether a node has a type or its alias.
-/

namespace ExportLint

open Relation (ReflTransGen)

namespace TypeTable

/-- Whether two numbers stand for one type, whatever its name: they are the same, or one has a copy of the
type of the other, and the rules let them fit each other. -/
inductive Interchangeable (table : TypeTable) (strict : Bool) : TypeId → TypeId → Prop
  | same (id : TypeId) : Interchangeable table strict id id
  | copied {id copyId : TypeId} {entry copy : TypeEntry} (found : table.find? id = some entry)
    (found' : table.find? copyId = some copy) (flags : copy.flags = entry.flags) (form : copy.form = entry.form)
    (fits : entry.fitsCopy strict) : Interchangeable table strict id copyId

variable {table : TypeTable} {strict : Bool} {rel : TypeId → TypeId → Prop} {source target other : TypeId}
  {entry copy counterpart : TypeEntry}

theorem Interchangeable.symm (alike : table.Interchangeable strict source other) :
    table.Interchangeable strict other source := by
  cases alike with
  | same => exact .same source
  | copied found found' flags form fits =>
    refine .copied found' found flags.symm form.symm ?_
    rw [TypeEntry.fitsCopy] at fits ⊢
    rw [flags, form]
    exact fits

theorem Interchangeable.fits (orderly : table.Orderly) (alike : table.Interchangeable strict source other) :
    table.StructurallyFits strict source other := by
  by_cases apart : source = other
  · rw [apart]
    exact structurallyFits_self other
  cases alike with
  | same => exact structurallyFits_self source
  | copied found found' flags form fits => exact (orderly.fits_copy_iff apart found found' flags form).mpr fits

/-- What a type that is no union fits plainly depends on flags and forms only. -/
theorem PlainlyFits.into_copy (flags : copy.flags = entry.flags) (form : copy.form = entry.form)
    (fits : table.PlainlyFits strict rel counterpart entry) : table.PlainlyFits strict rel counterpart copy := by
  cases fits with
  | direct direct => exact .direct (flags ▸ direct)
  | literal same => exact .literal (form ▸ same)
  | object fits => exact .object (form ▸ fits)

theorem PlainlyFits.from_copy (flags : copy.flags = entry.flags) (form : copy.form = entry.form)
    (fits : table.PlainlyFits strict rel entry counterpart) : table.PlainlyFits strict rel copy counterpart := by
  cases fits with
  | direct direct => exact .direct (flags ▸ direct)
  | literal same => exact .literal (form ▸ same)
  | object fits => exact .object (form ▸ fits)

namespace Orderly

/-- What fits a type fits what the type is interchangeable with. A source that is a union is taken apart
first, since only there the number of the target is passed on. -/
theorem fits_into_interchangeable (orderly : table.Orderly) (alike : table.Interchangeable strict target other)
    (fits : table.StructurallyFits strict source target) : table.StructurallyFits strict source other := by
  have each := alike.fits orderly
  cases alike with
  | same => exact fits
  | @copied _ entry copy found found' flags form _ =>
    induction h : source.index using Nat.strong_induction_on generalizing source with
    | _ size ih =>
      by_cases same : source = target
      · rw [same]
        exact each
      obtain ⟨sourceEntry, foundSource⟩ := exists_find? (fits.inside same).1
      rcases sourceEntry.form.union_or_plain with ⟨types, union⟩ | plain
      · rw [orderly.fits_union_iff foundSource union found] at fits
        rw [orderly.fits_union_iff foundSource union found']
        intro part mem
        exact ih part.index (h ▸ orderly.index_lt_of_union foundSource union mem) (fits part mem) rfl
      rcases entry.form.union_or_plain with ⟨types, union⟩ | plain'
      · rw [orderly.fits_into_union_iff foundSource plain found union] at fits
        rw [orderly.fits_into_union_iff foundSource plain found' (form.trans union)]
        exact fits
      · rw [orderly.fits_plain_iff foundSource found plain plain'] at fits
        rw [orderly.fits_plain_iff foundSource found' plain (by rw [form]; exact plain')]
        exact Or.inr ((fits.resolve_left same).into_copy flags form)

/-- What a type fits is fitted by what the type is interchangeable with. Here it is a target that is a union
which passes on the number of the source. -/
theorem fits_from_interchangeable (orderly : table.Orderly) (alike : table.Interchangeable strict source other)
    (fits : table.StructurallyFits strict source target) : table.StructurallyFits strict other target := by
  have each := alike.symm.fits orderly
  cases alike with
  | same => exact fits
  | @copied _ entry copy found found' flags form _ =>
    induction h : target.index using Nat.strong_induction_on generalizing target with
    | _ size ih =>
      by_cases same : source = target
      · rw [← same]
        exact each
      obtain ⟨targetEntry, foundTarget⟩ := exists_find? (fits.inside same).2
      rcases entry.form.union_or_plain with ⟨types, union⟩ | plain
      · rw [orderly.fits_union_iff found union foundTarget] at fits
        rw [orderly.fits_union_iff found' (form.trans union) foundTarget]
        exact fits
      have plain' : copy.form.isUnion = false := by rw [form]; exact plain
      rcases targetEntry.form.union_or_plain with ⟨types, union⟩ | plainTarget
      · rw [orderly.fits_into_union_iff found plain foundTarget union] at fits
        rw [orderly.fits_into_union_iff found' plain' foundTarget union, flags]
        rcases fits with free | ⟨part, mem, inner⟩
        · exact Or.inl free
        · have smaller : part.index < size := h ▸ orderly.index_lt_of_union foundTarget union mem
          exact Or.inr ⟨part, mem, ih part.index smaller inner rfl⟩
      · rw [orderly.fits_plain_iff found foundTarget plain plainTarget] at fits
        rw [orderly.fits_plain_iff found' foundTarget plain' plainTarget]
        exact Or.inr ((fits.resolve_left same).from_copy flags form)

/-- No question tells interchangeable types apart, on either side. -/
theorem fits_interchangeable_iff (orderly : table.Orderly) {source' target' : TypeId}
    (alike : table.Interchangeable strict source source') (alike' : table.Interchangeable strict target target') :
    table.StructurallyFits strict source target ↔ table.StructurallyFits strict source' target' := by
  constructor
  · intro fits
    exact orderly.fits_from_interchangeable alike (orderly.fits_into_interchangeable alike' fits)
  · intro fits
    exact orderly.fits_from_interchangeable alike.symm (orderly.fits_into_interchangeable alike'.symm fits)

end Orderly

theorem Interchangeable.inside (alike : table.Interchangeable strict source other)
    (inside : source.index < table.size) : other.index < table.size := by
  cases alike with
  | same => exact inside
  | copied _ found' => exact index_lt_of_find? found'

theorem Interchangeable.exists_entry (alike : table.Interchangeable strict source other)
    (found : table.find? source = some entry) :
    ∃ copy, table.find? other = some copy ∧ copy.flags = entry.flags ∧ copy.form = entry.form := by
  cases alike with
  | same => exact ⟨entry, found, rfl, rfl⟩
  | copied known found' flags form =>
    cases found.symm.trans known
    exact ⟨_, found', flags, form⟩

end TypeTable

namespace Checker

variable {first second checker after : Checker} {source target source' target' : TypeId} {answer : Bool}

/-- Whether two checkers know the same types and treat `null` alike, and differ at most in which of two types
they give to some nodes. -/
structure Swaps (id other : TypeId) (first second : Checker) : Prop where
  table : second.table = first.table
  strict : second.strict = first.strict
  nodes : ∀ node, second.typeOf node = first.typeOf node ∨
    first.typeOf node = id ∧ second.typeOf node = other ∨ first.typeOf node = other ∧ second.typeOf node = id

/-- Whether two checkers know the same types, treat `null` alike, and give interchangeable types to every node. -/
structure Alike (first second : Checker) : Prop where
  table : second.table = first.table
  strict : second.strict = first.strict
  nodes : ∀ node, first.table.Interchangeable first.strict (first.typeOf node) (second.typeOf node)

theorem Swaps.alike {id other : TypeId} (swaps : Swaps id other first second)
    (alike : first.table.Interchangeable first.strict id other) : Alike first second where
  table := swaps.table
  strict := swaps.strict
  nodes node := by
    rcases swaps.nodes node with same | ⟨left, right⟩ | ⟨left, right⟩
    · rw [same]
      exact .same _
    · rw [left, right]
      exact alike
    · rw [left, right]
      exact alike.symm

/-- A node bound to one of the types, or to the other one in its place, makes two such checkers. -/
theorem swaps_bind (checker : Checker) (node : NodeId) (id other : TypeId) :
    Swaps id other (checker.bind node id) (checker.bind node other) where
  table := rfl
  strict := rfl
  nodes asked := by
    rw [typeOf_bind, typeOf_bind]
    split
    · exact Or.inr (Or.inl ⟨rfl, rfl⟩)
    · exact Or.inl rfl

theorem Alike.symm (alike : Alike first second) : Alike second first where
  table := alike.table.symm
  strict := alike.strict.symm
  nodes node := by
    rw [alike.table, alike.strict]
    exact (alike.nodes node).symm

/-- A question about interchangeable types has the answer that it has about the types themselves. -/
theorem ReachedOrderly.answerTo_interchangeable (reached : first.ReachedOrderly) (reached' : second.ReachedOrderly)
    (alike : Alike first second) (sources : first.table.Interchangeable first.strict source source')
    (targets : first.table.Interchangeable first.strict target target')
    (answered : first.answerTo source target = .ok answer) : second.answerTo source' target' = .ok answer := by
  have same : second.table.StructurallyFits second.strict source' target' ↔
      first.table.StructurallyFits first.strict source target := by
    rw [alike.table, alike.strict]
    exact (reached.orderly.fits_interchangeable_iff sources targets).symm
  cases answer with
  | true => exact reached'.answerTo_eq_true_iff.mpr (same.mpr (reached.answerTo_eq_true_iff.mp answered))
  | false =>
    have inside := reached.reached.coherent.inside_of_answer (apart_of_no answered) answered
    have inside' : source'.index < second.table.size ∧ target'.index < second.table.size := by
      rw [alike.table]
      exact ⟨sources.inside inside.1, targets.inside inside.2⟩
    obtain ⟨answer, answered', iff⟩ := reached'.exists_answer inside'
    cases answer with
    | false => exact answered'
    | true =>
      have fits := reached.answerTo_eq_true_iff.mpr (same.mp (iff.mp rfl))
      cases answered.symm.trans fits

/-! ### Exports -/

variable {rule : Rule} {program : Program} {names : Interner} {exported : CheckedExport}

/-- Each of two such checkers can take the place of the other one. -/
theorem Alike.replaces (alike : Alike first second) (reached : first.ReachedOrderly)
    (reached' : second.ReachedOrderly) : Replaces (first.table.Interchangeable first.strict) first second where
  refl := .same
  nodes := alike.nodes
  error := by
    intro id other failed types known
    obtain ⟨entry, looked, known⟩ := TypeTable.map_get_eq_ok_iff.mp known
    obtain ⟨copy, found, _, form⟩ := types.exists_entry looked
    refine TypeTable.map_get_eq_ok_iff.mpr ⟨copy, by rw [alike.table]; exact found, ?_⟩
    rw [← known, TypeEntry.isError, TypeEntry.isError, form]
  named := by
    intro id other name types known
    obtain ⟨entry, looked, _⟩ := TypeTable.map_get_eq_ok_iff.mp known
    obtain ⟨copy, found, _⟩ := types.exists_entry looked
    exact ⟨copy.aliasName, TypeTable.map_get_eq_ok_iff.mpr ⟨copy, by rw [alike.table]; exact found, rfl⟩⟩
  answers := by
    intro source source' target target' answer sources targets answered
    exact ⟨answer, reached.answerTo_interchangeable reached' alike sources targets answered, id⟩

/-- Whether no question about the types that are there tells two types apart. -/
structure Indistinct (checker : Checker) (id other : TypeId) : Prop where
  asTarget : ∀ source, source.index < checker.table.size →
    ∃ fits, checker.answerTo source id = .ok fits ∧ checker.answerTo source other = .ok fits
  asSource : ∀ target, target.index < checker.table.size →
    ∃ fits, checker.answerTo id target = .ok fits ∧ checker.answerTo other target = .ok fits

theorem ReachedOrderly.indistinct (reached : checker.ReachedOrderly) (inside : source.index < checker.table.size)
    (alike : checker.table.Interchangeable checker.strict source target) : checker.Indistinct source target := by
  have itself : Alike checker checker := ⟨rfl, rfl, fun _ => .same _⟩
  constructor
  · intro asked there
    obtain ⟨fits, answered, _⟩ := reached.exists_answer ⟨there, inside⟩
    exact ⟨fits, answered, reached.answerTo_interchangeable reached itself (.same asked) alike answered⟩
  · intro asked there
    obtain ⟨fits, answered, _⟩ := reached.exists_answer ⟨inside, there⟩
    exact ⟨fits, answered, reached.answerTo_interchangeable reached itself alike (.same asked) answered⟩

/-- An export passes with one checker exactly if it passes with the other, and is reported with one exactly
if it is reported with the other. -/
theorem Alike.judge_iff (alike : Alike first second) (reached : first.ReachedOrderly)
    (reached' : second.ReachedOrderly) :
    ((∃ after, rule.judge program names exported first = .ok (none, after)) ↔
      ∃ after, rule.judge program names exported second = .ok (none, after)) ∧
    ((∃ diagnostic after, rule.judge program names exported first = .ok (some diagnostic, after)) ↔
      ∃ diagnostic after, rule.judge program names exported second = .ok (some diagnostic, after)) := by
  have passes {first second : Checker} (alike : Alike first second) (reached : first.ReachedOrderly)
      (reached' : second.ReachedOrderly) : (∃ after, rule.judge program names exported first = .ok (none, after)) →
      ∃ after, rule.judge program names exported second = .ok (none, after) := by
    rintro ⟨after, judged⟩
    obtain ⟨outcome, after', judged', passed, _⟩ := (alike.replaces reached reached').judge judged
    cases passed rfl
    exact ⟨after', judged'⟩
  have fails {first second : Checker} (alike : Alike first second) (reached : first.ReachedOrderly)
      (reached' : second.ReachedOrderly) :
      (∃ diagnostic after, rule.judge program names exported first = .ok (some diagnostic, after)) →
      ∃ diagnostic after, rule.judge program names exported second = .ok (some diagnostic, after) := by
    rintro ⟨diagnostic, after, judged⟩
    obtain ⟨outcome, after', judged', _⟩ := (alike.replaces reached reached').judge judged
    cases outcome with
    | some other => exact ⟨other, after', judged'⟩
    | none =>
      obtain ⟨_, passed⟩ := passes alike.symm reached' reached ⟨after', judged'⟩
      cases judged.symm.trans passed
  exact ⟨⟨passes alike reached reached', passes alike.symm reached' reached⟩,
    ⟨fails alike reached reached', fails alike.symm reached' reached⟩⟩

/-- Where `null` and `undefined` fit everywhere: an alias of any type that is there is built, and whatever
is built, bound or asked after that, the alias is an error exactly if the type is; no question tells the
two apart exactly if the type is not the number that differs from itself; and then every export is judged
alike by two checkers that differ in which of the two they give to some nodes. -/
theorem alias_indistinct_iff (reached : checker.ReachedOrderly) (inside : target.index < checker.table.size)
    (name : String) : ∃ entry renamed built, checker.table.find? target = some entry ∧
      checker.build (.aliasOf name target) = .ok (renamed, built) ∧
      ∀ later, ReflTransGen OrderlyStep built later → later.strict = false →
        (∃ error, TypeOracle.isError later target = .ok error ∧ TypeOracle.isError later renamed = .ok error) ∧
        (later.Indistinct target renamed ↔ entry.form ≠ .numberLiteral .nan) ∧
        (entry.form ≠ .numberLiteral .nan → ∀ other : Checker, other.ReachedOrderly →
          Swaps target renamed later other → ∀ rule program names exported,
          ((∃ after, Rule.judge rule program names exported later = .ok (none, after)) ↔
            ∃ after, rule.judge program names exported other = .ok (none, after)) ∧
          ((∃ diagnostic after, rule.judge program names exported later = .ok (some diagnostic, after)) ↔
            ∃ diagnostic after, rule.judge program names exported other = .ok (some diagnostic, after))) := by
  obtain ⟨entry, found⟩ := TypeTable.exists_find? inside
  have built := build_of_table (TypeTable.build_aliasOf name found)
  have parts : ∀ part ∈ (Blueprint.aliasOf name target).parts, part.index < checker.table.size := by
    simpa [Blueprint.parts] using inside
  refine ⟨entry, _, _, found, built, ?_⟩
  intro later history loose
  have reachedLater : later.ReachedOrderly := (reached.tail (.built parts built)).trans history
  have growth := extends_of_orderly history
  have apart : target ≠ checker.table.nextId := by
    rintro rfl
    exact Nat.lt_irrefl _ inside
  have foundLater := growth (TypeTable.extends_push found)
  have foundCopy := growth TypeTable.find?_push_nextId
  have copied : entry.fitsCopy later.strict ↔ entry.form ≠ .numberLiteral .nan := by simp [TypeEntry.fitsCopy, loose]
  have alike (number : entry.form ≠ .numberLiteral .nan) :
      later.table.Interchangeable later.strict target checker.table.nextId :=
    .copied foundLater foundCopy rfl rfl (copied.mpr number)
  refine ⟨⟨entry.isError, ?_, ?_⟩, ⟨?_, ?_⟩, ?_⟩
  · exact TypeTable.map_get_eq_ok_iff.mpr ⟨entry, foundLater, rfl⟩
  · exact TypeTable.map_get_eq_ok_iff.mpr ⟨_, foundCopy, rfl⟩
  · -- the type fits itself by identity, so its alias has to fit it by the rules
    intro indistinct
    obtain ⟨fits, itself, back⟩ := indistinct.asSource target (TypeTable.index_lt_of_find? foundLater)
    cases (answerTo_self later target).symm.trans itself
    obtain ⟨fits, _, back', iff⟩ := reachedLater.exists_answer_copy apart foundLater foundCopy rfl rfl
    cases back.symm.trans back'
    exact copied.mp (iff.mp rfl)
  · intro number
    exact reachedLater.indistinct (TypeTable.index_lt_of_find? foundLater) (alike number)
  · intro number other reachedOther swaps rule program names exported
    exact (swaps.alike (alike number)).judge_iff reachedLater reachedOther

/-- An alias of a type that has `null` in it, bound to an export in place of the type. -/
theorem alias_indistinct_iff_nullable :
    let checker := ofBlueprints false [.union [.null, .string]]
    ∃ renamed built, checker.build (.aliasOf "Title" ⟨10⟩) = .ok (renamed, built) ∧
      (built.bind ⟨0⟩ ⟨10⟩).Indistinct ⟨10⟩ renamed ∧ ∀ rule program names exported,
        (∃ after, Rule.judge rule program names exported (built.bind ⟨0⟩ ⟨10⟩) = .ok (none, after)) ↔
          ∃ after, Rule.judge rule program names exported (built.bind ⟨0⟩ renamed) = .ok (none, after) := by
  intro checker
  have reached : checker.ReachedOrderly := reachedOrderly_ofBlueprints false _
  have inside : (⟨10⟩ : TypeId).index < checker.table.size := by decide
  obtain ⟨entry, renamed, built, found, made, later⟩ := alias_indistinct_iff reached inside "Title"
  cases found
  have parts : ∀ part ∈ (Blueprint.aliasOf "Title" ⟨10⟩).parts, part.index < checker.table.size := by decide
  have reachedBuilt : built.ReachedOrderly := reached.tail (.built parts made)
  have loose : (built.bind ⟨0⟩ ⟨10⟩).strict = false := by
    show built.strict = false
    rw [(build_eq_ok made).2]
    rfl
  obtain ⟨_, indistinct, judged⟩ := later _ (.single (.bound built ⟨0⟩ ⟨10⟩)) loose
  refine ⟨renamed, built, made, indistinct.mpr (by decide), ?_⟩
  intro rule program names exported
  exact (judged (by decide) _ (reachedBuilt.tail (.bound built ⟨0⟩ renamed)) (swaps_bind built ⟨0⟩ ⟨10⟩ renamed)
    rule program names exported).1

end Checker

end ExportLint
