import ExportLint.Proofs.FittingRules

/-!
# Aliases

An alias is a copy of a type under another number, so that a type fits its alias has to come from the
rules and not from identity. It does, and in both directions, with two exceptions: the number that
differs from itself, and `null` and `undefined` where they fit only where they are named, since no rule
compares them with each other.
-/

namespace ExportLint

open Relation (ReflTransGen)

namespace Members

theorem find?_of_mem {members : Members} {name : String} {type : TypeId} (mem : (name, type) ∈ members.entries) :
    members.find? name = some type := by
  obtain ⟨before, after, same⟩ := List.append_of_mem mem
  refine List.lookup_eq_some_iff.mpr ⟨before, after, same, ?_⟩
  intro entry earlier
  have nodup := members.nodup
  rw [same, List.map_append, List.map_cons] at nodup
  have apart := List.disjoint_of_nodup_append nodup (List.mem_map.mpr ⟨entry, earlier, rfl⟩)
  have other : entry.1 ≠ name := fun equal => apart (by simp [equal])
  simpa using other.symm

end Members

/-- Whether a type fits a copy of itself by the rules. -/
def TypeEntry.fitsCopy (strict : Bool) (entry : TypeEntry) : Bool :=
  !(strict && entry.flags.intersects TypeFlags.nullable) && entry.form ≠ .numberLiteral .nan

/-- The flags of a type that is no literal, no object and no union settle that it fits a copy of itself,
unless it stands for no value and that is checked. -/
theorem TypeFlags.fitsDirectly_self (strict : Bool) : ∀ kind ∈ TypeTable.intrinsics,
    fitsDirectly strict kind.1 kind.1 = !(strict && kind.1.intersects nullable) := by
  revert strict
  decide

namespace TypeTable

variable {table later : TypeTable} {strict : Bool} {rel : TypeId → TypeId → Prop} {source target : TypeId}
  {entry copy : TypeEntry}

theorem SignatureFits.refl {signature : Signature} (refl : ∀ id, rel id id)
    (required : signature.minArguments = signature.parameters.length)
    (there : ∃ entry, table.find? signature.returns = some entry) : table.SignatureFits rel signature signature where
  enough := Nat.le_of_eq required
  parameters := by
    rintro ⟨taken, given⟩ mem
    obtain ⟨index, here⟩ := List.mem_iff_getElem?.mp mem
    obtain ⟨hereTaken, hereGiven⟩ := List.getElem?_zip_eq_some.mp here
    cases hereTaken.symm.trans hereGiven
    exact refl _
  returns := by
    obtain ⟨entry, found⟩ := there
    exact ⟨entry, found, Or.inr (refl _)⟩

theorem ObjectFits.refl {members : Members} {signatures : List Signature} (refl : ∀ id, rel id id)
    (required : ∀ signature ∈ signatures, signature.minArguments = signature.parameters.length)
    (there : ∀ signature ∈ signatures, ∃ entry, table.find? signature.returns = some entry) :
    table.ObjectFits rel (.object members signatures) (.object members signatures) := by
  constructor
  · intro name type mem
    exact ⟨type, Members.find?_of_mem mem, refl type⟩
  · intro signature mem
    exact ⟨signature, mem, .refl refl (required signature mem) (there signature mem)⟩

/-- A literal fits a copy of itself as a literal or not at all. -/
theorem fitsCopy_of_literal (carries : entry.form.Carries entry.flags) (literal : entry.form.isLiteral) :
    fitsDirectly strict entry.flags entry.flags = false ∧
      entry.fitsCopy strict = decide (entry.form ≠ .numberLiteral .nan) := by
  have kinds : entry.flags ∈ [TypeFlags.stringLiteral, TypeFlags.numberLiteral, TypeFlags.booleanLiteral] := by
    cases known : entry.form with
    | stringLiteral _ | numberLiteral _ | booleanLiteral _ =>
      rw [known] at carries
      rw [carries]
      decide
    | intrinsic _ | object _ _ | union _ => simp [known, TypeForm.isLiteral] at literal
  have apart : ∀ flags ∈ [TypeFlags.stringLiteral, TypeFlags.numberLiteral, TypeFlags.booleanLiteral],
      fitsDirectly strict flags flags = false ∧ flags.intersects TypeFlags.nullable = false := by
    revert strict
    decide
  obtain ⟨notDirect, present⟩ := apart entry.flags kinds
  exact ⟨notDirect, by simp [TypeEntry.fitsCopy, present]⟩

/-- A type that is no union fits a copy of itself plainly unless it is one of the exceptions. -/
theorem Orderly.plainlyFits_copy_iff (orderly : table.Orderly) (found : table.find? source = some entry)
    (plain : entry.form.isUnion = false) (flags : copy.flags = entry.flags) (form : copy.form = entry.form)
    (refl : ∀ id, rel id id) : table.PlainlyFits strict rel entry copy ↔ entry.fitsCopy strict := by
  have carries := orderly.regular found
  have closed := orderly.grounded.closed found
  cases known : entry.form with
  | union _ => simp [known, TypeForm.isUnion] at plain
  | intrinsic name =>
    rw [known] at carries form
    have direct : fitsDirectly strict entry.flags copy.flags = entry.fitsCopy strict := by
      rw [flags, TypeFlags.fitsDirectly_self strict _ carries]
      simp [TypeEntry.fitsCopy, known]
    rw [← direct]
    refine ⟨?_, .direct⟩
    rintro (direct | same | fits)
    · exact direct
    · rw [known, form] at same
      cases same
    · rw [known, form] at fits
      cases fits
  | stringLiteral _ | numberLiteral _ | booleanLiteral _ =>
    have literal : entry.form.isLiteral := by simp [known, TypeForm.isLiteral]
    obtain ⟨notDirect, fits⟩ := fitsCopy_of_literal carries literal
    rw [fits, decide_eq_true_iff]
    constructor
    · rintro (direct | same | fits)
      · rw [flags, notDirect] at direct
        cases direct
      · exact (sameLiteral?_eq_some_true_iff.mp same).2.2
      · rw [form, known] at fits
        cases fits
    · intro number
      exact .literal (sameLiteral?_eq_some_true_iff.mpr ⟨form.symm, literal, number⟩)
  | object members signatures =>
    rw [known] at carries form closed
    have present : TypeFlags.object.intersects TypeFlags.nullable = false := by decide
    have fits : entry.fitsCopy strict := by simp [TypeEntry.fitsCopy, carries.1, known, present]
    refine iff_of_true (.object ?_) fits
    rw [known, form]
    refine .refl refl carries.2 fun signature mem => exists_find? (closed _ ?_)
    exact TypeForm.mem_parts_of_signature mem (by simp [Signature.parts])

/-- A type fits a copy of itself unless it is one of the exceptions. -/
theorem Orderly.fits_copy_iff (orderly : table.Orderly) (apart : source ≠ target)
    (found : table.find? source = some entry) (found' : table.find? target = some copy)
    (flags : copy.flags = entry.flags) (form : copy.form = entry.form) :
    table.StructurallyFits strict source target ↔ entry.fitsCopy strict := by
  rcases entry.form.union_or_plain with ⟨types, union⟩ | plain
  · have fits : entry.fitsCopy strict := by
      rw [TypeEntry.fitsCopy, orderly.flags_of_union found union, union]
      cases strict <;> simp; decide
    refine iff_of_true ?_ fits
    rw [orderly.fits_union_iff found union found']
    intro part mem
    exact orderly.fits_union_of_mem found' (form.trans union) mem (structurallyFits_self part)
  · rw [orderly.fits_plain_iff found found' plain (by rw [form]; exact plain),
      orderly.plainlyFits_copy_iff found plain flags form structurallyFits_self]
    simp [apart]

/-- An alias stands under the next number, with the flags and the form of its target. -/
theorem build_aliasOf (name : String) (found : table.find? target = some entry) :
    table.build (.aliasOf name target) = .ok (table.nextId, table.push entry.flags entry.form (some name)) := by
  rw [build, addAlias, get_eq_ok_iff.mpr found]
  rfl

end TypeTable

namespace Checker

variable {checker : Checker} {target : TypeId}

/-- A type and a copy of it give the same answer about each other, and it is yes unless the type is one
of the exceptions. -/
theorem ReachedOrderly.exists_answer_copy (reached : checker.ReachedOrderly) {copyId : TypeId}
    {entry copy : TypeEntry} (apart : target ≠ copyId) (found : checker.table.find? target = some entry)
    (found' : checker.table.find? copyId = some copy) (flags : copy.flags = entry.flags)
    (form : copy.form = entry.form) : ∃ fits, checker.answerTo target copyId = .ok fits ∧
      checker.answerTo copyId target = .ok fits ∧ (fits = true ↔ entry.fitsCopy checker.strict) := by
  have inside := TypeTable.index_lt_of_find? found
  have inside' := TypeTable.index_lt_of_find? found'
  have there : checker.table.StructurallyFits checker.strict target copyId ↔ entry.fitsCopy checker.strict :=
    reached.orderly.fits_copy_iff apart found found' flags form
  have back : checker.table.StructurallyFits checker.strict copyId target ↔ entry.fitsCopy checker.strict := by
    rw [reached.orderly.fits_copy_iff apart.symm found' found flags.symm form.symm]
    simp only [TypeEntry.fitsCopy, flags, form]
  obtain ⟨fits, answered, iff⟩ := reached.exists_answer ⟨inside, inside'⟩
  have same := reached.answerTo_congr ⟨inside, inside'⟩ ⟨inside', inside⟩ (there.trans back.symm)
  exact ⟨fits, answered, same ▸ answered, iff.trans there⟩

/-- Where `null` and `undefined` fit only where they are named: an alias of any type that is there is
built, and whatever is built, bound or asked after that, the type fits the alias and the alias fits the
type, except where the type is `null`, `undefined` or an alias of them, or the literal of the number that
differs from itself, and then neither fits the other. -/
theorem alias_fits_iff (reached : checker.ReachedOrderly) (inside : target.index < checker.table.size)
    (name : String) : ∃ entry renamed built, checker.table.find? target = some entry ∧
      checker.build (.aliasOf name target) = .ok (renamed, built) ∧
      ∀ later, ReflTransGen OrderlyStep built later → later.strict = true →
        ∃ fits, later.answerTo target renamed = .ok fits ∧ later.answerTo renamed target = .ok fits ∧
          (fits = true ↔ ¬ entry.flags.intersects TypeFlags.nullable ∧ entry.form ≠ .numberLiteral .nan) := by
  obtain ⟨entry, found⟩ := TypeTable.exists_find? inside
  have built := build_of_table (TypeTable.build_aliasOf name found)
  have parts : ∀ part ∈ (Blueprint.aliasOf name target).parts, part.index < checker.table.size := by
    simpa [Blueprint.parts] using inside
  refine ⟨entry, _, _, found, built, ?_⟩
  intro later history strict
  have reachedLater : later.ReachedOrderly := (reached.tail (.built parts built)).trans history
  have growth := extends_of_orderly history
  have apart : target ≠ checker.table.nextId := by
    rintro rfl
    exact Nat.lt_irrefl _ inside
  have foundLater := growth (TypeTable.extends_push found)
  have foundCopy := growth TypeTable.find?_push_nextId
  obtain ⟨fits, there, back, iff⟩ := reachedLater.exists_answer_copy apart foundLater foundCopy rfl rfl
  refine ⟨fits, there, back, iff.trans ?_⟩
  simp [TypeEntry.fitsCopy, strict]

/-- An alias of an alias of a function. -/
theorem alias_fits_iff_function :
    let checker := ofBlueprints true [.function [("name", .string)] .void, .aliasOf "Start" ⟨10⟩]
    ∃ renamed built, checker.build (.aliasOf "StartFn" ⟨11⟩) = .ok (renamed, built) ∧
      built.answerTo ⟨11⟩ renamed = .ok true ∧ built.answerTo renamed ⟨11⟩ = .ok true := by
  intro checker
  have reached : checker.ReachedOrderly := reachedOrderly_ofBlueprints true _
  obtain ⟨entry, renamed, built, found, made, answers⟩ := alias_fits_iff reached (show 11 < _ by decide) "StartFn"
  have strict : built.strict = true := by
    rw [(build_eq_ok made).2]
    rfl
  obtain ⟨fits, there, back, iff⟩ := answers built .refl strict
  cases found
  cases iff.mpr (by decide)
  exact ⟨renamed, built, made, there, back⟩

/-- Where `null` fits only where it is named, it does not fit an alias of itself, nor does the alias
fit it. -/
theorem not_alias_fits_null :
    ∃ built, (initial true).build (.aliasOf "Nothing" .null) = .ok (⟨10⟩, built) ∧
      built.ReachedOrderly ∧ built.strict = true ∧
      built.answerTo .null ⟨10⟩ = .ok false ∧ built.answerTo ⟨10⟩ .null = .ok false := by
  have start : (initial true).ReachedOrderly := .single (.chosen true rfl)
  have there : ∀ part ∈ (Blueprint.aliasOf "Nothing" .null).parts, part.index < (initial true).table.size := by decide
  have refused {built : Checker} {source target : TypeId} (apart : source ≠ target)
      (fresh : built.memo.find? source target = none)
      (refuses : built.table.demandOf built.strict source target = .ok .fails) :
      built.answerTo source target = .ok false :=
    answerTo_eq_ok_iff.mpr ⟨_, fits_eq_ok_iff.mpr ⟨_, .asked apart fresh refuses (.fails _), rfl⟩⟩
  exact ⟨_, rfl, start.tail (.built there rfl), rfl, refused (by decide) rfl rfl, refused (by decide) rfl rfl⟩

end Checker

end ExportLint
