import ExportLint.Proofs.FittingRules

/-!
# Unions

A union is the join of its types: each of them fits it, it fits what they all fit, and what is no union
itself fits it exactly when it fits one of them. So only the types that are no unions count, at whatever
depth of unions in unions they stand: unions of the same ones fit each other and cannot be told apart.
-/

namespace ExportLint

open Relation (ReflTransGen)

namespace TypeTable

/-- Whether a type is the union of the given types. -/
def UnionOf (table : TypeTable) (id : TypeId) (types : List TypeId) : Prop :=
  ∃ entry, table.find? id = some entry ∧ entry.form = .union types

/-- A type that is no union is a constituent of itself and of every union that has a type of which it is
a constituent. -/
inductive Constituent (table : TypeTable) (leaf : TypeId) : TypeId → Prop
  | itself {entry : TypeEntry} (found : table.find? leaf = some entry) (plain : entry.form.isUnion = false) :
    Constituent table leaf leaf
  | inside {union part : TypeId} {types : List TypeId} (joins : table.UnionOf union types) (mem : part ∈ types)
    (inner : Constituent table leaf part) : Constituent table leaf union

/-- Whether the types of two lists have the same constituents. -/
def SameConstituents (table : TypeTable) (types others : List TypeId) : Prop :=
  ∀ leaf, (∃ type ∈ types, table.Constituent leaf type) ↔ ∃ other ∈ others, table.Constituent leaf other

variable {table later : TypeTable} {strict : Bool} {types others : List TypeId} {source target union leaf : TypeId}

theorem UnionOf.grow (growth : later.Extends table) (joins : table.UnionOf union types) :
    later.UnionOf union types := by
  obtain ⟨entry, found, form⟩ := joins
  exact ⟨entry, growth found, form⟩

theorem UnionOf.inside (joins : table.UnionOf union types) : union.index < table.size := by
  obtain ⟨entry, found, _⟩ := joins
  exact index_lt_of_find? found

theorem constituent_iff_of_union (joins : table.UnionOf union types) :
    table.Constituent leaf union ↔ ∃ type ∈ types, table.Constituent leaf type := by
  constructor
  · intro constituent
    obtain ⟨entry, found, form⟩ := joins
    cases constituent with
    | itself found' plain =>
      cases found.symm.trans found'
      simp [form, TypeForm.isUnion] at plain
    | inside joins' mem inner =>
      obtain ⟨entry', found', form'⟩ := joins'
      cases found.symm.trans found'
      cases form.symm.trans form'
      exact ⟨_, mem, inner⟩
  · rintro ⟨type, mem, inner⟩
    exact .inside joins mem inner

theorem constituent_iff_of_plain {entry : TypeEntry} (found : table.find? source = some entry)
    (plain : entry.form.isUnion = false) : table.Constituent leaf source ↔ leaf = source := by
  constructor
  · intro constituent
    cases constituent with
    | itself => rfl
    | inside joins =>
      obtain ⟨entry', found', form⟩ := joins
      cases found.symm.trans found'
      simp [form, TypeForm.isUnion] at plain
  · rintro rfl
    exact .itself found plain

theorem Constituent.exists_plain (constituent : table.Constituent leaf source) :
    ∃ entry, table.find? leaf = some entry ∧ entry.form.isUnion = false := by
  induction constituent with
  | itself found plain => exact ⟨_, found, plain⟩
  | inside _ _ _ ih => exact ih

/-- Order and repetitions do not matter. -/
theorem sameConstituents_of_mem_iff (same : ∀ type, type ∈ types ↔ type ∈ others) :
    table.SameConstituents types others := by
  intro leaf
  simp only [same]

/-- It does not matter whether types stand in a list themselves or grouped into a union. -/
theorem sameConstituents_group (joins : table.UnionOf union others) :
    table.SameConstituents (union :: types) (others ++ types) := by
  intro leaf
  simp only [List.mem_cons, List.mem_append, or_and_right, exists_or, exists_eq_left,
    constituent_iff_of_union joins]

theorem SameConstituents.symm (same : table.SameConstituents types others) : table.SameConstituents others types :=
  fun leaf => (same leaf).symm

theorem SameConstituents.trans {further : List TypeId} (left : table.SameConstituents types others)
    (right : table.SameConstituents others further) : table.SameConstituents types further :=
  fun leaf => (left leaf).trans (right leaf)

namespace Orderly

/-- A type fits what all its constituents fit. -/
theorem fits_iff_constituents (orderly : table.Orderly) (inside : source.index < table.size)
    (inside' : target.index < table.size) : table.StructurallyFits strict source target ↔
      ∀ leaf, table.Constituent leaf source → table.StructurallyFits strict leaf target := by
  induction h : source.index using Nat.strong_induction_on generalizing source with
  | _ size ih =>
    obtain ⟨entry, found⟩ := exists_find? inside
    obtain ⟨targetEntry, found'⟩ := exists_find? inside'
    rcases entry.form.union_or_plain with ⟨types, form⟩ | plain
    · rw [orderly.fits_union_iff found form found']
      have each (part : TypeId) (mem : part ∈ types) := ih part.index
        (h ▸ orderly.index_lt_of_union found form mem)
        (Nat.lt_trans (orderly.index_lt_of_union found form mem) inside) rfl
      simp only [constituent_iff_of_union ⟨entry, found, form⟩]
      constructor
      · rintro every leaf ⟨part, mem, constituent⟩
        exact (each part mem).mp (every part mem) leaf constituent
      · intro every part mem
        exact (each part mem).mpr fun leaf constituent => every leaf ⟨part, mem, constituent⟩
    · simp only [constituent_iff_of_plain found plain, forall_eq]

/-- A type that is no union fits by its flags wherever there is a union, or it fits a constituent. -/
theorem fits_iff_exists_constituent (orderly : table.Orderly) {entry : TypeEntry}
    (found : table.find? source = some entry) (plain : entry.form.isUnion = false)
    (inside : target.index < table.size) : table.StructurallyFits strict source target ↔
      fitsByFlags strict entry.flags TypeFlags.union ∨
        ∃ leaf, table.Constituent leaf target ∧ table.StructurallyFits strict source leaf := by
  induction h : target.index using Nat.strong_induction_on generalizing target with
  | _ size ih =>
    obtain ⟨targetEntry, found'⟩ := exists_find? inside
    rcases targetEntry.form.union_or_plain with ⟨types, form⟩ | plain'
    · rw [orderly.fits_into_union_iff found plain found' form]
      have each (part : TypeId) (mem : part ∈ types) := ih part.index
        (h ▸ orderly.index_lt_of_union found' form mem)
        (Nat.lt_trans (orderly.index_lt_of_union found' form mem) inside) rfl
      simp only [constituent_iff_of_union ⟨targetEntry, found', form⟩]
      constructor
      · rintro (free | ⟨part, mem, fits⟩)
        · exact Or.inl free
        · rcases (each part mem).mp fits with free | ⟨leaf, constituent, fits⟩
          · exact Or.inl free
          · exact Or.inr ⟨leaf, ⟨part, mem, constituent⟩, fits⟩
      · rintro (free | ⟨leaf, ⟨part, mem, constituent⟩, fits⟩)
        · exact Or.inl free
        · exact Or.inr ⟨part, mem, (each part mem).mpr (Or.inr ⟨leaf, constituent, fits⟩)⟩
    · simp only [constituent_iff_of_plain found' plain', exists_eq_left]
      refine ⟨Or.inr, ?_⟩
      rintro (free | fits)
      · have direct := TypeFlags.fitsByFlags_of_union strict _ (orderly.mem_kinds found) free _
          (orderly.mem_kinds found')
        exact orderly.fits_of_flags found found' (by simp [fitsDirectly, direct])
      · exact fits

/-- A type that is no union fits a union of some types exactly when it fits one of them. -/
theorem fits_into_union_iff_exists (orderly : table.Orderly) {entry unionEntry : TypeEntry}
    (found : table.find? source = some entry) (plain : entry.form.isUnion = false)
    (found' : table.find? union = some unionEntry) (form : unionEntry.form = .union types) (some : types ≠ []) :
    table.StructurallyFits strict source union ↔ ∃ part ∈ types, table.StructurallyFits strict source part := by
  rw [orderly.fits_into_union_iff found plain found' form]
  refine ⟨?_, Or.inr⟩
  rintro (free | fits)
  · obtain ⟨part, mem⟩ := List.exists_mem_of_ne_nil types some
    obtain ⟨partEntry, foundPart⟩ := orderly.exists_of_union found' form mem
    have direct := TypeFlags.fitsByFlags_of_union strict _ (orderly.mem_kinds found) free _
      (orderly.mem_kinds foundPart)
    exact ⟨part, mem, orderly.fits_of_flags found foundPart (by simp [fitsDirectly, direct])⟩
  · exact fits

/-- Types with the same constituents fit the same types. -/
theorem fits_congr_source (orderly : table.Orderly) {other : TypeId} (inside : source.index < table.size)
    (inside' : other.index < table.size) (inside'' : target.index < table.size)
    (same : ∀ leaf, table.Constituent leaf source ↔ table.Constituent leaf other) :
    table.StructurallyFits strict source target ↔ table.StructurallyFits strict other target := by
  rw [orderly.fits_iff_constituents inside inside'', orderly.fits_iff_constituents inside' inside'']
  simp only [same]

/-- The same types fit types with the same constituents. -/
theorem fits_congr_target (orderly : table.Orderly) {other : TypeId} (inside : source.index < table.size)
    (inside' : target.index < table.size) (inside'' : other.index < table.size)
    (same : ∀ leaf, table.Constituent leaf target ↔ table.Constituent leaf other) :
    table.StructurallyFits strict source target ↔ table.StructurallyFits strict source other := by
  have plainly {leaf : TypeId} (constituent : table.Constituent leaf source) :
      table.StructurallyFits strict leaf target ↔ table.StructurallyFits strict leaf other := by
    obtain ⟨entry, found, plain⟩ := constituent.exists_plain
    rw [orderly.fits_iff_exists_constituent found plain inside',
      orderly.fits_iff_exists_constituent found plain inside'']
    simp only [same]
  rw [orderly.fits_iff_constituents inside inside', orderly.fits_iff_constituents inside inside'']
  exact forall_congr' fun leaf => forall_congr' plainly

end Orderly

theorem build_union (table : TypeTable) (several : 2 ≤ types.length) :
    table.build (.union types) = .ok (table.nextId, table.push TypeFlags.union (.union types)) := by
  rcases types with _ | ⟨single, _ | ⟨second, rest⟩⟩
  · simp at several
  · simp at several
  · rfl

theorem unionOf_push : (table.push TypeFlags.union (.union types)).UnionOf table.nextId types :=
  ⟨_, find?_push_nextId, rfl⟩

end TypeTable

namespace Checker

variable {checker : Checker} {types : List TypeId} {union : TypeId}

/-- What a checker answers about a union and another type follows from what it answers about the types
of the union, unless the other type is a union and the target. -/
theorem ReachedOrderly.answers_about_union (reached : checker.ReachedOrderly)
    (joins : checker.table.UnionOf union types) (some : types ≠ []) {other : TypeId}
    (inside : other.index < checker.table.size) :
    (∃ answer, checker.answerTo union other = .ok answer ∧
      (answer = true ↔ ∀ part ∈ types, checker.answerTo part other = .ok true)) ∧
    ∃ answer, checker.answerTo other union = .ok answer ∧
      ((¬ ∃ others, checker.table.UnionOf other others) →
        (answer = true ↔ ∃ part ∈ types, checker.answerTo other part = .ok true)) := by
  have orderly := reached.orderly
  obtain ⟨entry, found, form⟩ := joins
  obtain ⟨otherEntry, found'⟩ := TypeTable.exists_find? inside
  have insideUnion := TypeTable.index_lt_of_find? found
  simp only [reached.answerTo_eq_true_iff]
  constructor
  · obtain ⟨answer, answered, iff⟩ := reached.exists_answer ⟨insideUnion, inside⟩
    exact ⟨answer, answered, iff.trans (orderly.fits_union_iff found form found')⟩
  · obtain ⟨answer, answered, iff⟩ := reached.exists_answer ⟨inside, insideUnion⟩
    refine ⟨answer, answered, fun single => iff.trans ?_⟩
    have plain : otherEntry.form.isUnion = false := by
      refine otherEntry.form.union_or_plain.resolve_left ?_
      rintro ⟨others, form'⟩
      exact single ⟨others, otherEntry, found', form'⟩
    exact orderly.fits_into_union_iff_exists found' plain found form some

/-- Unions of types with the same constituents fit each other, and no question tells them apart. -/
theorem ReachedOrderly.answers_same_of_union (reached : checker.ReachedOrderly) {second : TypeId}
    {others : List TypeId} (joins : checker.table.UnionOf union types)
    (joins' : checker.table.UnionOf second others) (same : checker.table.SameConstituents types others) :
    checker.answerTo union second = .ok true ∧ checker.answerTo second union = .ok true ∧
      ∀ third : TypeId, third.index < checker.table.size →
        checker.answerTo union third = checker.answerTo second third ∧
        checker.answerTo third union = checker.answerTo third second := by
  have constituents (leaf : TypeId) :
      checker.table.Constituent leaf union ↔ checker.table.Constituent leaf second := by
    rw [TypeTable.constituent_iff_of_union joins, TypeTable.constituent_iff_of_union joins']
    exact same leaf
  have inside := joins.inside
  have inside' := joins'.inside
  have alike (third : TypeId) (insideThird : third.index < checker.table.size) :
      checker.answerTo union third = checker.answerTo second third ∧
      checker.answerTo third union = checker.answerTo third second := by
    constructor
    · apply reached.answerTo_congr ⟨inside, insideThird⟩ ⟨inside', insideThird⟩
      exact reached.orderly.fits_congr_source inside inside' insideThird constituents
    · apply reached.answerTo_congr ⟨insideThird, inside⟩ ⟨insideThird, inside'⟩
      exact reached.orderly.fits_congr_target insideThird inside inside' constituents
  refine ⟨?_, ?_, alike⟩
  · rw [(alike second inside').1]
    exact answerTo_self checker second
  · rw [(alike second inside').2]
    exact answerTo_self checker second

/-- The join of at least two types that are there is built, and whatever is built, bound or asked after
that: each of the types fits it; it fits another type exactly when all of them do; another type that is
no union fits it exactly when it fits one of them; and a union of types with the same constituents fits
it, is fitted by it and has the same answers for every third type. -/
theorem union_is_join (reached : checker.ReachedOrderly) (several : 2 ≤ types.length)
    (there : ∀ part ∈ types, part.index < checker.table.size) :
    ∃ union built, checker.build (.union types) = .ok (union, built) ∧
      ∀ later, ReflTransGen OrderlyStep built later →
        (∀ part ∈ types, later.answerTo part union = .ok true) ∧
        (∀ other : TypeId, other.index < later.table.size →
          (∃ answer, later.answerTo union other = .ok answer ∧
            (answer = true ↔ ∀ part ∈ types, later.answerTo part other = .ok true)) ∧
          ∃ answer, later.answerTo other union = .ok answer ∧
            ((¬ ∃ others, later.table.UnionOf other others) →
              (answer = true ↔ ∃ part ∈ types, later.answerTo other part = .ok true))) ∧
        ∀ second others, later.table.UnionOf second others → later.table.SameConstituents types others →
          later.answerTo union second = .ok true ∧ later.answerTo second union = .ok true ∧
          ∀ third : TypeId, third.index < later.table.size →
            later.answerTo union third = later.answerTo second third ∧
            later.answerTo third union = later.answerTo third second := by
  have built := build_of_table (TypeTable.build_union checker.table several)
  have parts : ∀ part ∈ (Blueprint.union types).parts, part.index < checker.table.size := there
  have some : types ≠ [] := by
    rintro rfl
    simp at several
  refine ⟨_, _, built, ?_⟩
  intro later history
  have reachedLater : later.ReachedOrderly := (reached.tail (.built parts built)).trans history
  have joins : later.table.UnionOf checker.table.nextId types :=
    TypeTable.unionOf_push.grow (extends_of_orderly history)
  refine ⟨?_, ?_, ?_⟩
  · intro part mem
    obtain ⟨entry, found, form⟩ := joins
    rw [reachedLater.answerTo_eq_true_iff]
    exact reachedLater.orderly.fits_union_of_mem found form mem (TypeTable.structurallyFits_self part)
  · intro other inside
    exact reachedLater.answers_about_union joins some inside
  · intro second others joins' same
    exact reachedLater.answers_same_of_union joins joins' same

/-- The union of a literal, `string`, `number` and `null`, and one in which the two in the middle are
grouped into a union that is mentioned twice. -/
theorem union_is_join_grouped :
    let checker := ofBlueprints true [.stringLiteral "on", .union [.string, .number], .union [⟨11⟩, .null, ⟨10⟩, ⟨11⟩]]
    ∃ union built, checker.build (.union [⟨10⟩, .string, .number, .null]) = .ok (union, built) ∧
      built.answerTo union ⟨12⟩ = .ok true ∧ built.answerTo ⟨12⟩ union = .ok true ∧
      built.answerTo .null union = .ok true ∧ built.answerTo union .unknown = built.answerTo ⟨12⟩ .unknown := by
  intro checker
  have reached : checker.ReachedOrderly := reachedOrderly_ofBlueprints true _
  let types : List TypeId := [⟨10⟩, .string, .number, .null]
  have there : ∀ part ∈ types, part.index < checker.table.size := by decide
  obtain ⟨union, built, made, joins⟩ := union_is_join reached (show 2 ≤ types.length by decide) there
  obtain ⟨members, _, alike⟩ := joins built .refl
  have parts : ∀ part ∈ (Blueprint.union types).parts, part.index < checker.table.size := there
  have growth : built.table.Extends checker.table := extends_of_orderly (.single (.built parts made))
  have pair : built.table.UnionOf ⟨11⟩ [.string, .number] :=
    .grow growth ⟨{ id := ⟨11⟩, flags := TypeFlags.union, form := .union [.string, .number] }, by rfl, rfl⟩
  have second : built.table.UnionOf ⟨12⟩ [⟨11⟩, .null, ⟨10⟩, ⟨11⟩] :=
    .grow growth ⟨{ id := ⟨12⟩, flags := TypeFlags.union, form := .union [⟨11⟩, .null, ⟨10⟩, ⟨11⟩] }, by rfl, rfl⟩
  have ordered : built.table.SameConstituents types [.string, .number, ⟨10⟩, .null] :=
    TypeTable.sameConstituents_of_mem_iff (by simp only [types, List.mem_cons]; tauto)
  have grouped : built.table.SameConstituents [⟨11⟩, ⟨10⟩, .null] [.string, .number, ⟨10⟩, .null] :=
    TypeTable.sameConstituents_group pair
  have repeated : built.table.SameConstituents [⟨11⟩, ⟨10⟩, .null] [⟨11⟩, .null, ⟨10⟩, ⟨11⟩] :=
    TypeTable.sameConstituents_of_mem_iff (by simp only [List.mem_cons]; tauto)
  obtain ⟨there, back, third⟩ := alike ⟨12⟩ _ second (ordered.trans (grouped.symm.trans repeated))
  have inside : TypeId.unknown.index < built.table.size :=
    Nat.lt_of_lt_of_le (by decide) second.inside
  exact ⟨union, built, made, there, back, members .null (by simp [types]), (third .unknown inside).1⟩

end Checker

end ExportLint
