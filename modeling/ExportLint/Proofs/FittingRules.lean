import ExportLint.Proofs.OrderlyTypes

/-!
# The rules of fitting

What the demand of a pair comes to for types of an orderly table, by their forms. A union fits what
all its types fit; a type that is no union fits a union that has a type for it, or because of its flags;
and types that are no unions fit by their flags, as equal literals, or as objects with fitting members
and signatures.
-/

namespace ExportLint

namespace Demand

variable {α : Type} {rel : TypeId → TypeId → Prop} {demand : α → Demand} {elements : List α}

theorem holds_every : (every demand elements).Holds rel ↔ ∀ element ∈ elements, (demand element).Holds rel := by
  induction elements with
  | nil => simp [every, Holds]
  | cons first rest ih =>
    rw [List.forall_mem_cons, ← ih]
    rfl

theorem holds_some : (some demand elements).Holds rel ↔ ∃ element ∈ elements, (demand element).Holds rel := by
  induction elements with
  | nil => simp [some, Holds]
  | cons first rest ih =>
    rw [List.exists_mem_cons_iff, ← ih]
    rfl

end Demand

/-! ### Flags -/

/-- Whether the flags alone settle that the source fits, or make the target the primitive type of the source. -/
def fitsDirectly (strict : Bool) (source target : TypeFlags) : Bool :=
  fitsByFlags strict source target || fitsPrimitive source target

namespace TypeFlags

/-- The flags of types, one for each kind of type. -/
def kinds : List TypeFlags :=
  FlagFamily.type.singles.map (·.2)

/-- Flags that fit other flags, which fit further flags, fit these, unless the middle is `any`. -/
theorem fitsDirectly_trans (strict : Bool) : ∀ middle ∈ kinds, middle ≠ any → ∀ source ∈ kinds,
    fitsDirectly strict source middle → ∀ target ∈ kinds, fitsDirectly strict middle target →
      fitsDirectly strict source target := by
  revert strict
  decide +kernel

/-- What fits a union by its flags fits everything. -/
theorem fitsByFlags_of_union (strict : Bool) : ∀ source ∈ kinds, fitsByFlags strict source union →
    ∀ target ∈ kinds, fitsByFlags strict source target := by
  revert strict
  decide +kernel

/-- What a union fits by its flags, everything fits. -/
theorem fitsByFlags_of_union_source (strict : Bool) : ∀ target ∈ kinds, fitsByFlags strict union target →
    ∀ source ∈ kinds, fitsByFlags strict source target := by
  revert strict
  decide +kernel

/-- A union is no primitive type and has none. -/
theorem fitsDirectly_union (strict : Bool) : ∀ flags ∈ kinds,
    fitsDirectly strict flags union = fitsByFlags strict flags union ∧
      fitsDirectly strict union flags = fitsByFlags strict union flags := by
  revert strict
  decide +kernel

end TypeFlags

namespace TypeForm

/-- Whether the form is a union. -/
def isUnion : TypeForm → Bool
  | union _ => true
  | _ => false

/-- Whether the form is a literal. -/
def isLiteral : TypeForm → Bool
  | stringLiteral _ | numberLiteral _ | booleanLiteral _ => true
  | _ => false

theorem union_or_plain (form : TypeForm) : (∃ types, form = union types) ∨ form.isUnion = false := by
  cases form <;> simp [isUnion]

theorem Carries.eq_of_literal {form : TypeForm} {flags flags' : TypeFlags} (carries : form.Carries flags)
    (carries' : form.Carries flags') (literal : form.isLiteral) : flags = flags' := by
  cases form with
  | stringLiteral _ | numberLiteral _ | booleanLiteral _ => exact carries.trans carries'.symm
  | intrinsic _ | object _ _ | union _ => simp [isLiteral] at literal

theorem Carries.mem_kinds {form : TypeForm} {flags : TypeFlags} (carries : form.Carries flags) :
    flags ∈ TypeFlags.kinds := by
  cases form with
  | intrinsic name =>
    have known : ∀ kind ∈ TypeTable.intrinsics, kind.1 ∈ TypeFlags.kinds := by decide
    exact known _ carries
  | stringLiteral _ | numberLiteral _ | booleanLiteral _ | union _ =>
    rw [Carries] at carries
    rw [carries]
    decide
  | object _ _ =>
    rw [carries.1]
    decide

end TypeForm

/-- Literals that count as the same are the same form, and not the number that differs from itself. -/
theorem sameLiteral?_eq_some_true_iff {source target : TypeForm} : sameLiteral? source target = some true ↔
    source = target ∧ source.isLiteral ∧ source ≠ .numberLiteral .nan := by
  cases source <;> cases target <;> simp [sameLiteral?, TypeForm.isLiteral, Double.same_iff]

namespace TypeTable

/-- Whether one signature fits another when types fit each other as a relation says: the arguments are
enough, each parameter of the target fits the parameter in its place, and the result fits or is not used. -/
structure SignatureFits (table : TypeTable) (rel : TypeId → TypeId → Prop) (source target : Signature) : Prop where
  enough : source.minArguments ≤ target.parameters.length
  parameters : ∀ pair ∈ source.parameters.zip target.parameters, rel pair.2.type pair.1.type
  returns : ∃ entry, table.find? target.returns = some entry ∧
    (entry.flags.contains TypeFlags.void ∨ rel source.returns target.returns)

/-- Whether one object fits another when types fit each other as a relation says: it has a fitting
member for each of its members, and a fitting signature for each of its signatures. -/
inductive ObjectFits (table : TypeTable) (rel : TypeId → TypeId → Prop) : TypeForm → TypeForm → Prop
  | object {source target : Members} {sources targets : List Signature}
    (members : ∀ name type, (name, type) ∈ target.entries → ∃ present, source.find? name = some present ∧
      rel present type)
    (signatures : ∀ wanted ∈ targets, ∃ given ∈ sources, table.SignatureFits rel given wanted) :
    ObjectFits table rel (.object source sources) (.object target targets)

/-- The ways in which a type that is no union fits another one that is none. -/
inductive PlainlyFits (table : TypeTable) (strict : Bool) (rel : TypeId → TypeId → Prop)
    (source target : TypeEntry) : Prop
  | direct (flags : fitsDirectly strict source.flags target.flags)
  | literal (same : sameLiteral? source.form target.form = some true)
  | object (fits : table.ObjectFits rel source.form target.form)

variable {table : TypeTable} {strict : Bool} {rel : TypeId → TypeId → Prop} {source target : TypeEntry}

/-! ### Demands by form -/

theorem holds_demandReturn {given wanted : TypeId} : (table.demandReturn given wanted).Holds rel ↔
    ∃ entry, table.find? wanted = some entry ∧ (entry.flags.contains TypeFlags.void ∨ rel given wanted) := by
  unfold demandReturn
  cases table.find? wanted with
  | none => simp [Demand.Holds]
  | some entry =>
    by_cases unused : entry.flags.contains TypeFlags.void
    · simp [unused, Demand.Holds]
    · simp [unused, Demand.Holds]

theorem holds_demandSignature {given wanted : Signature} :
    (table.demandSignature given wanted).Holds rel ↔ table.SignatureFits rel given wanted := by
  unfold demandSignature
  by_cases few : wanted.parameters.length < given.minArguments
  · rw [if_pos few]
    constructor
    · exact False.elim
    · intro fits
      exact absurd fits.enough (Nat.not_le.mpr few)
  · rw [if_neg few]
    simp only [Demand.Holds, Demand.holds_every, holds_demandReturn]
    constructor
    · rintro ⟨parameters, returns⟩
      exact ⟨Nat.not_lt.mp few, parameters, returns⟩
    · intro fits
      exact ⟨fits.parameters, fits.returns⟩

theorem holds_demandObject {members members' : Members} {signatures signatures' : List Signature} :
    (table.demandObject members members' signatures signatures').Holds rel ↔
      table.ObjectFits rel (.object members signatures) (.object members' signatures') := by
  simp only [demandObject, Demand.Holds, Demand.holds_every, Demand.holds_some, holds_demandSignature]
  constructor
  · rintro ⟨present, signed⟩
    refine .object ?_ signed
    intro name type mem
    have met := present (name, type) mem
    dsimp only at met
    split at met
    · next type' found => exact ⟨type', found, met⟩
    · exact met.elim
  · rintro ⟨present, signed⟩
    refine ⟨?_, signed⟩
    rintro ⟨name, type⟩ mem
    obtain ⟨type', found, fits⟩ := present name type mem
    simp only [found]
    exact fits

/-- A union is compared type by type. -/
theorem holds_demand_union {types : List TypeId} (form : source.form = .union types) :
    (table.demand strict source target).Holds rel ↔
      fitsByFlags strict source.flags target.flags ∨ ∀ part ∈ types, rel part target.id := by
  unfold demand
  by_cases direct : fitsByFlags strict source.flags target.flags
  · simp [direct, Demand.Holds]
  · rw [if_neg direct, form]
    simp [direct, Demand.holds_every, Demand.Holds]

/-- A type that is no union is compared with the types of a union one by one. -/
theorem holds_demand_into_union {types : List TypeId} (plain : source.form.isUnion = false)
    (form : target.form = .union types) : (table.demand strict source target).Holds rel ↔
      fitsByFlags strict source.flags target.flags ∨ ∃ part ∈ types, rel source.id part := by
  unfold demand
  by_cases direct : fitsByFlags strict source.flags target.flags
  · simp [direct, Demand.Holds]
  · rw [if_neg direct, form]
    cases same : source.form with
    | union _ => simp [same, TypeForm.isUnion] at plain
    | intrinsic _ | stringLiteral _ | numberLiteral _ | booleanLiteral _ | object _ _ =>
      simp [direct, Demand.holds_some, Demand.Holds]

/-- No literal is a primitive type. -/
theorem fitsPrimitive_of_literals (carries : target.form.Carries target.flags) {answer : Bool}
    (literals : sameLiteral? source.form target.form = some answer) :
    fitsPrimitive source.flags target.flags = false := by
  unfold sameLiteral? at literals
  split at literals
  · next form => rw [form] at carries; rw [carries]; rfl
  · next form => rw [form] at carries; rw [carries]; rfl
  · next form => rw [form] at carries; rw [carries]; rfl
  · cases literals

/-- Types that are no unions are compared by their flags, as literals or as objects. -/
theorem holds_demand_plain (plain : source.form.isUnion = false) (plain' : target.form.isUnion = false)
    (carries : target.form.Carries target.flags) :
    (table.demand strict source target).Holds rel ↔ table.PlainlyFits strict rel source target := by
  unfold demand
  by_cases byFlags : fitsByFlags strict source.flags target.flags
  · rw [if_pos byFlags]
    have direct : fitsDirectly strict source.flags target.flags := by simp [fitsDirectly, byFlags]
    exact iff_of_true trivial (.direct direct)
  rw [if_neg byFlags]
  split
  · next form => simp [form, TypeForm.isUnion] at plain
  · next form _ => simp [form, TypeForm.isUnion] at plain'
  match same : sameLiteral? source.form target.form with
  | some true => exact iff_of_true trivial (.literal same)
  | some false =>
    refine iff_of_false id ?_
    rintro (direct | same' | fits)
    · simp [fitsDirectly, byFlags, fitsPrimitive_of_literals carries same] at direct
    · cases same.symm.trans same'
    · generalize source.form = sourceForm, target.form = targetForm at same fits
      cases fits
      cases same
  | none =>
    by_cases primitive : fitsPrimitive source.flags target.flags
    · simp only [if_pos primitive]
      have direct : fitsDirectly strict source.flags target.flags := by simp [fitsDirectly, primitive]
      exact iff_of_true trivial (.direct direct)
    simp only [if_neg primitive]
    have only : table.PlainlyFits strict rel source target ↔ table.ObjectFits rel source.form target.form := by
      constructor
      · rintro (direct | same' | fits)
        · simp [fitsDirectly, byFlags, primitive] at direct
        · cases same.symm.trans same'
        · exact fits
      · exact .object
    rw [only]
    split
    · next form form' =>
      rw [form, form']
      exact holds_demandObject
    · next apart =>
      refine iff_of_false id ?_
      generalize source.form = sourceForm, target.form = targetForm at apart
      rintro ⟨_, _⟩
      exact apart _ _ _ _ rfl rfl

/-! ### The structural fit by form -/

theorem structurallyFits_iff_demand {source target : TypeId} {sourceEntry targetEntry : TypeEntry}
    (apart : source ≠ target) (found : table.find? source = some sourceEntry)
    (found' : table.find? target = some targetEntry) : table.StructurallyFits strict source target ↔
      (table.demand strict sourceEntry targetEntry).Holds (table.StructurallyFits strict) := by
  rw [structurallyFits_iff]
  constructor
  · rintro (same | ⟨demand, demanded, met⟩)
    · exact absurd same apart
    · obtain ⟨_, _, known, known', rfl⟩ := demandOf_eq_ok_iff.mp demanded
      cases found.symm.trans known
      cases found'.symm.trans known'
      exact met
  · intro met
    exact Or.inr ⟨_, demandOf_eq_ok_iff.mpr ⟨_, _, found, found', rfl⟩, met⟩

namespace Orderly

variable {source target : TypeId} {sourceEntry targetEntry : TypeEntry} {types : List TypeId}

theorem mem_kinds (orderly : table.Orderly) (found : table.find? source = some sourceEntry) :
    sourceEntry.flags ∈ TypeFlags.kinds :=
  (orderly.regular found).mem_kinds

theorem flags_of_union (orderly : table.Orderly) (found : table.find? source = some sourceEntry)
    (form : sourceEntry.form = .union types) : sourceEntry.flags = TypeFlags.union := by
  have carries := orderly.regular found
  rw [form] at carries
  exact carries

/-- A part of a type of the table is a type of the table. -/
theorem exists_part (orderly : table.Orderly) (found : table.find? source = some sourceEntry) {part : TypeId}
    (mem : part ∈ sourceEntry.form.parts) : ∃ entry, table.find? part = some entry :=
  exists_find? (orderly.grounded.closed found part mem)

theorem index_lt_of_union (orderly : table.Orderly) (found : table.find? source = some sourceEntry)
    (form : sourceEntry.form = .union types) {part : TypeId} (mem : part ∈ types) : part.index < source.index :=
  orderly.grounded found part (by rw [form]; exact mem)

theorem exists_of_union (orderly : table.Orderly) (found : table.find? source = some sourceEntry)
    (form : sourceEntry.form = .union types) {part : TypeId} (mem : part ∈ types) :
    ∃ entry, table.find? part = some entry :=
  orderly.exists_part found (by rw [form]; exact mem)

/-- Types that are no unions fit if they are the same type, or plainly. -/
theorem fits_plain_iff (orderly : table.Orderly) (found : table.find? source = some sourceEntry)
    (found' : table.find? target = some targetEntry) (plain : sourceEntry.form.isUnion = false)
    (plain' : targetEntry.form.isUnion = false) : table.StructurallyFits strict source target ↔
      source = target ∨ table.PlainlyFits strict (table.StructurallyFits strict) sourceEntry targetEntry := by
  by_cases same : source = target
  · subst same
    simp [structurallyFits_self]
  · rw [structurallyFits_iff_demand same found found', holds_demand_plain plain plain' (orderly.regular found')]
    simp [same]

/-- A type that is no union fits a union by its flags, or because it fits one of the types. -/
theorem fits_into_union_iff (orderly : table.Orderly) (found : table.find? source = some sourceEntry)
    (plain : sourceEntry.form.isUnion = false) (found' : table.find? target = some targetEntry)
    (form : targetEntry.form = .union types) : table.StructurallyFits strict source target ↔
      fitsByFlags strict sourceEntry.flags TypeFlags.union ∨
        ∃ part ∈ types, table.StructurallyFits strict source part := by
  have apart : source ≠ target := by
    rintro rfl
    cases found.symm.trans found'
    simp [form, TypeForm.isUnion] at plain
  rw [structurallyFits_iff_demand apart found found', holds_demand_into_union plain form,
    orderly.flags_of_union found' form, orderly.numbered found]

/-- What flags settle is so for types of all forms. -/
theorem fits_of_flags (orderly : table.Orderly) (found : table.find? source = some sourceEntry)
    (found' : table.find? target = some targetEntry)
    (direct : fitsDirectly strict sourceEntry.flags targetEntry.flags) :
    table.StructurallyFits strict source target := by
  by_cases same : source = target
  · rw [same]
    exact structurallyFits_self target
  rw [structurallyFits_iff_demand same found found']
  rcases sourceEntry.form.union_or_plain with ⟨types, form⟩ | plain
  · have flags := orderly.flags_of_union found form
    rw [flags, (TypeFlags.fitsDirectly_union strict _ (orderly.mem_kinds found')).2] at direct
    rw [holds_demand_union form, flags]
    exact Or.inl direct
  rcases targetEntry.form.union_or_plain with ⟨types, form⟩ | plain'
  · have flags := orderly.flags_of_union found' form
    rw [flags, (TypeFlags.fitsDirectly_union strict _ (orderly.mem_kinds found)).1] at direct
    rw [holds_demand_into_union plain form, flags]
    exact Or.inl direct
  · rw [holds_demand_plain plain plain' (orderly.regular found')]
    exact .direct direct

/-- What a union fits by its flags, its types fit. -/
theorem fits_of_wide (orderly : table.Orderly) (found : table.find? source = some sourceEntry)
    (form : sourceEntry.form = .union types) {part : TypeId} (mem : part ∈ types)
    (found' : table.find? target = some targetEntry)
    (wide : fitsByFlags strict TypeFlags.union targetEntry.flags) : table.StructurallyFits strict part target := by
  obtain ⟨partEntry, foundPart⟩ := orderly.exists_of_union found form mem
  have direct := TypeFlags.fitsByFlags_of_union_source strict _ (orderly.mem_kinds found') wide _
    (orderly.mem_kinds foundPart)
  exact orderly.fits_of_flags foundPart found' (by simp [fitsDirectly, direct])

/-- What fits a type of a union fits the union. -/
theorem fits_union_of_mem (orderly : table.Orderly) {union part : TypeId} {entry : TypeEntry}
    (found : table.find? union = some entry) (form : entry.form = .union types) (mem : part ∈ types)
    (fits : table.StructurallyFits strict source part) : table.StructurallyFits strict source union := by
  induction h : source.index using Nat.strong_induction_on generalizing source union part entry types with
  | _ size ih =>
    obtain ⟨partEntry, foundPart⟩ := orderly.exists_of_union found form mem
    obtain ⟨sourceEntry, foundSource⟩ : ∃ sourceEntry, table.find? source = some sourceEntry := by
      by_cases same : source = part
      · exact ⟨partEntry, same ▸ foundPart⟩
      · exact exists_find? (fits.inside same).1
    rcases sourceEntry.form.union_or_plain with ⟨sources, formSource⟩ | plain
    · by_cases same : source = union
      · rw [same]
        exact structurallyFits_self union
      rw [structurallyFits_iff_demand same foundSource found, holds_demand_union formSource, orderly.numbered found]
      refine Or.inr fun inner memInner => ?_
      have smaller : inner.index < size := h ▸ orderly.index_lt_of_union foundSource formSource memInner
      apply ih inner.index smaller found form mem ?_ rfl
      -- each type of the source fits the part, which may be the source itself
      by_cases equal : source = part
      · subst equal
        exact ih inner.index smaller foundSource formSource memInner (structurallyFits_self inner) rfl
      rw [structurallyFits_iff_demand equal foundSource foundPart, holds_demand_union formSource,
        orderly.numbered foundPart, orderly.flags_of_union foundSource formSource] at fits
      rcases fits with wide | every
      · exact orderly.fits_of_wide foundSource formSource memInner foundPart wide
      · exact every inner memInner
    · rw [orderly.fits_into_union_iff foundSource plain found form]
      exact Or.inr ⟨part, mem, fits⟩

/-- A union fits what all its types fit. -/
theorem fits_union_iff (orderly : table.Orderly) (found : table.find? source = some sourceEntry)
    (form : sourceEntry.form = .union types) (found' : table.find? target = some targetEntry) :
    table.StructurallyFits strict source target ↔ ∀ part ∈ types, table.StructurallyFits strict part target := by
  by_cases same : source = target
  · subst same
    refine iff_of_true (structurallyFits_self source) ?_
    intro part mem
    exact orderly.fits_union_of_mem found form mem (structurallyFits_self part)
  rw [structurallyFits_iff_demand same found found', holds_demand_union form, orderly.numbered found',
    orderly.flags_of_union found form]
  refine ⟨?_, Or.inr⟩
  rintro (wide | every) part mem
  · exact orderly.fits_of_wide found form mem found' wide
  · exact every part mem

end Orderly

end TypeTable

end ExportLint
