import ExportLint.Proofs.FittingRules

/-!
# Transitivity

Whether a type fits all that is fitted by what it fits. Two rules are made to break this: `any` fits
everything and is fitted by everything, and every result fits where the result is not used. Away from
them the relation is transitive, in both treatments of `null`. The proof goes over three types at once,
because parameters are compared the other way round, and takes unions apart from the source on.
-/

namespace ExportLint

open Relation (ReflTransGen)

/-- The call signatures of a form. -/
def TypeForm.signatures : TypeForm → List Signature
  | object _ signatures => signatures
  | _ => []

namespace TypeTable

/-- Whether one type mentions another one. -/
def Mentions (table : TypeTable) (id part : TypeId) : Prop :=
  ∃ entry, table.find? id = some entry ∧ part ∈ entry.form.parts

/-- Whether nothing that a type leads to fits by exception: it mentions, at no depth, a type that counts
as `any`, or a call signature that gives back `void`. -/
structure Airtight (table : TypeTable) (id : TypeId) : Prop where
  typed : ∀ part entry, ReflTransGen table.Mentions id part → table.find? part = some entry →
    ¬ entry.flags.contains TypeFlags.any
  used : ∀ part entry, ReflTransGen table.Mentions id part → table.find? part = some entry →
    ∀ signature ∈ entry.form.signatures, ∀ result, table.find? signature.returns = some result →
      ¬ result.flags.contains TypeFlags.void

variable {table : TypeTable} {strict : Bool} {rel : TypeId → TypeId → Prop} {x y z : TypeId}
  {first middle last : TypeEntry}

theorem Airtight.part (tight : table.Airtight x) {part : TypeId} (found : table.find? x = some first)
    (mem : part ∈ first.form.parts) : table.Airtight part where
  typed inner entry leads := tight.typed inner entry (.head ⟨first, found, mem⟩ leads)
  used inner entry leads := tight.used inner entry (.head ⟨first, found, mem⟩ leads)

theorem Airtight.not_any (tight : table.Airtight x) (found : table.find? x = some first) :
    first.flags ≠ TypeFlags.any := by
  intro flags
  apply tight.typed x first .refl found
  rw [flags]
  decide

/-! ### Types that are no unions -/

/-- Types that are the same literal, or objects, have the same flags. -/
theorem flags_eq_of_literal (carries : first.form.Carries first.flags) (carries' : middle.form.Carries middle.flags)
    (same : sameLiteral? first.form middle.form = some true) : first.flags = middle.flags := by
  obtain ⟨equal, literal, _⟩ := sameLiteral?_eq_some_true_iff.mp same
  rw [← equal] at carries'
  exact carries.eq_of_literal carries' literal

theorem flags_eq_of_object (carries : first.form.Carries first.flags) (carries' : middle.form.Carries middle.flags)
    (fits : table.ObjectFits rel first.form middle.form) : first.flags = middle.flags := by
  generalize first.form = form, middle.form = form' at carries carries' fits
  cases fits
  exact carries.1.trans carries'.1.symm

theorem PlainlyFits.direct_of_direct (orderly : table.Orderly) (found : table.find? x = some first)
    (found' : table.find? y = some middle) (found'' : table.find? z = some last) (typed : middle.flags ≠ TypeFlags.any)
    (fits : table.PlainlyFits strict rel first middle) (direct : fitsDirectly strict middle.flags last.flags) :
    fitsDirectly strict first.flags last.flags := by
  cases fits with
  | direct flags =>
    exact TypeFlags.fitsDirectly_trans strict _ (orderly.mem_kinds found') typed _ (orderly.mem_kinds found) flags
      _ (orderly.mem_kinds found'') direct
  | literal same => rwa [flags_eq_of_literal (orderly.regular found) (orderly.regular found') same]
  | object fits => rwa [flags_eq_of_object (orderly.regular found) (orderly.regular found') fits]

/-- Signatures that require all their parameters and whose results are used are transitive where their
parameters and results are. -/
theorem SignatureFits.trans {given between wanted : Signature} (left : table.SignatureFits rel given between)
    (right : table.SignatureFits rel between wanted) (required : given.minArguments = given.parameters.length)
    (required' : between.minArguments = between.parameters.length)
    (used : ∀ result, table.find? between.returns = some result → ¬ result.flags.contains TypeFlags.void)
    (used' : ∀ result, table.find? wanted.returns = some result → ¬ result.flags.contains TypeFlags.void)
    (parameters : ∀ a ∈ given.parameters, ∀ b ∈ between.parameters, ∀ c ∈ wanted.parameters,
      rel c.type b.type → rel b.type a.type → rel c.type a.type)
    (returns : rel given.returns between.returns → rel between.returns wanted.returns →
      rel given.returns wanted.returns) : table.SignatureFits rel given wanted where
  enough := by
    have := left.enough
    have := right.enough
    omega
  parameters := by
    rintro ⟨a, c⟩ mem
    obtain ⟨index, here⟩ := List.mem_iff_getElem?.mp mem
    obtain ⟨hereA, hereC⟩ := List.getElem?_zip_eq_some.mp here
    -- the middle signature has a parameter in every place in which the first one has one
    have bound : index < between.parameters.length := by
      have := (List.getElem?_eq_some_iff.mp hereA).1
      have := left.enough
      omega
    obtain ⟨b, hereB⟩ : ∃ b, between.parameters[index]? = some b := ⟨_, List.getElem?_eq_getElem bound⟩
    have ab : rel b.type a.type := left.parameters (a, b)
      (List.mem_iff_getElem?.mpr ⟨index, List.getElem?_zip_eq_some.mpr ⟨hereA, hereB⟩⟩)
    have bc : rel c.type b.type := right.parameters (b, c)
      (List.mem_iff_getElem?.mpr ⟨index, List.getElem?_zip_eq_some.mpr ⟨hereB, hereC⟩⟩)
    exact parameters a (List.mem_of_getElem? hereA) b (List.mem_of_getElem? hereB) c (List.mem_of_getElem? hereC) bc ab
  returns := by
    obtain ⟨result, found, fits⟩ := left.returns
    obtain ⟨result', found', fits'⟩ := right.returns
    have := fits.resolve_left (used result found)
    have := fits'.resolve_left (used' result' found')
    exact ⟨result', found', Or.inr (returns ‹_› ‹_›)⟩

/-- Objects are transitive where their parts are. -/
theorem ObjectFits.trans (carries : first.form.Carries first.flags) (carries' : middle.form.Carries middle.flags)
    (used : ∀ signature ∈ middle.form.signatures, ∀ result, table.find? signature.returns = some result →
      ¬ result.flags.contains TypeFlags.void)
    (used' : ∀ signature ∈ last.form.signatures, ∀ result, table.find? signature.returns = some result →
      ¬ result.flags.contains TypeFlags.void)
    (inside : ∀ a ∈ first.form.parts, ∀ b ∈ middle.form.parts, ∀ c ∈ last.form.parts,
      (rel a b → rel b c → rel a c) ∧ (rel c b → rel b a → rel c a))
    (left : table.ObjectFits rel first.form middle.form) (right : table.ObjectFits rel middle.form last.form) :
    table.ObjectFits rel first.form last.form := by
  generalize first.form = form, middle.form = form', last.form = form'' at carries carries' used used' inside left right
  obtain ⟨membersLeft, signaturesLeft⟩ := left
  obtain ⟨membersRight, signaturesRight⟩ := right
  constructor
  · intro name type mem
    obtain ⟨between, found, fits'⟩ := membersRight name type mem
    obtain ⟨_, _, same, _⟩ := List.lookup_eq_some_iff.mp found
    obtain ⟨present, found', fits⟩ := membersLeft name between (by simp [same])
    refine ⟨present, found', (inside present ?_ between ?_ type ?_).1 fits fits'⟩
    · exact TypeForm.mem_parts_of_find? found'
    · exact TypeForm.mem_parts_of_find? found
    · exact List.mem_append_left _ (List.mem_map.mpr ⟨_, mem, rfl⟩)
  · intro wanted memWanted
    obtain ⟨between, memBetween, fits'⟩ := signaturesRight wanted memWanted
    obtain ⟨given, memGiven, fits⟩ := signaturesLeft between memBetween
    have part {signature : Signature} {parameter : Parameter} (mem : parameter ∈ signature.parameters) :
        parameter.type ∈ signature.parts :=
      List.mem_append_left _ (List.mem_map.mpr ⟨parameter, mem, rfl⟩)
    have result (signature : Signature) : signature.returns ∈ signature.parts := by simp [Signature.parts]
    refine ⟨given, memGiven, fits.trans fits' (carries.2 given memGiven) (carries'.2 between memBetween)
      (used between memBetween) (used' wanted memWanted) ?_ ?_⟩
    · intro a memA b memB c memC
      exact (inside _ (TypeForm.mem_parts_of_signature memGiven (part memA))
        _ (TypeForm.mem_parts_of_signature memBetween (part memB))
        _ (TypeForm.mem_parts_of_signature memWanted (part memC))).2
    · exact (inside _ (TypeForm.mem_parts_of_signature memGiven (result given))
        _ (TypeForm.mem_parts_of_signature memBetween (result between))
        _ (TypeForm.mem_parts_of_signature memWanted (result wanted))).1

/-- Types that are no unions are transitive where their parts are. -/
theorem PlainlyFits.trans (orderly : table.Orderly) (found : table.find? x = some first)
    (found' : table.find? y = some middle) (found'' : table.find? z = some last) (tight : table.Airtight y)
    (tight' : table.Airtight z) (inside : ∀ a ∈ first.form.parts, ∀ b ∈ middle.form.parts, ∀ c ∈ last.form.parts,
      (rel a b → rel b c → rel a c) ∧ (rel c b → rel b a → rel c a))
    (left : table.PlainlyFits strict rel first middle) (right : table.PlainlyFits strict rel middle last) :
    table.PlainlyFits strict rel first last := by
  have carries := orderly.regular found
  have carries' := orderly.regular found'
  have carries'' := orderly.regular found''
  cases right with
  | direct flags => exact .direct (left.direct_of_direct orderly found found' found'' (tight.not_any found') flags)
  | literal same =>
    cases left with
    | direct flags => exact .direct (flags_eq_of_literal carries' carries'' same ▸ flags)
    | literal same' =>
      obtain ⟨equal, _, _⟩ := sameLiteral?_eq_some_true_iff.mp same'
      exact .literal (equal ▸ same)
    | object fits =>
      obtain ⟨_, literal, _⟩ := sameLiteral?_eq_some_true_iff.mp same
      generalize first.form = form, middle.form = form' at fits literal
      cases fits
      simp [TypeForm.isLiteral] at literal
  | object fits =>
    cases left with
    | direct flags => exact .direct (flags_eq_of_object carries' carries'' fits ▸ flags)
    | literal same =>
      obtain ⟨equal, _, _⟩ := sameLiteral?_eq_some_true_iff.mp same
      exact .object (equal ▸ fits)
    | object fits' =>
      exact .object (fits'.trans carries carries' (tight.used y middle .refl found') (tight'.used z last .refl found'')
        inside fits)

/-! ### All types -/

/-- Types that lead to nothing that fits by exception fit transitively. -/
theorem Orderly.fits_trans (orderly : table.Orderly) (tightX : table.Airtight x) (tightY : table.Airtight y)
    (tightZ : table.Airtight z) (xy : table.StructurallyFits strict x y) (yz : table.StructurallyFits strict y z) :
    table.StructurallyFits strict x z := by
  induction h : x.index + y.index + z.index using Nat.strong_induction_on generalizing x y z with
  | _ size ih =>
    by_cases sameXY : x = y
    · rw [sameXY]
      exact yz
    by_cases sameYZ : y = z
    · rw [← sameYZ]
      exact xy
    obtain ⟨first, foundX⟩ := exists_find? (xy.inside sameXY).1
    obtain ⟨middle, foundY⟩ := exists_find? (yz.inside sameYZ).1
    obtain ⟨last, foundZ⟩ := exists_find? (yz.inside sameYZ).2
    have smallX := orderly.grounded foundX
    have smallY := orderly.grounded foundY
    have smallZ := orderly.grounded foundZ
    rcases first.form.union_or_plain with ⟨types, form⟩ | plainX
    · rw [orderly.fits_union_iff foundX form foundY] at xy
      rw [orderly.fits_union_iff foundX form foundZ]
      intro part mem
      have inner : part ∈ first.form.parts := by rw [form]; exact mem
      have := smallX part inner
      exact ih _ (by omega) (tightX.part foundX inner) tightY tightZ (xy part mem) yz rfl
    rcases middle.form.union_or_plain with ⟨types, form⟩ | plainY
    · rw [orderly.fits_union_iff foundY form foundZ] at yz
      rcases (orderly.fits_into_union_iff foundX plainX foundY form).mp xy with free | ⟨part, mem, fits⟩
      · have direct := TypeFlags.fitsByFlags_of_union strict _ (orderly.mem_kinds foundX) free _
          (orderly.mem_kinds foundZ)
        exact orderly.fits_of_flags foundX foundZ (by simp [fitsDirectly, direct])
      · have inner : part ∈ middle.form.parts := by rw [form]; exact mem
        have := smallY part inner
        exact ih _ (by omega) tightX (tightY.part foundY inner) tightZ fits (yz part mem) rfl
    have left := ((orderly.fits_plain_iff foundX foundY plainX plainY).mp xy).resolve_left sameXY
    by_cases direct : fitsDirectly strict middle.flags last.flags
    · exact orderly.fits_of_flags foundX foundZ
        (left.direct_of_direct orderly foundX foundY foundZ (tightY.not_any foundY) direct)
    rcases last.form.union_or_plain with ⟨types, form⟩ | plainZ
    · rcases (orderly.fits_into_union_iff foundY plainY foundZ form).mp yz with free | ⟨part, mem, fits⟩
      · rw [orderly.flags_of_union foundZ form] at direct
        simp [fitsDirectly, free] at direct
      · have inner : part ∈ last.form.parts := by rw [form]; exact mem
        have := smallZ part inner
        rw [orderly.fits_into_union_iff foundX plainX foundZ form]
        exact Or.inr ⟨part, mem, ih _ (by omega) tightX tightY (tightZ.part foundZ inner) xy fits rfl⟩
    have right := ((orderly.fits_plain_iff foundY foundZ plainY plainZ).mp yz).resolve_left sameYZ
    rw [orderly.fits_plain_iff foundX foundZ plainX plainZ]
    refine Or.inr (left.trans orderly foundX foundY foundZ tightY tightZ ?_ right)
    intro a memA b memB c memC
    have := smallX a memA
    have := smallY b memB
    have := smallZ c memC
    have tightA := tightX.part foundX memA
    have tightB := tightY.part foundY memB
    have tightC := tightZ.part foundZ memC
    exact ⟨fun ab bc => ih _ (by omega) tightA tightB tightC ab bc rfl,
      fun cb ba => ih _ (by omega) tightC tightB tightA cb ba rfl⟩

/-- Types are airtight that mention each other only and do not fit by exception themselves. -/
theorem airtight_of_mem (ids : List TypeId) (inside : ∀ id ∈ ids, ∀ entry ∈ table.find? id,
      ¬ entry.flags.contains TypeFlags.any ∧ (∀ part ∈ entry.form.parts, part ∈ ids) ∧
      ∀ signature ∈ entry.form.signatures, ∀ result ∈ table.find? signature.returns,
        ¬ result.flags.contains TypeFlags.void) :
    ∀ id ∈ ids, table.Airtight id := by
  intro id mem
  have stays : ∀ part, ReflTransGen table.Mentions id part → part ∈ ids := by
    intro part leads
    induction leads with
    | refl => exact mem
    | tail _ mentions ih =>
      obtain ⟨entry, found, listed⟩ := mentions
      exact (inside _ ih entry found).2.1 _ listed
  exact ⟨fun part entry leads found => (inside part (stays part leads) entry found).1,
    fun part entry leads found => (inside part (stays part leads) entry found).2.2⟩

end TypeTable

namespace Checker

variable {checker first second third : Checker} {x y z : TypeId}

/-- Where types were built from types that were there: if the types that two questions are about lead
neither to `any` nor to a signature that gives back `void`, and both have been answered with yes, the
question about their ends is answered with yes, whatever else is asked before and between them. -/
theorem answers_transitive (reached : checker.ReachedOrderly) (tightX : checker.table.Airtight x)
    (tightY : checker.table.Airtight y) (tightZ : checker.table.Airtight z)
    (early : ReflTransGen Asked checker first) (middle : ReflTransGen Asked checker second)
    (late : ReflTransGen Asked checker third) (xy : first.answerTo x y = .ok true)
    (yz : second.answerTo y z = .ok true) : third.answerTo x z = .ok true := by
  rw [reached.answers_iff early] at xy
  rw [reached.answers_iff middle] at yz
  rw [reached.answers_iff late]
  exact reached.orderly.fits_trans tightX tightY tightZ xy yz

/-- A function of one parameter, one of two parameters, and one of two parameters with a union for its
result, where `null` fits only where it is named. -/
theorem answers_transitive_functions :
    let checker := ofBlueprints true [.stringLiteral "on", .function [("a", .unknown)] ⟨10⟩,
      .function [("a", .string), ("b", .number)] .string, .union [.string, .null],
      .function [("a", ⟨10⟩), ("b", .number)] ⟨13⟩]
    checker.answerTo ⟨11⟩ ⟨12⟩ = .ok true ∧ checker.answerTo ⟨12⟩ ⟨14⟩ = .ok true ∧
      checker.answerTo ⟨11⟩ ⟨14⟩ = .ok true := by
  intro checker
  have reached : checker.ReachedOrderly := reachedOrderly_ofBlueprints true _
  let pairs : List (TypeId × TypeId) :=
    [(⟨11⟩, ⟨12⟩), (⟨12⟩, ⟨14⟩), (.string, .unknown), (⟨10⟩, .string), (.string, ⟨13⟩)]
  have fits : ∀ pair ∈ pairs, checker.table.StructurallyFits true pair.1 pair.2 :=
    TypeTable.structurallyFits_of_pairs pairs (by decide)
  have tight : ∀ id ∈ [TypeId.unknown, .string, .number, .null, ⟨10⟩, ⟨11⟩, ⟨12⟩, ⟨13⟩, ⟨14⟩],
      checker.table.Airtight id := TypeTable.airtight_of_mem _ (by decide)
  have xy : checker.answerTo ⟨11⟩ ⟨12⟩ = .ok true :=
    reached.answerTo_eq_true_iff.mpr (fits (⟨11⟩, ⟨12⟩) (by decide))
  have yz : checker.answerTo ⟨12⟩ ⟨14⟩ = .ok true :=
    reached.answerTo_eq_true_iff.mpr (fits (⟨12⟩, ⟨14⟩) (by decide))
  exact ⟨xy, yz, answers_transitive reached (tight ⟨11⟩ (by decide)) (tight ⟨12⟩ (by decide)) (tight ⟨14⟩ (by decide))
    .refl .refl .refl xy yz⟩

end Checker

end ExportLint
