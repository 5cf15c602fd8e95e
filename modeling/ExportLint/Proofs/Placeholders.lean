import Mathlib.Data.List.TakeWhile
import Mathlib.Data.String.Basic
import Mathlib.Logic.ExistsUnique
import ExportLint.Diagnostic.Message

/-!
# Placeholders

What it means for a text to be cut into holes and a tail, said without the search that cuts it: each piece
stops at the first pair of braces that ends it, and the tail has no hole. Every text is cut so in exactly one
way. A message is the pieces with the values between them, as they are, so a value is never read for holes
again; and texts are filled one after the other where no hole can begin in one and end in the other.
-/

namespace ExportLint

/-! ### The first pair -/

/-- Whether two `c` that are written after a text are the first two that stand side by side. -/
def UpToPair (c : Char) (text : List Char) : Prop :=
  ∀ before after, text ++ [c, c] = before ++ c :: c :: after → after = []

variable {c x : Char} {text before after rest : List Char}

theorem upToPair_nil (c : Char) : UpToPair c [] := by
  intro before after same
  have lengths := congrArg List.length same
  simp only [List.nil_append, List.length_append, List.length_cons, List.length_nil] at lengths
  exact List.eq_nil_of_length_eq_zero (by omega)

/-- A text stops at the first pair if what follows its first character does, and that character does not begin
a pair. -/
theorem upToPair_cons_iff : UpToPair c (x :: text) ↔
    UpToPair c text ∧ ¬ (x = c ∧ ∃ rest, text ++ [c, c] = c :: rest) := by
  constructor
  · intro stops
    constructor
    · intro before after same
      exact stops (x :: before) after (by rw [List.cons_append, same, List.cons_append])
    · rintro ⟨rfl, rest, same⟩
      have nothing := stops [] rest (by rw [List.cons_append, same, List.nil_append])
      have lengths := congrArg List.length same
      simp [nothing] at lengths
  · rintro ⟨stops, apart⟩ (_ | ⟨first, before⟩) after same
    · rw [List.cons_append, List.nil_append, List.cons.injEq] at same
      exact absurd ⟨same.1, _, same.2⟩ apart
    · rw [List.cons_append, List.cons_append, List.cons.injEq] at same
      exact stops before after same.2

/-- A text stops at the first pair, whatever is written before it, if no pair stands in that and none at the seam. -/
theorem UpToPair.append {first : List Char} (stops : UpToPair c text)
    (clear : ∀ before after, first ≠ before ++ c :: c :: after)
    (seam : ∀ before rest, first = before ++ [c] → text ++ [c, c] ≠ c :: rest) : UpToPair c (first ++ text) := by
  induction first with
  | nil => exact stops
  | cons x first ih =>
    refine upToPair_cons_iff.mpr ⟨ih ?_ ?_, ?_⟩
    · rintro before after rfl
      exact clear (x :: before) after rfl
    · rintro before rest rfl
      exact seam (x :: before) rest rfl
    · rintro ⟨rfl, rest, same⟩
      cases first with
      | nil => exact seam [] rest rfl same
      | cons y first =>
        cases same
        exact clear [] first rfl

theorem cutAtPair_eq_none_iff : cutAtPair c text = none ↔ ∀ before after, text ≠ before ++ c :: c :: after := by
  constructor
  · fun_induction cutAtPair c text with
    | case1 x y rest here => simp
    | case2 x y rest apart ih =>
      intro missing before after same
      rw [Option.map_eq_none_iff] at missing
      cases before with
      | nil =>
        simp only [List.nil_append, List.cons.injEq] at same
        exact apart ⟨same.1, same.2.1⟩
      | cons first before =>
        rw [List.cons_append, List.cons.injEq] at same
        exact ih missing before after same.2
    | case3 text short =>
      rintro - (_ | ⟨first, before⟩) after same
      · exact short _ _ _ same
      · cases before <;> exact short _ _ _ same
  · intro absent
    cases cut : cutAtPair c text with
    | none => rfl
    | some pieces => exact absurd (eq_of_cutAtPair cut) (absent pieces.1 pieces.2)

/-- A text is cut at a pair if it stops there for the first time. -/
theorem cutAtPair_eq_some_iff : cutAtPair c text = some (before, after) ↔
    text = before ++ c :: c :: after ∧ UpToPair c before := by
  constructor
  · intro cut
    refine ⟨eq_of_cutAtPair cut, ?_⟩
    fun_induction cutAtPair c text generalizing before after with
    | case1 x y rest here =>
      cases cut
      exact upToPair_nil c
    | case2 x y rest apart ih =>
      obtain ⟨⟨first, last⟩, found, same⟩ := Option.map_eq_some_iff.mp cut
      cases same
      refine upToPair_cons_iff.mpr ⟨ih found, ?_⟩
      rintro ⟨rfl, more, same⟩
      -- the second character begins what is cut off, and is no `c`
      have whole := eq_of_cutAtPair found
      cases first with
      | nil => exact apart ⟨rfl, (List.cons.inj whole).1⟩
      | cons second first => exact apart ⟨rfl, (List.cons.inj whole).1.trans (List.cons.inj same).1⟩
    | case3 => cases cut
  · rintro ⟨rfl, stops⟩
    induction before with
    | nil => simp [cutAtPair]
    | cons first before ih =>
      obtain ⟨stops, apart⟩ := upToPair_cons_iff.mp stops
      obtain ⟨second, more, same, others, same'⟩ : ∃ second more, before ++ c :: c :: after = second :: more ∧
          ∃ others, before ++ [c, c] = second :: others := by
        cases before with
        | nil => exact ⟨c, _, rfl, _, rfl⟩
        | cons second before => exact ⟨second, _, rfl, _, rfl⟩
      rw [List.cons_append, same, cutAtPair, if_neg, ← same, ih stops]
      · rfl
      · rintro ⟨rfl, rfl⟩
        exact apart ⟨rfl, others, same'⟩

theorem upToPair_iff_cutAtPair : UpToPair c text ↔ cutAtPair c (text ++ [c, c]) = some (text, []) := by
  simp [cutAtPair_eq_some_iff]

instance (c : Char) (text : List Char) : Decidable (UpToPair c text) :=
  decidable_of_iff _ upToPair_iff_cutAtPair.symm

/-- What follows any pair is the end of what follows the first one. -/
theorem suffix_of_cutAtPair (cut : cutAtPair c text = some (before, after)) {first : List Char}
    (same : text = first ++ c :: c :: rest) : rest <:+ after := by
  fun_induction cutAtPair c text generalizing before after first with
  | case1 x y others here =>
    cases cut
    rcases first with _ | ⟨_, _ | ⟨_, first⟩⟩
    · simp_all
    · simp only [List.cons_append, List.nil_append, List.cons.injEq] at same
      exact ⟨[c], same.2.2.symm⟩
    · simp only [List.cons_append, List.cons.injEq] at same
      exact ⟨first ++ [c, c], by rw [same.2.2]; simp⟩
  | case2 x y others apart ih =>
    obtain ⟨⟨_, _⟩, found, equal⟩ := Option.map_eq_some_iff.mp cut
    cases equal
    cases first with
    | nil =>
      simp only [List.nil_append, List.cons.injEq] at same
      exact absurd ⟨same.1, same.2.1⟩ apart
    | cons _ first =>
      rw [List.cons_append, List.cons.injEq] at same
      exact ih found same.2
  | case3 => cases cut

namespace Template

variable {hole : Hole} {template second : Template}

/-! ### The one way to cut a text -/

/-- Whether every piece of a template stops at the first braces that end it, and no hole is left in the tail. -/
structure Canonical (template : Template) : Prop where
  before : ∀ hole ∈ template.holes, UpToPair '{' hole.before
  key : ∀ hole ∈ template.holes, UpToPair '}' hole.key
  tail : ∀ (hole : Hole) (after : List Char), template.tail ≠ hole.before ++ hole.braces ++ after

theorem firstHole_eq_some_iff : firstHole text = some (hole, after) ↔
    text = hole.before ++ hole.braces ++ after ∧ UpToPair '{' hole.before ∧ UpToPair '}' hole.key := by
  obtain ⟨before, key⟩ := hole
  simp only [firstHole, Option.bind_eq_bind, Option.bind_eq_some_iff, Prod.exists, Option.pure_def, Option.some.injEq,
    Prod.mk.injEq, Hole.mk.injEq, cutAtPair_eq_some_iff]
  constructor
  · rintro ⟨_, inside, ⟨rfl, opens⟩, _, _, ⟨rfl, closes⟩, ⟨rfl, rfl⟩, rfl⟩
    exact ⟨by simp [Hole.braces], opens, closes⟩
  · rintro ⟨rfl, opens, closes⟩
    have whole : before ++ Hole.braces ⟨before, key⟩ ++ after =
        before ++ '{' :: '{' :: (key ++ '}' :: '}' :: after) := by simp [Hole.braces]
    exact ⟨before, _, ⟨whole, opens⟩, key, after, ⟨rfl, closes⟩, ⟨rfl, rfl⟩, rfl⟩

/-- There is no first hole where there is no hole at all: the closing braces of any hole stand behind the first
opening ones. -/
theorem firstHole_eq_none_iff :
    firstHole text = none ↔ ∀ (hole : Hole) after, text ≠ hole.before ++ hole.braces ++ after := by
  constructor
  · rintro absent hole after rfl
    have same : hole.before ++ hole.braces ++ after =
        hole.before ++ '{' :: '{' :: (hole.key ++ '}' :: '}' :: after) := by simp [Hole.braces]
    rw [same] at absent
    cases opened : cutAtPair '{' (hole.before ++ '{' :: '{' :: (hole.key ++ '}' :: '}' :: after)) with
    | none => exact cutAtPair_eq_none_iff.mp opened _ _ rfl
    | some pieces =>
      obtain ⟨more, same⟩ := suffix_of_cutAtPair opened rfl
      cases closed : cutAtPair '}' pieces.2 with
      | none =>
        refine cutAtPair_eq_none_iff.mp closed (more ++ hole.key) after ?_
        rw [← same, List.append_assoc]
      | some => simp [firstHole, opened, closed] at absent
  · intro absent
    cases found : firstHole text with
    | none => rfl
    | some first => exact absurd (eq_of_firstHole found) (absent first.1 first.2)

theorem canonical_iff : template.Canonical ↔ (∀ hole ∈ template.holes, UpToPair '{' hole.before) ∧
    (∀ hole ∈ template.holes, UpToPair '}' hole.key) ∧ firstHole template.tail = none := by
  rw [firstHole_eq_none_iff]
  exact ⟨fun canonical => ⟨canonical.before, canonical.key, canonical.tail⟩,
    fun ⟨before, key, tail⟩ => ⟨before, key, tail⟩⟩

instance (template : Template) : Decidable template.Canonical :=
  decidable_of_iff _ canonical_iff.symm

theorem ofText_of_some (found : firstHole text = some (hole, after)) :
    ofText text = ⟨hole :: (ofText after).holes, (ofText after).tail⟩ := by
  rw [ofText]
  split
  · next absent =>
    rw [found] at absent
    cases absent
  · next found' =>
    rw [found] at found'
    cases found'
    rfl

theorem ofText_of_none (absent : firstHole text = none) : ofText text = ⟨[], text⟩ := by
  rw [ofText]
  split
  · rfl
  · next found =>
    rw [absent] at found
    cases found

theorem canonical_ofText (text : List Char) : (ofText text).Canonical := by
  fun_induction ofText text with
  | case1 text absent => exact ⟨by simp, by simp, firstHole_eq_none_iff.mp absent⟩
  | case2 text hole after found _ rest ih =>
    obtain ⟨_, opens, closes⟩ := firstHole_eq_some_iff.mp found
    constructor
    · rintro other (_ | ⟨_, mem⟩)
      · exact opens
      · exact ih.before other mem
    · rintro other (_ | ⟨_, mem⟩)
      · exact closes
      · exact ih.key other mem
    · exact ih.tail

/-- A text is cut in one way only. -/
theorem Canonical.eq_ofText (canonical : template.Canonical) : template = ofText template.write := by
  obtain ⟨holes, tail⟩ := template
  induction holes with
  | nil => exact (ofText_of_none (firstHole_eq_none_iff.mpr canonical.tail)).symm
  | cons hole holes ih =>
    have rest : Canonical ⟨holes, tail⟩ :=
      ⟨fun other mem => canonical.before other (List.mem_cons_of_mem _ mem),
        fun other mem => canonical.key other (List.mem_cons_of_mem _ mem), canonical.tail⟩
    have whole : write ⟨hole :: holes, tail⟩ = hole.before ++ hole.braces ++ write ⟨holes, tail⟩ := by
      simp [write]
    have found := firstHole_eq_some_iff.mpr ⟨whole, canonical.before hole List.mem_cons_self,
      canonical.key hole List.mem_cons_self⟩
    rw [ofText_of_some found, ← ih rest]

/-! ### One text after the other -/

/-- The template of a text that is written after another one: the tail of the first goes before the first hole
of the second. -/
def join (first second : Template) : Template :=
  match second.holes with
  | [] => ⟨first.holes, first.tail ++ second.tail⟩
  | hole :: rest => ⟨first.holes ++ { hole with before := first.tail ++ hole.before } :: rest, second.tail⟩

theorem write_join : (template.join second).write = template.write ++ second.write := by
  obtain ⟨_ | ⟨hole, rest⟩, tail⟩ := second <;> simp [join, write, Hole.braces]

theorem fill_join (value? : List Char → Option (List Char)) :
    (template.join second).fill value? = template.fill value? ++ second.fill value? := by
  obtain ⟨_ | ⟨hole, rest⟩, tail⟩ := second <;> simp [join, fill, Hole.braces]

/-- A text that leaves no braces open may be cut before the text after it is known. -/
theorem Canonical.join (first : template.Canonical) (last : second.Canonical)
    (closed : ∀ before after, template.tail ≠ before ++ '{' :: '{' :: after)
    (seam : ∀ before rest, template.tail = before ++ ['{'] → second.write ≠ '{' :: rest) :
    (template.join second).Canonical := by
  obtain ⟨_ | ⟨hole, rest⟩, tail⟩ := second
  · refine ⟨first.before, first.key, ?_⟩
    rintro hole after same
    have whole : template.tail ++ tail = hole.before ++ '{' :: '{' :: (hole.key ++ '}' :: '}' :: after) := by
      rw [show template.tail ++ tail = _ from same]
      simp [Hole.braces]
    rcases List.append_eq_append_iff.mp whole with ⟨between, before, inside⟩ | ⟨between, before, inside⟩
    · exact last.tail ⟨between, hole.key⟩ after (inside.trans (by simp [Hole.braces]))
    · rcases between with _ | ⟨x, _ | ⟨y, more⟩⟩
      · exact last.tail ⟨[], hole.key⟩ after (by simpa [Hole.braces] using inside.symm)
      · obtain ⟨rfl, inside⟩ := List.cons.inj inside
        exact seam hole.before _ before (by simpa [write] using inside.symm)
      · simp only [List.cons_append, List.cons.injEq] at inside
        obtain ⟨rfl, rfl, _⟩ := inside
        exact closed hole.before more before
  · have opens : UpToPair '{' (template.tail ++ hole.before) := by
      refine (last.before hole List.mem_cons_self).append closed ?_
      intro before more ends begins
      refine seam before (more ++ hole.key ++ '}' :: '}' :: write ⟨rest, tail⟩) ends ?_
      rw [List.append_assoc, ← List.cons_append, ← begins]
      simp [write, Hole.braces]
    constructor
    · intro other mem
      rcases List.mem_append.mp mem with old | (_ | ⟨_, later⟩)
      · exact first.before other old
      · exact opens
      · exact last.before other (List.mem_cons_of_mem _ later)
    · intro other mem
      rcases List.mem_append.mp mem with old | (_ | ⟨_, later⟩)
      · exact first.key other old
      · exact last.key hole List.mem_cons_self
      · exact last.key other (List.mem_cons_of_mem _ later)
    · exact last.tail

end Template

/-! ### Keys -/

/-- Whether a text is a word with nothing but blank characters around it. -/
def Pads (text word : List Char) : Prop :=
  ∃ left right, (∀ c ∈ left, isBlank c) ∧ (∀ c ∈ right, isBlank c) ∧ text = left ++ word ++ right

theorem pads_trimBlank (text : List Char) : Pads text (trimBlank text) := by
  let body := text.dropWhile isBlank
  refine ⟨text.takeWhile isBlank, (body.reverse.takeWhile isBlank).reverse, fun _ => List.mem_takeWhile_imp, ?_, ?_⟩
  · intro c mem
    exact List.mem_takeWhile_imp (List.mem_reverse.mp mem)
  · have inner : trimBlank text ++ (body.reverse.takeWhile isBlank).reverse = body := by
      rw [trimBlank, ← List.reverse_append, List.takeWhile_append_dropWhile, List.reverse_reverse]
    rw [List.append_assoc, inner, List.takeWhile_append_dropWhile]

theorem dropWhile_isBlank_append {blanks text : List Char} (blank : ∀ c ∈ blanks, isBlank c)
    (begins : ∀ c ∈ text.head?, ¬ isBlank c) : (blanks ++ text).dropWhile isBlank = text := by
  rw [List.dropWhile_append_of_pos blank]
  cases text with
  | nil => rfl
  | cons c text => exact List.dropWhile_cons_of_neg (begins c rfl)

/-- Trimming a text leaves a word that neither begins nor ends with a blank character exactly if the text is that
word with blank characters around it. -/
theorem trimBlank_eq_iff {word : List Char} (nonempty : word ≠ []) (begins : ∀ c ∈ word.head?, ¬ isBlank c)
    (ends : ∀ c ∈ word.getLast?, ¬ isBlank c) : trimBlank text = word ↔ Pads text word := by
  constructor
  · rintro rfl
    exact pads_trimBlank text
  · rintro ⟨left, right, blank, blank', rfl⟩
    have begins' : ∀ c ∈ (word ++ right).head?, ¬ isBlank c := by
      rwa [List.head?_append_of_ne_nil word nonempty]
    have blanks : ∀ c ∈ right.reverse, isBlank c := fun c mem => blank' c (List.mem_reverse.mp mem)
    rw [trimBlank, List.append_assoc, dropWhile_isBlank_append blank begins', List.reverse_append,
      dropWhile_isBlank_append blanks (by rwa [List.head?_reverse]), List.reverse_reverse]

namespace Payload

variable {payload : Payload} {key : List Char} {hole : Hole} {value : String}

/-- The value that a payload has for a key. -/
inductive Fills (payload : Payload) : List Char → String → Prop
  | exportName {key : List Char} {name : String} (present : payload.exportName = some name)
    (pads : Pads key "exportName".toList) : Fills payload key name
  | typeName {key : List Char} (pads : Pads key "typeName".toList) : Fills payload key payload.typeName

/-- What stands for a hole in a message: the value for its key as it is, or the hole as it was written. -/
inductive Shows (payload : Payload) (hole : Hole) : List Char → Prop
  | value {value : String} (fills : payload.Fills hole.key value) : Shows payload hole value.toList
  | written (nothing : ∀ value, ¬ payload.Fills hole.key value) : Shows payload hole hole.braces

/-- The message of a template: its pieces as they are, with what stands for each hole after the piece before it. -/
inductive Renders (payload : Payload) : Template → List Char → Prop
  | tail (tail : List Char) : Renders payload ⟨[], tail⟩ tail
  | hole {hole : Hole} {holes : List Hole} {tail shown rest : List Char} (shows : payload.Shows hole shown)
    (rendered : Renders payload ⟨holes, tail⟩ rest) :
    Renders payload ⟨hole :: holes, tail⟩ (hole.before ++ shown ++ rest)

/-- Looking up a trimmed key gives the values that the payload has for the key. -/
theorem value?_trimBlank : payload.value? (String.ofList (trimBlank key)) = some value ↔ payload.Fills key value := by
  have first : String.ofList (trimBlank key) = "exportName" ↔ Pads key "exportName".toList :=
    String.ofList_eq.trans (trimBlank_eq_iff (by decide) (by rintro c ⟨⟩; decide) (by rintro c ⟨⟩; decide))
  have second : String.ofList (trimBlank key) = "typeName" ↔ Pads key "typeName".toList :=
    String.ofList_eq.trans (trimBlank_eq_iff (by decide) (by rintro c ⟨⟩; decide) (by rintro c ⟨⟩; decide))
  rw [value?]
  constructor
  · intro found
    split at found
    · next named => exact .exportName found (first.mp named)
    · split at found
      · next named =>
        cases found
        exact .typeName (second.mp named)
      · cases found
  · rintro (⟨present, pads⟩ | ⟨pads⟩)
    · rw [if_pos (first.mpr pads), present]
    · have named := second.mpr pads
      rw [named, if_neg (by decide), if_pos rfl]

/-- What a template is filled with. -/
def values (payload : Payload) (key : List Char) : Option (List Char) :=
  (payload.value? (String.ofList key)).map String.toList

/-- What stands for a hole, as it is looked up. -/
theorem shows_iff {shown : List Char} : payload.Shows hole shown ↔
    shown = (payload.values (trimBlank hole.key)).getD hole.braces := by
  rw [values]
  constructor
  · rintro (fills | nothing)
    · rw [value?_trimBlank.mpr fills]
      rfl
    · have missing : payload.value? (String.ofList (trimBlank hole.key)) = none :=
        Option.eq_none_iff_forall_ne_some.mpr fun value found => nothing value (value?_trimBlank.mp found)
      rw [missing]
      rfl
  · rintro rfl
    cases found : payload.value? (String.ofList (trimBlank hole.key)) with
    | some value => exact .value (value?_trimBlank.mp found)
    | none =>
      refine .written fun value fills => ?_
      rw [value?_trimBlank.mpr fills] at found
      cases found

theorem renders_iff {template : Template} {filled : List Char} :
    payload.Renders template filled ↔ filled = template.fill payload.values := by
  obtain ⟨holes, tail⟩ := template
  induction holes generalizing filled with
  | nil =>
    constructor
    · rintro ⟨⟩
      rfl
    · rintro rfl
      exact .tail _
  | cons hole holes ih =>
    have whole : Template.fill ⟨hole :: holes, tail⟩ payload.values =
        hole.before ++ (payload.values (trimBlank hole.key)).getD hole.braces ++
          Template.fill ⟨holes, tail⟩ payload.values := by
      simp [Template.fill]
    rw [whole]
    constructor
    · rintro (_ | ⟨shows, rendered⟩)
      rw [shows_iff.mp shows, ih.mp rendered]
    · rintro rfl
      exact .hole (shows_iff.mpr rfl) (ih.mpr rfl)

end Payload

namespace Message

theorem format_eq (text : String) (payload : Payload) :
    format text payload = String.ofList ((Template.ofText text.toList).fill payload.values) :=
  rfl

/-- A text has exactly one template whose pieces stop at the first braces that end them and whose tail has no hole.
A message of the text is what that template renders to. It is the text itself if no hole has a value, and the
message of a text that leaves no braces open may be followed by that of any text, unless braces meet at the seam. -/
theorem format_eq_specification (text : String) (payload : Payload) :
    (∃! template : Template, template.Canonical ∧ template.write = text.toList) ∧
    ∀ template : Template, template.Canonical → template.write = text.toList →
      (∀ filled, payload.Renders template filled ↔ filled = (format text payload).toList) ∧
      ((∀ hole ∈ template.holes, ∀ value, ¬ payload.Fills hole.key value) → format text payload = text) ∧
      ∀ second : String, (∀ before after, template.tail ≠ before ++ '{' :: '{' :: after) →
        (∀ before after, text.toList = before ++ ['{'] → second.toList ≠ '{' :: after) →
        format (text ++ second) payload = format text payload ++ format second payload := by
  refine ⟨⟨Template.ofText text.toList, ⟨Template.canonical_ofText _, Template.write_ofText _⟩, ?_⟩, ?_⟩
  · rintro other ⟨canonical, same⟩
    rw [← same]
    exact canonical.eq_ofText
  intro template canonical same
  have cut : Template.ofText text.toList = template := by
    rw [← same]
    exact canonical.eq_ofText.symm
  have filled : format text payload = String.ofList (template.fill payload.values) := by
    rw [format_eq, cut]
  refine ⟨?_, ?_, ?_⟩
  · intro shown
    rw [filled, String.toList_ofList]
    exact Payload.renders_iff
  · intro nothing
    have written : template.fill payload.values = template.write := by
      rw [Template.fill, Template.write]
      congr 1
      refine List.flatMap_congr fun hole mem => ?_
      rw [← Payload.shows_iff.mp (.written (nothing hole mem))]
    rw [filled, written, same, String.ofList_toList]
  · intro second closed seam
    have last := Template.canonical_ofText second.toList
    have whole : (template.join (Template.ofText second.toList)).write = (text ++ second).toList := by
      rw [Template.write_join, same, Template.write_ofText, String.toList_append]
    have joined : (template.join (Template.ofText second.toList)).Canonical := by
      refine canonical.join last closed ?_
      intro before rest ends
      rw [Template.write_ofText]
      refine seam (template.holes.flatMap (fun hole => hole.before ++ hole.braces) ++ before) rest ?_
      rw [← same, Template.write, ends, List.append_assoc]
    rw [format_eq, ← whole, ← joined.eq_ofText, Template.fill_join, String.ofList_append, filled, format_eq]

/-- A value that is itself written as a hole stays as it is, also where more text follows. -/
theorem format_eq_specification_nested :
    let payload : Payload := { typeName := "\x7b\x7b exportName \x7d\x7d" }
    let text := "type \x7b\x7b typeName \x7d\x7d"
    format text payload = "type \x7b\x7b exportName \x7d\x7d" ∧
      format (text ++ " of \x7b\x7b other") payload = format text payload ++ format " of \x7b\x7b other" payload := by
  intro payload text
  have cut := (format_eq_specification text payload).2
  obtain ⟨renders, _, follows⟩ := cut ⟨[⟨"type ".toList, " typeName ".toList⟩], []⟩ (by decide) (by decide)
  have blank : ∀ c ∈ [' '], isBlank c := by
    intro c mem
    rw [List.mem_singleton.mp mem]
    rfl
  have pads : Pads " typeName ".toList "typeName".toList := ⟨[' '], [' '], blank, blank, by decide⟩
  constructor
  · have rendered := (renders _).mp (.hole (.value (.typeName pads)) (.tail []))
    exact String.toList_injective (rendered.symm.trans (by decide))
  · refine follows _ (cutAtPair_eq_none_iff.mp rfl) ?_
    intro before after ends
    have last : text.toList.getLast? = some '{' := by
      rw [ends]
      simp
    exact absurd last (by decide)

end Message

end ExportLint
