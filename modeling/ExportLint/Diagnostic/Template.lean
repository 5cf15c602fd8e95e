import ExportLint.Text.Blank

/-!
# Message templates

A template is text with holes such as `{{ key }}`. A hole begins at the first pair of opening braces
and ends at the first pair of closing braces after it; text without a complete hole is the tail.
Writing a template gives back the text it was read from, and filling it replaces each hole whose
trimmed key has a value.
-/

namespace ExportLint

/-- The text before the first two neighbouring `c` and the text after them. -/
def cutAtPair (c : Char) : List Char → Option (List Char × List Char)
  | x :: y :: rest =>
    if x = c ∧ y = c then some ([], rest)
    else (cutAtPair c (y :: rest)).map fun (before, after) => (x :: before, after)
  | _ => none

theorem eq_of_cutAtPair {c : Char} {text before after : List Char}
    (cut : cutAtPair c text = some (before, after)) : text = before ++ c :: c :: after := by
  fun_induction cutAtPair c text generalizing before after with
  | case1 x y rest here => simp_all
  | case2 x y rest _ ih =>
    obtain ⟨⟨first, last⟩, found, same⟩ := Option.map_eq_some_iff.mp cut
    simp only [Prod.mk.injEq] at same
    obtain ⟨rfl, rfl⟩ := same
    simp [ih found]
  | case3 => simp at cut

/-- A hole: the text between the previous hole and this one, and what stands between its braces. -/
structure Hole where
  before : List Char
  key : List Char
  deriving Repr, DecidableEq

/-- The form in which a hole is written, without the text before it. -/
def Hole.braces (hole : Hole) : List Char :=
  '{' :: '{' :: hole.key ++ ['}', '}']

/-- A text cut into its holes and the tail after the last of them. -/
structure Template where
  holes : List Hole
  tail : List Char
  deriving Repr, DecidableEq

namespace Template

/-- The first hole of a text and the text after it. -/
def firstHole (text : List Char) : Option (Hole × List Char) := do
  let (before, inside) ← cutAtPair '{' text
  let (key, after) ← cutAtPair '}' inside
  return (⟨before, key⟩, after)

theorem eq_of_firstHole {text after : List Char} {hole : Hole} (found : firstHole text = some (hole, after)) :
    text = hole.before ++ hole.braces ++ after := by
  simp only [firstHole, Option.bind_eq_bind, Option.bind_eq_some_iff, Prod.exists, Option.pure_def,
    Option.some.injEq, Prod.mk.injEq] at found
  obtain ⟨before, inside, opened, key, rest, closed, rfl, rfl⟩ := found
  simp [Hole.braces, eq_of_cutAtPair opened, eq_of_cutAtPair closed]

theorem length_lt_of_firstHole {text after : List Char} {hole : Hole}
    (found : firstHole text = some (hole, after)) : after.length < text.length := by
  rw [eq_of_firstHole found]
  simp [Hole.braces]
  omega

/-- The template that a text stands for. -/
def ofText (text : List Char) : Template :=
  match found : firstHole text with
  | none => ⟨[], text⟩
  | some (hole, after) =>
    have := length_lt_of_firstHole found
    let rest := ofText after
    ⟨hole :: rest.holes, rest.tail⟩
termination_by text.length

/-- The text that a template is read from. -/
def write (template : Template) : List Char :=
  template.holes.flatMap (fun hole => hole.before ++ hole.braces) ++ template.tail

/-- The text in which each hole whose trimmed key has a value is replaced by that value. -/
def fill (template : Template) (value? : List Char → Option (List Char)) : List Char :=
  template.holes.flatMap (fun hole => hole.before ++ (value? (trimBlank hole.key)).getD hole.braces) ++
    template.tail

theorem write_ofText (text : List Char) : (ofText text).write = text := by
  fun_induction ofText text with
  | case1 text _ => simp [write]
  | case2 text hole after found _ rest ih =>
    rw [write] at ih ⊢
    simp only [List.flatMap_cons]
    rw [List.append_assoc, ih, ← eq_of_firstHole found]

end Template

end ExportLint
