import ExportLint.Proofs.MapReaders

/-!
# Values that are accepted as options

Which JSON values a type map is read from. Options are documented as an object of type names, alone or as the
only element of a list, or as the empty list. The reader accepts these, and it accepts them inside any number of
further lists of one element as well, since it looks into such a list as it looks at the options themselves.
-/

namespace ExportLint

namespace Json

/-- Whether a value is an object all of whose fields are strings. -/
def NamesTypes : Json → Prop
  | object fields => ∀ field ∈ fields, ∃ typeName, field.2 = string typeName
  | _ => False

/-- Whether a value is documented as options: an object of type names, the empty list, or a list of exactly one
such object. -/
def IsOptions (value : Json) : Prop :=
  value.NamesTypes ∨ value = array [] ∨ ∃ options, value = array [options] ∧ options.NamesTypes

/-- A value inside a number of lists of one element each. -/
def boxed (value : Json) : Nat → Json
  | 0 => value
  | depth + 1 => array [value.boxed depth]

/-- Only the value itself and the value in one list are no list in a list. -/
theorem boxed_cases {value core : Json} {depth : Nat} (same : value = core.boxed depth) :
    value = core ∨ value = array [core] ∨ ∃ rest, value = array [array [core.boxed rest]] := by
  cases depth with
  | zero => exact .inl same
  | succ depth =>
    cases depth with
    | zero => exact .inr (.inl same)
    | succ rest => exact .inr (.inr ⟨rest, same⟩)

theorem NamesTypes.not_array {items : List Json} : ¬ (array items).NamesTypes :=
  id

end Json

namespace TypeMap

open Json

variable {value : Json}

theorem exists_ofJson_object_iff {fields : List (String × Json)} :
    (∃ map, ofJson (.object fields) = .ok map) ↔ (Json.object fields).NamesTypes := by
  rw [Json.NamesTypes, fields_hold_strings_iff, ofJson]
  constructor
  · rintro ⟨map, read⟩
    cases typed : fields.mapM typeNameOfField with
    | error fault =>
      rw [typed] at read
      cases read
    | ok entries => exact ⟨entries, mapM_typeNameOfField_eq_ok_iff.mp typed⟩
  · rintro ⟨entries, same⟩
    refine ⟨ofList entries, ?_⟩
    rw [mapM_typeNameOfField_eq_ok_iff.mpr same]
    rfl

/-- A list of one element is read as its element is. -/
theorem ofJson_boxed (core : Json) (depth : Nat) : ofJson (core.boxed depth) = ofJson core := by
  induction depth with
  | zero => rfl
  | succ depth ih => rw [boxed, ofJson, ih]

/-- What is accepted is an object of type names or an empty list, in any number of lists of one element. -/
theorem accepted_iff : (∃ map, ofJson value = .ok map) ↔
    ∃ depth core, value = Json.boxed core depth ∧ (core.NamesTypes ∨ core = .array []) := by
  constructor
  · rintro ⟨map, read⟩
    induction value using ofJson.induct with
    | case1 fields => exact ⟨0, .object fields, rfl, .inl (exists_ofJson_object_iff.mp ⟨map, read⟩)⟩
    | case2 => exact ⟨0, .array [], rfl, .inr rfl⟩
    | case3 options ih =>
      rw [ofJson] at read
      obtain ⟨depth, core, rfl, kind⟩ := ih read
      exact ⟨depth + 1, core, rfl, kind⟩
    | case4 items several many =>
      rw [ofJson] at read
      · cases read
      · exact several
      · exact many
    | case5 other noObject noEmpty noSingle noList =>
      rw [ofJson] at read
      · cases read
      · exact noObject
      · exact noEmpty
      · exact noSingle
      · exact noList
  · rintro ⟨depth, core, rfl, kind⟩
    rw [ofJson_boxed]
    rcases kind with strings | rfl
    · cases core with
      | object fields => exact exists_ofJson_object_iff.mpr strings
      | _ => exact strings.elim
    · exact ⟨empty, by rw [ofJson]⟩

/-- What is documented is accepted. -/
theorem accepted_of_isOptions (documented : value.IsOptions) : ∃ map, ofJson value = .ok map := by
  rw [accepted_iff]
  rcases documented with strings | rfl | ⟨options, rfl, strings⟩
  · exact ⟨0, value, rfl, .inl strings⟩
  · exact ⟨0, .array [], rfl, .inr rfl⟩
  · exact ⟨1, options, rfl, .inl strings⟩

/-- Of all values the reader accepts exactly the boxed ones; this agrees with what is documented at every value but
those that are accepted although they are a list whose only element is a list. -/
theorem accepts_documented_iff (value : Json) :
    ((∃ map, ofJson value = .ok map) ↔
      ∃ depth core, value = Json.boxed core depth ∧ (core.NamesTypes ∨ core = .array [])) ∧
    (((∃ map, ofJson value = .ok map) ↔ value.IsOptions) ↔
      ¬ ∃ items map, value = .array [.array items] ∧ ofJson value = .ok map) := by
  refine ⟨accepted_iff, ?_⟩
  constructor
  · rintro agree ⟨items, map, rfl, read⟩
    rcases agree.mp ⟨map, read⟩ with strings | empty | ⟨options, same, strings⟩
    · exact NamesTypes.not_array strings
    · cases empty
    · cases same
      exact NamesTypes.not_array strings
  · intro plain
    refine ⟨fun accepted => ?_, accepted_of_isOptions⟩
    obtain ⟨map, read⟩ := accepted
    obtain ⟨depth, core, same, kind⟩ := accepted_iff.mp ⟨map, read⟩
    rcases boxed_cases same with rfl | rfl | ⟨rest, nested⟩
    · rcases kind with strings | empty
      · exact .inl strings
      · exact .inr (.inl empty)
    · rcases kind with strings | rfl
      · exact .inr (.inr ⟨core, rfl, strings⟩)
      · exact absurd ⟨[], map, rfl, read⟩ plain
    · exact absurd ⟨[core.boxed rest], map, nested, read⟩ plain

/-- An object of type names inside two lists is read as the object itself, although it is not documented. -/
theorem not_documented_nested :
    let object := Json.object [("*", .string "number")]
    ofJson (.array [.array [object]]) = .ok (ofList [("*", "number")]) ∧
      ¬ ((∃ map, ofJson (.array [.array [object]]) = .ok map) ↔ (Json.array [.array [object]]).IsOptions) := by
  intro object
  have read : ofJson (.array [.array [object]]) = .ok (ofList [("*", "number")]) := rfl
  refine ⟨read, fun agree => ?_⟩
  rcases agree.mp ⟨_, read⟩ with strings | empty | ⟨options, same, strings⟩
  · exact strings
  · cases empty
  · cases same
    exact strings

end TypeMap

end ExportLint
