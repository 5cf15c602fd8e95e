import ExportLint.Json.Reader

/-!
# Type maps

Which type each export must satisfy: names of exports, or `*` for all others, with names of types.
A type map is read from JSON text or from a JSON value, alone or as the only element of the list of
options that lint hosts pass, and written as a JSON object.
-/

namespace ExportLint

/-- Names of exports with names of types, in the order of the exports' names. -/
structure TypeMap where
  entries : List (String × String)
  ascending : Keyed.Ascending entries
  deriving DecidableEq

/-- Why options are refused. -/
inductive OptionsFault where
  /-- The text is not JSON. -/
  | notJson (refusal : Json.Refusal) (text : String)
  /-- A value of the given kind stands where the map is wanted. -/
  | notAnObject (kind : String)
  /-- A value of the given kind stands where a type name is wanted. -/
  | notATypeName (exportName kind : String)
  /-- The list of options has several elements. -/
  | tooMany (count : Nat)
  deriving Repr, DecidableEq

/-- The wording of a fault in options. -/
def OptionsFault.message : OptionsFault → String
  | notJson refusal text => s!"invalid rule options: {refusal.describe text}"
  | notAnObject kind => s!"rule options must be an object of export names to type names, found {kind}"
  | notATypeName exportName kind => s!"expected a type name string for export \"{exportName}\", found {kind}"
  | tooMany count => s!"expected at most one options object, found {count}"

namespace TypeMap

/-- The name that stands for all exports without an entry of their own. -/
def wildcardName : String :=
  "*"

/-- The map without entries. -/
def empty : TypeMap :=
  ⟨[], List.Pairwise.nil⟩

/-- The map in which an export has the given type. -/
def insert (map : TypeMap) (exportName typeName : String) : TypeMap :=
  ⟨Keyed.insert exportName typeName map.entries, Keyed.ascending_insert exportName typeName map.ascending⟩

/-- The map in which all other exports have the given type. -/
def insertWildcard (map : TypeMap) (typeName : String) : TypeMap :=
  map.insert wildcardName typeName

/-- The map of entries written one after the other; the last one of a name counts. -/
def ofList (written : List (String × String)) : TypeMap :=
  ⟨Keyed.ofList written, Keyed.ascending_ofList written⟩

/-- How many entries there are. -/
def size (map : TypeMap) : Nat :=
  map.entries.length

/-- Whether there is no entry. -/
def isEmpty (map : TypeMap) : Bool :=
  map.entries.isEmpty

/-- The type of an entry, where an empty type name counts as none. -/
def find? (map : TypeMap) (name : String) : Option String :=
  (map.entries.lookup name).filter fun typeName => !typeName.isEmpty

/-- The type for all exports without an entry of their own. -/
def wildcard? (map : TypeMap) : Option String :=
  map.find? wildcardName

/-- The type that an export must satisfy: that of its own entry, else that of all others. -/
def expectedType? (map : TypeMap) (exportName : String) : Option String :=
  (map.find? exportName).or map.wildcard?

/-- The map as a JSON object. -/
def toJson (map : TypeMap) : Json :=
  .object (map.entries.map fun (name, typeName) => (name, .string typeName))

/-- The type name that a field of an options object gives. -/
def typeNameOfField : String × Json → Except OptionsFault (String × String)
  | (name, .string typeName) => .ok (name, typeName)
  | (name, value) => .error (.notATypeName name value.kindText)

/-- Reads a map from a JSON value: an object of type names, or a list that holds at most one value to
read it from. -/
def ofJson : Json → Except OptionsFault TypeMap
  | .object fields => ofList <$> fields.mapM typeNameOfField
  | .array [] => .ok empty
  | .array [options] => ofJson options
  | .array items => .error (.tooMany items.length)
  | value => .error (.notAnObject value.kindText)

/-- Reads a map from JSON text. -/
def ofText (text : String) : Except OptionsFault TypeMap :=
  match Json.parse text with
  | .ok value => ofJson value
  | .error refusal => .error (.notJson refusal text)

/-- Reads what stands where a value of another kind is wanted: to its end, unless it opens a list or
an object, before it is refused. -/
def refuseKind {α : Type} (c : Char) (text : List Char) : Except Json.Refusal α := do
  if c = '[' ∨ c = '{' then throw (.next (c :: text) .wrongKind)
  else
    let (_, rest) ← Json.readScalar c text
    throw (.here rest.1 .wrongKind)

/-- Reads a string where nothing else is wanted. -/
def readTypeName : Json.ItemReader String := fun text =>
  match Json.firstMark? text with
  | none => .error (.next [] .endInValue)
  | some (c, after) =>
    if c = '"' then do
      let (chars, last) ← Json.readString after.1
      return (String.ofList chars, Json.Rest.trans after (Json.Rest.tail last))
    else refuseKind c after.1

/-- Reads an object of strings where nothing else is wanted. -/
def readEntries : Json.ItemReader (List (String × String)) := fun text =>
  match Json.firstMark? text with
  | none => .error (.next [] .endInValue)
  | some (c, after) =>
    if c = '{' then do
      let (entries, last) ← Json.readObject readTypeName after.1
      return (entries, Json.Rest.trans after (Json.Rest.tail last))
    else refuseKind c after.1

/-- Reads a map straight from the text of a JSON object, and stops at the first thing that does not
belong there. -/
def ofObjectText (text : String) : Except Json.Refusal TypeMap :=
  ofList <$> Json.readAll readEntries text

theorem find?_insert (map : TypeMap) (name other typeName : String) :
    (map.insert name typeName).find? other =
      if other = name then (some typeName).filter (fun typeName => !typeName.isEmpty) else map.find? other := by
  rw [find?, insert, Keyed.lookup_insert]
  split <;> rfl

end TypeMap

end ExportLint
