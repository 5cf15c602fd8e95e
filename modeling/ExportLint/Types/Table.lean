import ExportLint.Fault
import ExportLint.Flags
import ExportLint.Numeric.Double

/-!
# Type tables

The types of a program, each an entry of a table under the number by which other entries refer to
it. Entries may refer to later entries and to themselves. The first ten entries are the intrinsic
types; an alias is a copy of an entry under a name of its own.
-/

namespace ExportLint

/-- The number of a type in its table. -/
structure TypeId where
  index : Nat
  deriving Repr, DecidableEq

namespace TypeId

/-- The number that no type has. -/
def invalid : TypeId :=
  ⟨4294967295⟩

/-- The form in which a number is shown. -/
def text (id : TypeId) : String :=
  s!"TypeId({id.index})"

end TypeId

/-- The members of an object type in the order of their first mention; no name occurs twice. -/
structure Members where
  entries : List (String × TypeId)
  nodup : (entries.map (·.1)).Nodup
  deriving Repr, DecidableEq

namespace Members

/-- Entries in which a name has a type: at its old place, or else at the end. -/
def put (name : String) (type : TypeId) : List (String × TypeId) → List (String × TypeId)
  | [] => [(name, type)]
  | (other, old) :: rest => if other = name then (name, type) :: rest else (other, old) :: put name type rest

theorem mem_put {name other : String} {type : TypeId} {entries : List (String × TypeId)} :
    other ∈ (put name type entries).map (·.1) ↔ other = name ∨ other ∈ entries.map (·.1) := by
  induction entries with
  | nil => simp [put]
  | cons entry rest ih =>
    obtain ⟨first, old⟩ := entry
    rw [put]
    split
    · next same => simp [same]
    · simp only [List.map_cons, List.mem_cons, ih]
      grind

theorem nodup_put (name : String) (type : TypeId) {entries : List (String × TypeId)}
    (nodup : (entries.map (·.1)).Nodup) : ((put name type entries).map (·.1)).Nodup := by
  induction entries with
  | nil => simp [put]
  | cons entry rest ih =>
    obtain ⟨first, old⟩ := entry
    simp only [List.map_cons, List.nodup_cons] at nodup
    rw [put]
    split
    · next same =>
      subst same
      simpa using nodup
    · next apart =>
      simp only [List.map_cons, List.nodup_cons, mem_put]
      exact ⟨fun mem => mem.elim apart nodup.1, ih nodup.2⟩

/-- No members. -/
def empty : Members :=
  ⟨[], List.nodup_nil⟩

/-- The members in which a name has a type. -/
def insert (members : Members) (name : String) (type : TypeId) : Members :=
  ⟨put name type members.entries, nodup_put name type members.nodup⟩

/-- Members mentioned one after the other: a name keeps its first place and its last type. -/
def ofList (mentioned : List (String × TypeId)) : Members :=
  mentioned.foldl (fun members mention => members.insert mention.1 mention.2) empty

/-- The type of a member. -/
def find? (members : Members) (name : String) : Option TypeId :=
  members.entries.lookup name

end Members

/-- A parameter of a call signature. -/
structure Parameter where
  name : String
  type : TypeId
  optional : Bool := false
  deriving Repr, DecidableEq

/-- A way to call a value, with the number of arguments it takes at least. -/
structure Signature where
  parameters : List Parameter
  returns : TypeId
  minArguments : Nat
  deriving Repr, DecidableEq

/-- The signature all of whose parameters are required. -/
def Signature.ofRequired (parameters : List (String × TypeId)) (returns : TypeId) : Signature where
  parameters := parameters.map fun (name, type) => { name, type }
  returns
  minArguments := parameters.length

/-- What a type consists of. -/
inductive TypeForm where
  | intrinsic (name : String)
  | stringLiteral (value : String)
  | numberLiteral (value : Double)
  | booleanLiteral (value : Bool)
  | object (members : Members) (signatures : List Signature)
  | union (types : List TypeId)
  deriving Repr, DecidableEq

/-- A type with its number, its flags, and the name of the alias through which it was reached. -/
structure TypeEntry where
  id : TypeId
  flags : TypeFlags
  aliasName : Option String := none
  form : TypeForm
  deriving Repr, DecidableEq

/-- Whether the entry is the type of what could not be typed, or an alias of it. -/
def TypeEntry.isError (entry : TypeEntry) : Bool :=
  entry.form = .intrinsic "error"

/-- The types in the order of their numbers. -/
structure TypeTable where
  entries : Array TypeEntry
  deriving Repr, DecidableEq

namespace TypeTable

/-- How many types there are. -/
def size (table : TypeTable) : Nat :=
  table.entries.size

/-- Whether there is no type. -/
def isEmpty (table : TypeTable) : Bool :=
  table.size == 0

/-- The number that the next type gets. -/
def nextId (table : TypeTable) : TypeId :=
  ⟨table.size⟩

/-- The fault of looking up a number without a type. -/
def missing (table : TypeTable) (id : TypeId) : Fault :=
  .noSuchEntry table.size id.index

/-- The type of a number, if there is one. -/
def find? (table : TypeTable) (id : TypeId) : Option TypeEntry :=
  table.entries[id.index]?

/-- The type of a number. -/
def get (table : TypeTable) (id : TypeId) : Except Fault TypeEntry :=
  match table.find? id with
  | some entry => .ok entry
  | none => .error (table.missing id)

/-- The table with one more type. -/
def push (table : TypeTable) (flags : TypeFlags) (form : TypeForm) (aliasName : Option String := none) :
    TypeTable :=
  ⟨table.entries.push { id := table.nextId, flags, aliasName, form }⟩

/-- The table with one more type, and its number. -/
def add (table : TypeTable) (flags : TypeFlags) (form : TypeForm) : TypeId × TypeTable :=
  (table.nextId, table.push flags form)

/-- The table with a copy of a type under an alias, and the number of the copy. -/
def addAlias (table : TypeTable) (name : String) (target : TypeId) : Except Fault (TypeId × TypeTable) := do
  let entry ← table.get target
  return (table.nextId, table.push entry.flags entry.form (some name))

/-- The intrinsic types with their names, in the order of their numbers. -/
def intrinsics : List (TypeFlags × String) :=
  [(TypeFlags.any, "any"), (TypeFlags.unknown, "unknown"), (TypeFlags.string, "string"),
    (TypeFlags.number, "number"), (TypeFlags.boolean, "boolean"), (TypeFlags.void, "void"),
    (TypeFlags.undefined, "undefined"), (TypeFlags.null, "null"), (TypeFlags.never, "never"),
    (TypeFlags.any, "error")]

/-- The table of the intrinsic types. -/
def initial : TypeTable :=
  intrinsics.foldl (fun table (flags, name) => table.push flags (.intrinsic name)) ⟨#[]⟩

theorem get_eq_ok_iff {table : TypeTable} {id : TypeId} {entry : TypeEntry} :
    table.get id = .ok entry ↔ table.find? id = some entry := by
  unfold get
  split <;> simp_all

theorem index_lt_of_get {table : TypeTable} {id : TypeId} {entry : TypeEntry}
    (found : table.get id = .ok entry) : id.index < table.size :=
  (Array.getElem?_eq_some_iff.mp (get_eq_ok_iff.mp found)).1

@[simp]
theorem size_push (table : TypeTable) (flags : TypeFlags) (form : TypeForm) (aliasName : Option String) :
    (table.push flags form aliasName).size = table.size + 1 :=
  Array.size_push ..

theorem find?_push (table : TypeTable) (flags : TypeFlags) (form : TypeForm) (aliasName : Option String)
    (id : TypeId) :
    (table.push flags form aliasName).find? id =
      if id = table.nextId then some { id, flags, aliasName, form } else table.find? id := by
  obtain ⟨index⟩ := id
  simp only [find?, push, nextId, TypeId.mk.injEq, size, Array.getElem?_push]
  split <;> simp_all

end TypeTable

namespace TypeId

/-! The numbers of the intrinsic types, which are the same in every table. -/

def any : TypeId := ⟨0⟩
def unknown : TypeId := ⟨1⟩
def string : TypeId := ⟨2⟩
def number : TypeId := ⟨3⟩
def boolean : TypeId := ⟨4⟩
def void : TypeId := ⟨5⟩
def undefined : TypeId := ⟨6⟩
def null : TypeId := ⟨7⟩
def never : TypeId := ⟨8⟩

/-- The type of what could not be typed. It counts as `any`, so it fits everywhere. -/
def error : TypeId := ⟨9⟩

end TypeId

end ExportLint
