import ExportLint.Json.Basic
import ExportLint.Json.Scan

/-!
# Reading JSON

Lists and objects are read by a reader for their items, so the same grammar serves the reader of all
values and readers that want one kind of item only. Values nest to a fixed depth.
-/

namespace ExportLint.Json

/-- Reads an item from the beginning of a text. -/
abbrev ItemReader (α : Type) := (text : List Char) → Except Refusal (α × Rest text)

variable {α : Type}

/-- Reads the items of a list up to its closing bracket; the text begins with an item. -/
def readItems (item : ItemReader α) (text : List Char) : Except Refusal (List α × Rest text) := do
  let (value, rest) ← item text
  match firstMark? rest.1 with
  | none => throw (.next [] .endInList)
  | some (c, after) =>
    let after := Rest.trans rest (Rest.tail after)
    if c = ']' then return ([value], after)
    else if c = ',' then
      let start := Rest.trans after (skipSpace after.1)
      if start.1.head? = some ']' then throw (.next start.1 .trailingComma)
      else
        have := start.2
        let (values, last) ← readItems item start.1
        return (value :: values, Rest.trans start (Rest.tail last))
    else throw (.next (c :: after.1) .expectedListEnd)
termination_by text.length

/-- Reads a list from just after its opening bracket. -/
def readList (item : ItemReader α) (text : List Char) : Except Refusal (List α × Rest text) :=
  match firstMark? text with
  | none => .error (.next [] .endInList)
  | some (c, after) =>
    if c = ']' then .ok ([], after) else readItems item text

/-- Reads a field of an object from just after the opening quote of its name. -/
def readField (item : ItemReader α) (text : List Char) : Except Refusal ((String × α) × Rest text) := do
  let (name, rest) ← readString text
  match firstMark? rest.1 with
  | none => throw (.next [] .endInObject)
  | some (c, after) =>
    if c = ':' then
      let (value, last) ← item after.1
      return ((String.ofList name, value), Rest.trans rest (Rest.tail (Rest.trans after (Rest.tail last))))
    else throw (.next (c :: after.1) .expectedColon)

/-- Reads the fields of an object up to its closing brace; the text begins with a name, whose quote
has been read. -/
def readFields (item : ItemReader α) (text : List Char) :
    Except Refusal (List (String × α) × Rest text) := do
  let (field, rest) ← readField item text
  match firstMark? rest.1 with
  | none => throw (.next [] .endInObject)
  | some (c, after) =>
    let after := Rest.trans rest (Rest.tail after)
    if c = '}' then return ([field], after)
    else if c = ',' then
      match firstMark? after.1 with
      | none => throw (.next [] .endInValue)
      | some (d, start) =>
        let start := Rest.trans after (Rest.tail start)
        if d = '"' then
          have := start.2
          let (fields, last) ← readFields item start.1
          return (field :: fields, Rest.trans start (Rest.tail last))
        else if d = '}' then throw (.next (d :: start.1) .trailingComma)
        else throw (.next (d :: start.1) .keyNotString)
    else throw (.next (c :: after.1) .expectedObjectEnd)
termination_by text.length

/-- Reads an object from just after its opening brace. -/
def readObject (item : ItemReader α) (text : List Char) :
    Except Refusal (List (String × α) × Rest text) :=
  match firstMark? text with
  | none => .error (.next [] .endInObject)
  | some (c, after) =>
    if c = '}' then .ok ([], after)
    else if c = '"' then do
      let (fields, last) ← readFields item after.1
      return (fields, Rest.trans after (Rest.tail last))
    else .error (.next (c :: after.1) .keyNotString)

/-- Reads a value that is no list and no object, from its first character on. -/
def readScalar (first : Char) (text : List Char) : Except Refusal (Json × Tail text) := do
  if first = 'n' then return (null, ← readWord ['u', 'l', 'l'] text)
  else if first = 't' then return (bool true, ← readWord ['r', 'u', 'e'] text)
  else if first = 'f' then return (bool false, ← readWord ['a', 'l', 's', 'e'] text)
  else if first = '"' then
    let (chars, rest) ← readString text
    return (string (String.ofList chars), Rest.tail rest)
  else if first = '-' ∨ first.isDigit then
    let (numeral, rest) ← readNumber (first :: text)
    return (number numeral, ⟨rest.1, Nat.le_of_lt_succ rest.2⟩)
  else throw (.next (first :: text) .expectedValue)

/-- Reads a value in which lists and objects nest to at most the given depth. -/
def readValue (depth : Nat) : ItemReader Json := fun text =>
  match firstMark? text with
  | none => .error (.next [] .endInValue)
  | some (c, after) =>
    if c = '[' ∨ c = '{' then
      match depth with
      | 0 => .error (.next (c :: after.1) .tooDeep)
      | depth + 1 => do
        if c = '[' then
          let (items, last) ← readList (readValue depth) after.1
          return (array items, Rest.trans after (Rest.tail last))
        else
          let (fields, last) ← readObject (readValue depth) after.1
          return (ofFields fields, Rest.trans after (Rest.tail last))
    else do
      let (value, last) ← readScalar c after.1
      return (value, Rest.trans after last)

/-- How deep lists and objects may nest. -/
def maxDepth : Nat :=
  127

/-- Reads a whole text by a reader of one item; only blanks may follow the item. -/
def readAll (item : ItemReader α) (text : String) : Except Refusal α := do
  let (value, rest) ← item text.toList
  match firstMark? rest.1 with
  | none => return value
  | some (c, after) => throw (.next (c :: after.1) .trailingCharacters)

/-- The value of a JSON text. -/
def parse (text : String) : Except Refusal Json :=
  readAll (readValue maxDepth) text

end ExportLint.Json
