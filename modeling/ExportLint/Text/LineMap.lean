import ExportLint.Text.Search

/-!
# Line maps

Where the lines of a text begin, and the line and column of an offset. A line ends with its line
feed, so the lines after the first begin just after a line feed. The line of an offset is searched for
among the offsets at which lines begin.
-/

namespace ExportLint

/-- A line and a column, both counted from one; columns count bytes. -/
structure Location where
  line : UInt32
  column : UInt32
  deriving Repr, DecidableEq

/-- The form `line,column` of lint output. -/
def Location.text (location : Location) : String :=
  s!"{location.line},{location.column}"

/-- The offsets at which the lines after the first begin, in ascending order. -/
structure LineMap where
  breaks : List Nat
  deriving Repr, DecidableEq

namespace LineMap

/-- The offsets just after each line feed of `text`, which begins at `offset`. -/
def breaksFrom (offset : Nat) : List Char → List Nat
  | [] => []
  | c :: rest =>
    if c = '\n' then (offset + 1) :: breaksFrom (offset + 1) rest
    else breaksFrom (offset + c.utf8Size) rest

/-- The line map of a text. -/
def ofText (text : String) : LineMap :=
  ⟨breaksFrom 0 text.toList⟩

/-- How many lines there are. -/
def lineCount (map : LineMap) : Nat :=
  map.breaks.length + 1

/-- How many line feeds lie before an offset. -/
def lineIndex (map : LineMap) (offset : Nat) : Nat :=
  map.breaks.countP (· ≤ offset)

/-- Where the line that holds an offset begins. -/
def lineStart (map : LineMap) (offset : Nat) : Nat :=
  (map.breaks.filter (· ≤ offset)).getLast?.getD 0

/-- The words at which the lines begin. -/
def starts (map : LineMap) : Array Offset :=
  ((0 :: map.breaks).map .ofNat).toArray

/-- The line to which a finding among the starts leads: the one that begins there, or the one before the place. -/
def lineAt : Finding → Except Fault Nat
  | .found line => .ok line
  | .absent 0 => .error .differenceNegative
  | .absent (line + 1) => .ok line

/-- The index of the line that holds an offset. -/
def lineOf (map : LineMap) (offset : Offset) : Except Fault Nat :=
  lineAt (Offset.search map.starts offset)

/-- The word at which a line begins. -/
def startOf (map : LineMap) (line : Nat) : Except Fault Offset :=
  match map.starts[line]? with
  | some start => .ok start
  | none => .error (.noSuchEntry map.starts.size line)

/-- The line and column of an offset, also of one past the end of the text. -/
def locate (map : LineMap) (offset : Offset) : Except Fault Location := do
  let index ← map.lineOf offset
  let line ← Offset.add (.ofNat index) 1
  let column ← Offset.add (← Offset.sub offset (← map.startOf index)) 1
  return ⟨line, column⟩

theorem lt_of_mem_breaksFrom {offset n : Nat} {text : List Char} (mem : n ∈ breaksFrom offset text) :
    offset < n := by
  induction text generalizing offset with
  | nil => simp [breaksFrom] at mem
  | cons c rest ih =>
    rw [breaksFrom] at mem
    split at mem
    · rcases List.mem_cons.mp mem with rfl | later
      · omega
      · have := ih later
        omega
    · have := ih mem
      omega

theorem breaksFrom_sorted (offset : Nat) (text : List Char) : (breaksFrom offset text).Pairwise (· < ·) := by
  induction text generalizing offset with
  | nil => simp [breaksFrom]
  | cons c rest ih =>
    rw [breaksFrom]
    split
    · exact List.pairwise_cons.mpr ⟨fun _ => lt_of_mem_breaksFrom, ih _⟩
    · exact ih _

end LineMap

end ExportLint
