/-!
# Flag sets

Sets of named bits in a word. Nodes, modifiers and types each have a family of constants; a set may
also hold bits that no constant of its family names, and operations keep them.
-/

namespace ExportLint

/-- The families of constants. -/
inductive FlagFamily where
  | node
  | modifier
  | type
  deriving Repr, DecidableEq

/-- A set of bits of one family. -/
structure Flags (family : FlagFamily) where
  bits : UInt32
  deriving Repr, DecidableEq

namespace Flags

variable {family : FlagFamily}

/-- No bit. -/
def none : Flags family :=
  ⟨0⟩

instance : Union (Flags family) where
  union a b := ⟨a.bits ||| b.bits⟩

instance : Inter (Flags family) where
  inter a b := ⟨a.bits &&& b.bits⟩

instance : SDiff (Flags family) where
  sdiff a b := ⟨a.bits &&& ~~~b.bits⟩

/-- Whether every bit of the second set is in the first. -/
def contains (a b : Flags family) : Bool :=
  (a ∩ b).bits == b.bits

/-- Whether the sets share a bit. -/
def intersects (a b : Flags family) : Bool :=
  (a ∩ b).bits != 0

/-- Whether no bit is set. -/
def isEmpty (a : Flags family) : Bool :=
  a.bits == 0

end Flags

/-- Flags of syntax nodes. -/
abbrev NodeFlags := Flags .node

namespace NodeFlags

/-- Declares with `let`. -/
def letList : NodeFlags := ⟨1⟩

/-- Declares with `const`. -/
def constList : NodeFlags := ⟨2⟩

/-- Declares with `using`. -/
def usingList : NodeFlags := ⟨4⟩

/-- Declares with `await using`. -/
def awaitUsingList : NodeFlags := ⟨8⟩

/-- Declares a namespace. -/
def namespaceBlock : NodeFlags := ⟨16⟩

/-- Declares for a block rather than for a function. -/
def blockScoped : NodeFlags := letList ∪ constList ∪ usingList ∪ awaitUsingList

end NodeFlags

/-- The modifiers written on a declaration. -/
abbrev ModifierFlags := Flags .modifier

namespace ModifierFlags

/-- Written with `export`. -/
def exported : ModifierFlags := ⟨1⟩

/-- Written with `declare`. -/
def ambient : ModifierFlags := ⟨2⟩

/-- Written with `default`. -/
def byDefault : ModifierFlags := ⟨4⟩

/-- Written with `abstract`. -/
def abstractClass : ModifierFlags := ⟨8⟩

/-- Written with `async`. -/
def asynchronous : ModifierFlags := ⟨16⟩

/-- Written with `const`. -/
def constEnum : ModifierFlags := ⟨32⟩

/-- Written with `export default`. -/
def exportedByDefault : ModifierFlags := exported ∪ byDefault

end ModifierFlags

/-- What kind of type an entry of a type table is. -/
abbrev TypeFlags := Flags .type

namespace TypeFlags

/-! One bit for each form of type, and the sets of those that are asked for together. -/

def any : TypeFlags := ⟨1⟩
def unknown : TypeFlags := ⟨2⟩
def string : TypeFlags := ⟨4⟩
def number : TypeFlags := ⟨8⟩
def boolean : TypeFlags := ⟨16⟩
def stringLiteral : TypeFlags := ⟨32⟩
def numberLiteral : TypeFlags := ⟨64⟩
def booleanLiteral : TypeFlags := ⟨128⟩
def void : TypeFlags := ⟨256⟩
def undefined : TypeFlags := ⟨512⟩
def null : TypeFlags := ⟨1024⟩
def never : TypeFlags := ⟨2048⟩
def object : TypeFlags := ⟨4096⟩
def union : TypeFlags := ⟨8192⟩

/-- Strings and string literals. -/
def stringLike : TypeFlags := string ∪ stringLiteral

/-- Numbers and number literals. -/
def numberLike : TypeFlags := number ∪ numberLiteral

/-- Booleans and boolean literals. -/
def booleanLike : TypeFlags := boolean ∪ booleanLiteral

/-- The two values that stand for no value. -/
def nullable : TypeFlags := null ∪ undefined

end TypeFlags

namespace FlagFamily

/-- The constants of one bit each, in the order of their declaration. -/
def singles : (family : FlagFamily) → List (String × Flags family)
  | .node =>
    [("LET", NodeFlags.letList), ("CONST", NodeFlags.constList), ("USING", NodeFlags.usingList),
      ("AWAIT_USING", NodeFlags.awaitUsingList), ("NAMESPACE", NodeFlags.namespaceBlock)]
  | .modifier =>
    [("EXPORT", ModifierFlags.exported), ("AMBIENT", ModifierFlags.ambient),
      ("DEFAULT", ModifierFlags.byDefault), ("ABSTRACT", ModifierFlags.abstractClass),
      ("ASYNC", ModifierFlags.asynchronous), ("CONST", ModifierFlags.constEnum)]
  | .type =>
    [("ANY", TypeFlags.any), ("UNKNOWN", TypeFlags.unknown), ("STRING", TypeFlags.string),
      ("NUMBER", TypeFlags.number), ("BOOLEAN", TypeFlags.boolean), ("STRING_LITERAL", TypeFlags.stringLiteral),
      ("NUMBER_LITERAL", TypeFlags.numberLiteral), ("BOOLEAN_LITERAL", TypeFlags.booleanLiteral),
      ("VOID", TypeFlags.void), ("UNDEFINED", TypeFlags.undefined), ("NULL", TypeFlags.null),
      ("NEVER", TypeFlags.never), ("OBJECT", TypeFlags.object), ("UNION", TypeFlags.union)]

/-- The constants that stand for no bit or for several. -/
def composites : (family : FlagFamily) → List (String × Flags family)
  | .node => [("NONE", .none), ("BLOCK_SCOPED", NodeFlags.blockScoped)]
  | .modifier => [("NONE", .none), ("EXPORT_DEFAULT", ModifierFlags.exportedByDefault)]
  | .type =>
    [("NONE", .none), ("STRING_LIKE", TypeFlags.stringLike), ("NUMBER_LIKE", TypeFlags.numberLike),
      ("BOOLEAN_LIKE", TypeFlags.booleanLike), ("NULLABLE", TypeFlags.nullable)]

end FlagFamily

namespace Flags

variable {family : FlagFamily}

/-- The constant of a name. -/
def ofName? (name : String) : Option (Flags family) :=
  (family.singles ++ family.composites).lookup name

/-- The union of several sets. -/
def unions (sets : List (Flags family)) : Flags family :=
  sets.foldl (· ∪ ·) none

/-- Every bit that some constant names. -/
def all : Flags family :=
  unions (family.singles.map (·.2))

/-- Whether every named bit is set. -/
def isAll (a : Flags family) : Bool :=
  a.contains all

/-- The named bits that are not set. -/
def complement (a : Flags family) : Flags family :=
  all \ a

/-- The set with the given bits, if every one of them is named. -/
def ofBits? (bits : UInt32) : Option (Flags family) :=
  let set : Flags family := ⟨bits⟩
  if all.contains set then some set else Option.none

/-- The names of the bits that are set, in the order of their declaration. -/
def names (a : Flags family) : List String :=
  (family.singles.filter fun (_, flag) => a.contains flag).map (·.1)

theorem contains_union (a b c : Flags family) : a.contains (b ∪ c) = (a.contains b && a.contains c) := by
  rw [Bool.eq_iff_iff, Bool.and_eq_true]
  simp only [contains, beq_iff_eq, Union.union, Inter.inter, ← UInt32.toBitVec_inj, UInt32.toBitVec_and,
    UInt32.toBitVec_or]
  generalize a.bits.toBitVec = x
  generalize b.bits.toBitVec = y
  generalize c.bits.toBitVec = z
  constructor
  · intro whole
    constructor <;> ext i bound <;> have := congrArg (·.getLsbD i) whole <;> simp at this ⊢ <;> grind
  · rintro ⟨left, right⟩
    ext i bound
    have := congrArg (·.getLsbD i) left
    have := congrArg (·.getLsbD i) right
    simp at *
    grind

end Flags

end ExportLint
