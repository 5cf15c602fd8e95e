import ExportLint.Fault
import ExportLint.Tree.Node
import ExportLint.Types.Table

/-!
# Type oracles

What a rule may ask about the types of a program. The answers may come from anywhere; asking whether
one type fits another may leave the oracle in another state, in which it has remembered answers.
-/

namespace ExportLint

/-- The types that a configuration may name by a keyword. -/
inductive Primitive where
  | number
  | string
  | boolean
  deriving Repr, DecidableEq

namespace Primitive

/-- The keyword of a primitive type. -/
def keyword : Primitive → String
  | number => "number"
  | string => "string"
  | boolean => "boolean"

/-- The name of a primitive type in debugging output. -/
def debugName : Primitive → String
  | number => "Number"
  | string => "String"
  | boolean => "Boolean"

/-- The primitive type of a keyword; only the exact spelling counts. -/
def ofKeyword? (name : String) : Option Primitive :=
  [number, string, boolean].find? (·.keyword == name)

theorem ofKeyword?_eq_some_iff {name : String} {primitive : Primitive} :
    ofKeyword? name = some primitive ↔ primitive.keyword = name := by
  constructor
  · intro found
    simpa using List.find?_some found
  · rintro rfl
    cases primitive <;> decide

end Primitive

/-- A state from which questions about types can be answered. -/
class TypeOracle (σ : Type) where
  /-- The type that a keyword stands for. -/
  keywordType : σ → Primitive → TypeId
  /-- The type that an alias or an interface introduces. -/
  declaredType : σ → NodeId → TypeId
  /-- The type of a declared variable, function or class. -/
  typeAt : σ → NodeId → TypeId
  /-- Whether a type stands for what could not be typed. -/
  isError : σ → TypeId → Except Fault Bool
  /-- The name of the alias through which a type was reached. -/
  aliasName : σ → TypeId → Except Fault (Option String)
  /-- Whether the first type fits the second, and the state after the question. -/
  fits : σ → TypeId → TypeId → Except Fault (Bool × σ)

end ExportLint
