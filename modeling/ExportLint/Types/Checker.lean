import ExportLint.Oracle
import ExportLint.Types.Settling

/-!
# Checkers

An oracle whose types are built beforehand and bound to syntax nodes. It keeps the answers to
earlier questions, also when the treatment of `null` and `undefined` is changed between them.
-/

namespace ExportLint

/-- A type to be built from types of a table. -/
inductive Blueprint where
  | stringLiteral (value : String)
  | numberLiteral (value : Double)
  | booleanLiteral (value : Bool)
  /-- An object with the given members. -/
  | object (members : List (String × TypeId))
  /-- A function all of whose parameters are required. -/
  | function (parameters : List (String × TypeId)) (returns : TypeId)
  /-- The union of the given types; a single type is its own union. -/
  | union (types : List TypeId)
  /-- A type under another name. -/
  | aliasOf (name : String) (target : TypeId)
  /-- The type of what could not be typed, under a name. -/
  | errorAlias (name : String)
  deriving Repr, DecidableEq

/-- The types from which a blueprint builds. -/
def Blueprint.parts : Blueprint → List TypeId
  | stringLiteral _ | numberLiteral _ | booleanLiteral _ => []
  | object members => members.map (·.2)
  | function parameters returns => parameters.map (·.2) ++ [returns]
  | union types => types
  | aliasOf _ target => [target]
  | errorAlias _ => [.error]

/-- The type that a blueprint describes, and the table that holds it. -/
def TypeTable.build (table : TypeTable) : Blueprint → Except Fault (TypeId × TypeTable)
  | .stringLiteral value => .ok (table.add TypeFlags.stringLiteral (.stringLiteral value))
  | .numberLiteral value => .ok (table.add TypeFlags.numberLiteral (.numberLiteral value))
  | .booleanLiteral value => .ok (table.add TypeFlags.booleanLiteral (.booleanLiteral value))
  | .object members => .ok (table.add TypeFlags.object (.object (.ofList members) []))
  | .function parameters returns =>
    .ok (table.add TypeFlags.object (.object .empty [.ofRequired parameters returns]))
  | .union [single] => .ok (single, table)
  | .union types => .ok (table.add TypeFlags.union (.union types))
  | .aliasOf name target => table.addAlias name target
  | .errorAlias name => table.addAlias name .error

/-- A table of types, the types of nodes, and the answers given so far. -/
structure Checker where
  table : TypeTable := .initial
  bindings : Std.TreeMap NodeId TypeId (compareOn NodeId.index) := ∅
  /-- Whether `null` and `undefined` fit only where they are named. -/
  strict : Bool := false
  memo : Memo := .empty

namespace Checker

/-- A checker that knows the intrinsic types and has answered nothing. -/
def initial (strict : Bool) : Checker :=
  { strict }

/-- The checker with another treatment of `null` and `undefined`. -/
def withStrict (checker : Checker) (strict : Bool) : Checker :=
  { checker with strict }

/-- The checker with one more type, and its number. -/
def add (checker : Checker) (flags : TypeFlags) (form : TypeForm) : TypeId × Checker :=
  let (id, table) := checker.table.add flags form
  (id, { checker with table })

/-- The type that a blueprint describes, and the checker that knows it. -/
def build (checker : Checker) (blueprint : Blueprint) : Except Fault (TypeId × Checker) := do
  let (id, table) ← checker.table.build blueprint
  return (id, { checker with table })

/-- The checker in which a node has the given type. -/
def bind (checker : Checker) (node : NodeId) (type : TypeId) : Checker :=
  { checker with bindings := checker.bindings.insert node type }

/-- The type of a node; a node that was never bound could not be typed. -/
def typeOf (checker : Checker) (node : NodeId) : TypeId :=
  checker.bindings[node]?.getD .error

/-- The intrinsic type of a keyword. -/
def keywordType : Primitive → TypeId
  | .number => .number
  | .string => .string
  | .boolean => .boolean

/-- Whether the source fits the target, and the checker that remembers the answers. -/
def fits (checker : Checker) (source target : TypeId) : Except Fault (Bool × Checker) := do
  let (answer, memo) ← checker.table.settle checker.strict (.fits source target) checker.memo
  return (answer, { checker with memo })

instance : TypeOracle Checker where
  keywordType _ := keywordType
  declaredType := typeOf
  typeAt := typeOf
  isError checker type := TypeEntry.isError <$> checker.table.get type
  aliasName checker type := TypeEntry.aliasName <$> checker.table.get type
  fits := fits

theorem typeOf_bind (checker : Checker) (node other : NodeId) (type : TypeId) :
    (checker.bind node type).typeOf other = if other = node then type else checker.typeOf other := by
  obtain ⟨node⟩ := node
  obtain ⟨other⟩ := other
  simp only [typeOf, bind, Std.TreeMap.getElem?_insert, compareOn, Std.LawfulEqOrd.compare_eq_iff_eq,
    NodeId.mk.injEq]
  grind

end Checker

end ExportLint
