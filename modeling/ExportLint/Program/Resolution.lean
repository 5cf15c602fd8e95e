import ExportLint.Oracle
import ExportLint.Program.Basic

/-!
# Resolution

What a configured type name stands for in a program: a primitive type if it is a keyword, whatever
the program declares under that name, and otherwise the first declaration of the name.
-/

namespace ExportLint

/-- What a type name stands for, with its type. -/
inductive Resolution where
  | primitive (kind : Primitive) (type : TypeId)
  | declared (declaration : NodeId) (type : TypeId)
  deriving Repr, DecidableEq

/-- The type that a name stands for. -/
def Resolution.type : Resolution → TypeId
  | primitive _ type | declared _ type => type

/-- What a type name stands for in a program, whose names are looked up in the given store. -/
def Program.resolve? {σ : Type} [TypeOracle σ] (program : Program) (store : Interner) (oracle : σ)
    (name : String) : Option Resolution :=
  match Primitive.ofKeyword? name with
  | some kind => some (.primitive kind (TypeOracle.keywordType oracle kind))
  | none =>
    (program.declaration? store name).map fun declared =>
      .declared declared.node (TypeOracle.declaredType oracle declared.node)

end ExportLint
