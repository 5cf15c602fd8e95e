import ExportLint.Flags

/-!
# Declarations

What is to be written into a source file: declarations and export forms, given by the pieces of text
that they are made of.
-/

namespace ExportLint

/-- What a declarator binds: a name or the names of a pattern. -/
inductive DeclaredBinding where
  | name (name : String)
  | object (names : List String)
  | array (names : List String)
  deriving Repr, DecidableEq

/-- A declarator with its annotation and its initial value, if it has them. -/
structure Declarator where
  binding : DeclaredBinding
  type : Option String := none
  value : Option String := none
  deriving Repr, DecidableEq

/-- A statement to be written. -/
inductive Declaration where
  | typeAlias (modifiers : ModifierFlags) (name type : String)
  | interface (modifiers : ModifierFlags) (name : String) (members : List (String × String))
  /-- The flags choose the keyword: `const`, `let`, or `var` for neither. -/
  | variableDecl (modifiers : ModifierFlags) (flags : NodeFlags) (declarators : List Declarator)
  | function (modifiers : ModifierFlags) (name : Option String) (parameters : List (String × String))
    (returns : Option String)
  | classDecl (modifiers : ModifierFlags) (name : Option String)
  | enum (modifiers : ModifierFlags) (name : String) (members : List String)
  | space (modifiers : ModifierFlags) (name : String) (body : List Declaration)
  | exportNames (typeOnly : Bool) (names : List String) (source : Option String)
  | exportAll (source : String)
  /-- An exported expression, after `export =` or after `export default`. -/
  | exportValue (equals : Bool) (expression : String)
  | empty
  deriving Repr

end ExportLint
