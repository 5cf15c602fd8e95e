import ExportLint.Diagnostic.Collection
import ExportLint.Options.TypeMap
import ExportLint.Program.Exports
import ExportLint.Program.Resolution

/-!
# The rule for exports

Every named export has to fit the type that the options name for it. An export whose type, or whose
expected type, is not known is reported as such; every export is judged on its own.
-/

namespace ExportLint

/-- The diagnostic that raises a message at a node of a file. -/
def SourceFile.report (file : SourceFile) (node : Node) (message : Message) (payload : Payload) :
    Except Fault Diagnostic := do
  let span ← node.range.span
  let start ← file.locate span.start
  return .raise message payload file.name span start

/-- What kind of issue a rule reports. -/
inductive RuleKind where
  /-- Code that is likely wrong. -/
  | problem
  deriving Repr, DecidableEq

/-- The name of a kind of issue. -/
def RuleKind.text : RuleKind → String
  | problem => "Problem"

/-- What a lint host knows about a rule. -/
structure RuleMeta where
  name : String
  kind : RuleKind
  description : String
  messages : List Message
  deriving Repr, DecidableEq

/-- The rule for exports with the types that they have to fit. -/
structure Rule where
  typeMap : TypeMap := .empty

namespace Rule

/-- What a lint host knows about the rule. -/
def about : RuleMeta where
  name := Message.exportsSatisfy
  kind := .problem
  description := "Ensure all exports satisfy certain types"
  messages := [Message.invalidExportType, Message.unresolvedType]

/-- The schema of the options: a list with an object of strings. -/
def schema : Json :=
  .array [.ofFields [("type", .string "object"), ("additionalProperties", .ofFields [("type", .string "string")])]]

/-- The rule for options that a lint host passes. -/
def ofOptions (options : Json) : Except OptionsFault Rule :=
  Rule.mk <$> TypeMap.ofJson options

/-- The name reported for a type that could not be typed and has no alias. -/
def errorTypeName : String :=
  "<error>"

variable {σ : Type} [TypeOracle σ]

/-- Judges an export: the diagnostic that it calls for, if any. -/
def checkExport (rule : Rule) (program : Program) (store : Interner) (file : SourceFile)
    (statement : Statement) (exportName : String) (node : NodeId) (oracle : σ) :
    Except Fault (Option Diagnostic × σ) := do
  let report (message : Message) (typeName : String) : Except Fault (Option Diagnostic) :=
    some <$> file.report statement.node message { exportName := some exportName, typeName }
  match rule.typeMap.expectedType? exportName with
  | none => return (none, oracle)
  | some typeName =>
    match program.resolve? store oracle typeName with
    | none => return (← report .unresolvedType typeName, oracle)
    | some expected =>
      let actual := TypeOracle.typeAt oracle node
      if ← TypeOracle.isError oracle actual then
        let name ← TypeOracle.aliasName oracle actual
        return (← report .unresolvedType (name.getD errorTypeName), oracle)
      else
        let (answer, oracle) ← TypeOracle.fits oracle actual expected.type
        if answer then return (none, oracle)
        else return (← report .invalidExportType typeName, oracle)

/-- Judges exports one after the other. -/
def checkExports (rule : Rule) (program : Program) (store : Interner) (file : SourceFile) :
    List (Statement × String × NodeId) → σ → Except Fault (Collection × σ)
  | [], oracle => .ok ({}, oracle)
  | (statement, exportName, node) :: rest, oracle => do
    let (found, oracle) ← rule.checkExport program store file statement exportName node oracle
    let (others, oracle) ← checkExports rule program store file rest oracle
    return (⟨found.toList⟩ ++ others, oracle)

/-- Judges the named exports of a file. -/
def checkFile (rule : Rule) (program : Program) (store : Interner) (file : SourceFile) (oracle : σ) :
    Except Fault (Collection × σ) :=
  rule.checkExports program store file file.checkedExports oracle

/-- Judges the named exports of files one after the other. -/
def checkFiles (rule : Rule) (program : Program) (store : Interner) :
    List SourceFile → σ → Except Fault (Collection × σ)
  | [], oracle => .ok ({}, oracle)
  | file :: rest, oracle => do
    let (found, oracle) ← rule.checkFile program store file oracle
    let (others, oracle) ← checkFiles rule program store rest oracle
    return (found ++ others, oracle)

/-- Judges the named exports of every file of a program. -/
def checkProgram (rule : Rule) (program : Program) (store : Interner) (oracle : σ) :
    Except Fault (Collection × σ) :=
  rule.checkFiles program store program.files oracle

end Rule

end ExportLint
