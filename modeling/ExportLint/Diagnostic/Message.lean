import ExportLint.Diagnostic.Template

/-!
# Messages

The messages that a rule may raise, and the payload that fills their templates. The payload keeps
the names as data; the text of a message is derived from it.
-/

namespace ExportLint

/-- How severe a diagnostic is. -/
inductive Category where
  | warning
  | error
  deriving Repr, DecidableEq

/-- The word for a category. -/
def Category.text : Category → String
  | warning => "warning"
  | error => "error"

/-- Which message a diagnostic was raised with. -/
inductive MessageId where
  /-- Both types are known, and the export does not fit the expected one. -/
  | invalidExportType
  /-- The expected type, or the type of the export, is not known. -/
  | unresolvedType
  deriving Repr, DecidableEq

/-- The identifier under which lint hosts know the message. -/
def MessageId.text : MessageId → String
  | invalidExportType => "invalidExportType"
  | unresolvedType => "unresolvedType"

/-- The names that a message speaks about. -/
structure Payload where
  exportName : Option String := none
  typeName : String
  deriving Repr, DecidableEq

/-- The name for a key of a template. -/
def Payload.value? (payload : Payload) (key : String) : Option String :=
  if key = "exportName" then payload.exportName
  else if key = "typeName" then some payload.typeName
  else none

/-- A message of a rule, with the template of its text. -/
structure Message where
  rule : String
  id : MessageId
  category : Category
  template : String
  deriving Repr, DecidableEq

namespace Message

/-- A template filled from a payload. -/
def format (template : String) (payload : Payload) : String :=
  String.ofList <| (Template.ofText template.toList).fill fun key =>
    (payload.value? (String.ofList key)).map String.toList

/-- The text of a message for a payload. -/
def text (message : Message) (payload : Payload) : String :=
  format message.template payload

/-- The name of the rule that checks exports. -/
def exportsSatisfy : String :=
  "exports-satisfy"

/-- Raised for an export that does not fit its type. -/
def invalidExportType : Message where
  rule := exportsSatisfy
  id := .invalidExportType
  category := .error
  template :=
    "Exported member \"\x7b\x7b exportName \x7d\x7d\" does not satisfy the type \"\x7b\x7b typeName \x7d\x7d\""

/-- Raised where a type is not known. -/
def unresolvedType : Message where
  rule := exportsSatisfy
  id := .unresolvedType
  category := .error
  template := "The type \"\x7b\x7b typeName \x7d\x7d\" could not be resolved"

end Message

end ExportLint
