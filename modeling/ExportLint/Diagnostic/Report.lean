import ExportLint.Diagnostic.Message
import ExportLint.Text.LineMap
import ExportLint.Text.Span

/-!
# Diagnostics

A diagnostic is a message raised at a place of a file. It is shown on one line, or handed to a
renderer as a report that labels its place in the source.
-/

namespace ExportLint

/-- A message raised at a place. -/
structure Diagnostic where
  file : String
  span : Span
  start : Location
  rule : String
  messageId : MessageId
  category : Category
  message : String
  payload : Payload
  deriving Repr, DecidableEq

/-- What a renderer needs to show a diagnostic in its source. -/
structure Report where
  message : String
  code : String
  severity : Category
  label : String
  offset : Offset
  length : Offset
  sourceName : String
  source : String
  deriving Repr, DecidableEq

namespace Diagnostic

/-- The diagnostic that raises a message at a place. -/
def raise (message : Message) (payload : Payload) (file : String) (span : Span) (start : Location) :
    Diagnostic where
  file
  span
  start
  rule := message.rule
  messageId := message.id
  category := message.category
  message := message.text payload
  payload

/-- Whether the diagnostic is an error rather than a warning. -/
def isError (diagnostic : Diagnostic) : Bool :=
  diagnostic.category == .error

/-- The rule and the message by name. -/
def code (diagnostic : Diagnostic) : String :=
  s!"{diagnostic.rule}({diagnostic.messageId.text})"

/-- The diagnostic on one line. -/
def text (diagnostic : Diagnostic) : String :=
  s!"{diagnostic.file}({diagnostic.start.text}): {diagnostic.category.text} {diagnostic.code}: " ++
    diagnostic.message

/-- What the label at the place says. -/
def label (diagnostic : Diagnostic) : String :=
  match diagnostic.payload.exportName with
  | some name => "export `" ++ name ++ "`"
  | none => "export"

/-- The report of a diagnostic against the text of its file. -/
def report (diagnostic : Diagnostic) (source : String) : Except Fault Report := do
  let range ← diagnostic.span.range
  return {
    message := diagnostic.message
    code := diagnostic.code
    severity := diagnostic.category
    label := diagnostic.label
    offset := range.start
    length := ← range.length
    sourceName := diagnostic.file
    source }

end Diagnostic

end ExportLint
