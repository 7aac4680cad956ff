import CallLowering.Diagnostic.Basic
import CallLowering.Diagnostic.Source
import CallLowering.Json.Printer

namespace CallLowering

/-- A label with the line and the column of its first byte, unless its file is not known. -/
def Label.toJson? (files : List Source) (l : Label) : Option Json := do
  let file ← files[l.location.file]?
  let line := file.lineIndex l.location.start
  some (.object [("file",.string file.name),("line",.number (toString (line+1))),
    ("column",.number (toString (file.column line l.location.start))),("message",.string l.message),
    ("style",.string "primary")])

def Diagnostic.toJson (files : List Source) (d : Diagnostic) : Json :=
  .object [("code",(d.code.map Json.string).getD .null),("severity",.string d.severity.text),
    ("message",.string d.message),("labels",.array (d.labels.filterMap (Label.toJson? files))),
    ("notes",.array (d.notes.map Json.string))]

end CallLowering
