import CallLowering.LowerError

namespace CallLowering

/-- A range of bytes in a source file, given by its number. -/
structure SourceLocation where
  file : Nat
  start : Nat
  stop : Nat
  deriving DecidableEq

/-- How bad it is, from the worst on. -/
inductive Severity
  | bug
  | error
  | warning
  | note
  | help
  deriving DecidableEq

def Severity.text : Severity → String
  | .bug => "bug"
  | .error => "error"
  | .warning => "warning"
  | .note => "note"
  | .help => "help"

/-- A place in a source file and what to say there. -/
structure Label where
  location : SourceLocation
  message : String
  deriving DecidableEq

structure Diagnostic where
  severity : Severity
  code : Option String
  message : String
  labels : List Label
  notes : List String
  deriving DecidableEq

namespace Diagnostic

/-- Does it count as an error? -/
def isError (d : Diagnostic) : Bool := d.severity==.bug || d.severity==.error

/-- What is said at the place of the call. -/
def labelText : LowerError → String
  | .arityMismatch _ _ _ => "wrong number of arguments"
  | .typeMismatch _ _ _ _ => "argument type not accepted"
  | .unsupportedBackend _ _ => "not available for this backend"
  | .invalidArgument _ _ => "invalid argument"
  | .unknownFunction _ => "unknown function"
  | _ => "while lowering this call"

/-- What is added to some errors. -/
def notesFor : LowerError → List String
  | .unsupportedBackend _ _ => ["the function is only implemented for some backends"]
  | _ => []

/-- The diagnostic for an error in the call at this place. -/
def ofError (e : LowerError) (location : SourceLocation) : Diagnostic :=
  ⟨if e.errorClass=.internal then .bug else .error,some e.code,e.message,[⟨location,labelText e⟩],notesFor e⟩

end Diagnostic

/-- Diagnostics in the order in which they were reported, and how many errors were among them. -/
structure DiagnosticLog where
  diagnostics : List Diagnostic
  errorCount : Nat

namespace DiagnosticLog

def empty : DiagnosticLog := ⟨[],0⟩

def report (l : DiagnosticLog) (d : Diagnostic) : DiagnosticLog :=
  ⟨l.diagnostics++[d],if d.isError then l.errorCount+1 else l.errorCount⟩

def hasErrors (l : DiagnosticLog) : Bool := decide (0 < l.errorCount)

/-- A mark to ask from, later, whether there were errors. -/
def checkpoint (l : DiagnosticLog) : Nat := l.errorCount

/-- Has an error been reported since the checkpoint? -/
def errorsSince (l : DiagnosticLog) (checkpoint : Nat) : Bool := decide (checkpoint < l.errorCount)

end DiagnosticLog

end CallLowering
