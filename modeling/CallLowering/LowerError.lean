namespace CallLowering

/-- What a call is lowered to: expression trees for the stack machine, text of one of two languages, or a
description of calls to be materialized later. -/
inductive Backend
  | bytecode
  | javaScript
  | python
  | genericCall
  deriving DecidableEq

def Backend.all : List Backend := [.bytecode,.javaScript,.python,.genericCall]

def Backend.text : Backend → String
  | .bytecode => "bytecode"
  | .javaScript => "js"
  | .python => "python"
  | .genericCall => "generic-call"

/-- The name in a listing. -/
def Backend.listing : Backend → String
  | .bytecode => "Bytecode"
  | .javaScript => "JsText"
  | .python => "PyText"
  | .genericCall => "GenericCall"

/-- Who has to mend an error: the host that set up the functions, the author of the template, or the author
of a function. -/
inductive ErrorClass
  | configuration
  | user
  | internal
  deriving DecidableEq

def ErrorClass.text : ErrorClass → String
  | .configuration => "configuration"
  | .user => "user"
  | .internal => "internal"

inductive LowerError
  | duplicateFunction (name : String)
  | unknownFunction (name : String)
  | arityMismatch (name expected : String) (actual : Nat)
  | typeMismatch (name : String) (index : Nat) (expected actual : String)
  | configuration (message : String)
  | unregisteredRuntime (function owner : String)
  | unsupportedBackend (function : String) (backend : Backend)
  | invalidArgument (function message : String)
  | internal (message : String)
  deriving DecidableEq

namespace LowerError

def message : LowerError → String
  | duplicateFunction name => "Function '"++name++"' is already registered"
  | unknownFunction name => "Unknown function '"++name++"'"
  | arityMismatch name expected actual =>
      "Function '"++name++"' called with "++toString actual++" argument(s), expected "++expected
  | typeMismatch name index expected actual =>
      "Argument "++toString index++" of '"++name++"' has type "++actual++", expected "++expected
  | configuration message => "Plugin configuration error: "++message
  | unregisteredRuntime function owner =>
      "Function '"++function++"' has no runtime registered for "++owner
  | unsupportedBackend function backend =>
      "Function '"++function++"' is not supported by the "++backend.text++" backend"
  | invalidArgument function message => "Invalid argument to '"++function++"': "++message
  | internal message => "Internal lowering error: "++message

def errorClass : LowerError → ErrorClass
  | duplicateFunction _ | configuration _ | unregisteredRuntime _ _ => .configuration
  | unknownFunction _ | arityMismatch _ _ _ | typeMismatch _ _ _ _ | unsupportedBackend _ _
  | invalidArgument _ _ => .user
  | internal _ => .internal

/-- The code that diagnostics show. -/
def code : LowerError → String
  | duplicateFunction _ => "L0001"
  | unknownFunction _ => "L0002"
  | arityMismatch _ _ _ => "L0003"
  | typeMismatch _ _ _ _ => "L0004"
  | configuration _ => "L0005"
  | unregisteredRuntime _ _ => "L0006"
  | unsupportedBackend _ _ => "L0007"
  | invalidArgument _ _ => "L0008"
  | internal _ => "L0009"

end LowerError

end CallLowering
