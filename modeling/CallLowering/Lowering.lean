import CallLowering.Diagnostic.Basic
import CallLowering.Fragment.JavaScript
import CallLowering.Fragment.Python
import CallLowering.Registry

namespace CallLowering

/-- The arguments of a call, lowered for one backend. -/
inductive Arguments
  | bytecode (args : List TypedExpr)
  | javaScript (args : List Fragment)
  | python (args : List Fragment)
  | genericCall (args : List Deferred)

namespace Arguments

def backend : Arguments → Backend
  | bytecode _ => .bytecode
  | javaScript _ => .javaScript
  | python _ => .python
  | genericCall _ => .genericCall

def size : Arguments → Nat
  | bytecode args => args.length
  | javaScript args => args.length
  | python args => args.length
  | genericCall args => args.length

end Arguments

/-- What a call is lowered to. Text comes with what it has to import, each name once. -/
inductive Artifact
  | expression (e : TypedExpr)
  | text (f : Fragment) (imports : List String)
  | deferred (d : Deferred)

namespace Artifact

/-- What stands for a call that was refused. -/
def placeholder : Backend → Artifact
  | .bytecode => expression .null
  | .javaScript => text JavaScript.null []
  | .python => text Python.none []
  | .genericCall => deferred .null

/-- Is it what stands for a refused call of this backend? -/
def standsIn : Artifact → Backend → Bool
  | expression ⟨.const (.boxed .null),.null⟩,.bytecode => true
  | text f [],.javaScript => f==JavaScript.null
  | text f [],.python => f==Python.none
  | deferred (.constant (.boxed .null)),.genericCall => true
  | _,_ => false

def text? : Artifact → Option Fragment
  | text f _ => some f
  | _ => none

def expression? : Artifact → Option TypedExpr
  | expression e => some e
  | _ => none

def imports : Artifact → List String
  | text _ names => names
  | _ => []

end Artifact

/-- A call in a template. -/
structure CallSite where
  function : String
  argTypes : List SemanticType
  location : SourceLocation
  /-- The first local that the code of the call may use. -/
  firstLocal : UInt16

/-- Keeps the type of an expression if it is the declared one or says strictly more. -/
def TypedExpr.narrow (e : TypedExpr) (declared : SemanticType) : TypedExpr :=
  if e.type=declared ∨ (declared.accepts e.type ∧ ¬e.type.accepts declared) then e
  else {e with type := declared}

/-- The capability that was asked for, or the error that there is none. -/
def FunctionEntry.require {α : Type} (e : FunctionEntry) (c : Option α) (backend : Backend) : Except LowerError α :=
  match c with
  | some c => .ok c
  | none => .error (.unsupportedBackend e.signature.name backend)

/-- Who runs capabilities. Those of a host may keep a state from one call to the next; it is in the monad. -/
structure Runner (m : Type → Type) where
  bytecode : BytecodeLowering → List TypedExpr → Builder → ExceptT LowerError m TypedExpr
  text : TextLowering → CallContext → List Fragment → ExceptT LowerError m Fragment
  imports : TextLowering → CallContext → List Fragment → m (List String)
  generic : GenericLowering → DeferredFactory → CallContext → List Deferred →
    ExceptT LowerError m Deferred

section

variable {m : Type → Type} [Monad m]

/-- Applies capabilities to what they are given. -/
def Runner.direct : Runner m where
  bytecode c args b := ExceptT.mk (pure (c args b).1)
  text c context args := ExceptT.mk (pure (c.lower context args))
  imports c context args := pure (c.imports context args)
  generic c factory context args := ExceptT.mk (pure (c factory context args))

namespace Registry

/-- Runs a bytecode capability from the first free local of the call. -/
def runBytecode (run : Runner m) (r : Registry) (e : FunctionEntry) (site : CallSite) (c : BytecodeLowering)
    (args : List TypedExpr) : ExceptT LowerError m TypedExpr :=
  run.bytecode c args ⟨site.function,r.config,e.runtimes,site.firstLocal⟩

def runText (run : Runner m) (r : Registry) (site : CallSite) (c : TextLowering) (args : List Fragment) :
    ExceptT LowerError m Artifact := do
  let context : CallContext := ⟨site.function,r.config⟩
  let f ← run.text c context args
  return .text f ((← run.imports c context args).eraseDups)

def runGeneric (run : Runner m) (r : Registry) (e : FunctionEntry) (site : CallSite) (c : GenericLowering)
    (args : List Deferred) : ExceptT LowerError m Deferred :=
  run.generic c ⟨site.function,e.runtimes⟩ ⟨site.function,r.config⟩ args

/-- Hands a checked call to the capability for its backend. Without one for bytecode, the description of the
call is materialized. -/
def dispatch (run : Runner m) (r : Registry) (e : FunctionEntry) (site : CallSite) (returns : SemanticType) :
    Arguments → ExceptT LowerError m Artifact
  | .bytecode args =>
      match e.capabilities.bytecode with
      | some c => do return .expression ((← r.runBytecode run e site c args).narrow returns)
      | none => do
          let c ← e.require e.capabilities.generic .bytecode
          let d ← r.runGeneric run e site c (args.map Deferred.leaf)
          return .expression ((← d.materialize).narrow returns)
  | .javaScript args => do
      r.runText run site (← e.require e.capabilities.javaScript .javaScript) args
  | .python args => do
      r.runText run site (← e.require e.capabilities.python .python) args
  | .genericCall args => do
      let c ← e.require e.capabilities.generic .genericCall
      return .deferred (← r.runGeneric run e site c args)

/-- After the check no arity can be wrong: a capability that finds one is at fault itself. -/
def afterCheck : LowerError → LowerError
  | .arityMismatch name expected actual =>
      .internal ("arity inconsistency discovered while lowering: "++
        (LowerError.arityMismatch name expected actual).message)
  | e => e

/-- Checks a call and lowers it. -/
def tryLower (run : Runner m) (r : Registry) (site : CallSite) (args : Arguments) :
    ExceptT LowerError m Artifact := do
  if site.argTypes.length≠args.size then
    throw (.internal ("call to '"++site.function++"' has "++toString site.argTypes.length++
      " argument type(s) for "++toString args.size++" argument(s)"))
  let e ← r.resolve site.function
  let overload ← e.signature.select site.argTypes
  (r.dispatch run e site overload.returns args).adapt afterCheck

/-- Lowers a call. What the author of the template did wrong is reported, and the call replaced. -/
def lowerBy (run : Runner m) (r : Registry) (site : CallSite) (args : Arguments) (log : DiagnosticLog) :
    m (Except LowerError Artifact × DiagnosticLog) := do
  match ← (r.tryLower run site args).run with
  | .ok a => return (.ok a,log)
  | .error e =>
      if e.errorClass=.user then
        return (.ok (.placeholder args.backend),log.report (.ofError e site.location))
      else return (.error e,log)

end Registry

end

/-- Lowers a call with capabilities that keep no state. -/
def Registry.lower (r : Registry) (site : CallSite) (args : Arguments) (log : DiagnosticLog) :
    Except LowerError Artifact × DiagnosticLog :=
  Id.run (r.lowerBy .direct site args log)

end CallLowering
