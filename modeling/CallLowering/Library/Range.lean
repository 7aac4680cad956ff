import CallLowering.Fragment.JavaScript
import CallLowering.Fragment.Python
import CallLowering.Library.Arity
import CallLowering.Routine.Standard
import CallLowering.Signature.Basic

namespace CallLowering.Library

/-- The routines for one, two and three arguments. -/
structure RangeFunction where
  upTo : Method
  between : Method
  stepped : Method

namespace RangeFunction

def name : String := "range"

def resolve (table : RoutineTable) : Except LowerError RangeFunction := do
  let upTo ← Method.resolve table basicOwner name [.int64]
  let between ← Method.resolve table basicOwner name [.int64,.int64]
  let stepped ← Method.resolve table basicOwner name [.int64,.int64,.int64]
  return ⟨upTo,between,stepped⟩

def signature : Signature :=
  ⟨name,[⟨[.number],.list .int⟩,⟨[.number,.number],.list .int⟩,⟨[.number,.number,.number],.list .int⟩],
    .pure⟩

/-- The routine for this number of arguments. -/
def routine (f : RangeFunction) : Nat → Except LowerError Method
  | 1 => .ok f.upTo
  | 2 => .ok f.between
  | 3 => .ok f.stepped
  | n => .error (.internal ("no range routine for arity "++toString n))

def zeroStep : LowerError := .invalidArgument name "step must be non-zero"

/-- Refuses a step that is known to be zero. -/
def checkStep (step : Option Int64) : Except LowerError Unit :=
  if step=some 0 then .error zeroStep else .ok ()

def bytecode (f : RangeFunction) : BytecodeLowering := fun args => do
  upToThree name args
  if let [_,_,step] := args then checkStep step.expr.intConstant?
  let m ← f.routine args.length
  return ⟨← Build.invoke m (args.map TypedExpr.expr),.list .int⟩

def generic (f : RangeFunction) : GenericLowering := fun factory _ args => do
  upToThree name args
  if let [_,_,step] := args then checkStep step.intConstant?
  factory.callStatic (← f.routine args.length) args

/-- The step as it is passed on: literals themselves, all else through a check. -/
def guardStep (config : JavaScriptConfig) (step : Fragment) : Except LowerError Fragment :=
  match step.integer? with
  | some n => if n=0 then .error zeroStep else .ok step
  | none => .ok (JavaScript.call (config.runtimeLibrary++".checkedStep") [step])

def javaScript : TextLowering where
  lower context args := do
    upToThree name args
    let callee := context.config.javaScript.rangeLibrary++".range"
    match args with
    | [start,stop,step] =>
        return JavaScript.call callee [start,stop,← guardStep context.config.javaScript step]
    | _ => return JavaScript.call callee args
  imports context args :=
    let config := context.config.javaScript
    match args with
    | [_,_,step] =>
        if step.integer?.isNone then [config.rangeLibrary,config.runtimeLibrary]
        else [config.rangeLibrary]
    | _ => [config.rangeLibrary]

def python : TextLowering where
  lower context args := do
    upToThree name args
    if let [_,_,step] := args then checkStep step.integer?
    return Python.call "list" [Python.call context.config.python.rangeBuiltin args]
  imports _ _ := []

def capabilities (f : RangeFunction) : Capabilities :=
  ⟨some f.bytecode,some javaScript,some python,some f.generic⟩

end RangeFunction

end CallLowering.Library
