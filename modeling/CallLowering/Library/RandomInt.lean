import CallLowering.Fragment.JavaScript
import CallLowering.Fragment.Python
import CallLowering.Library.Arity
import CallLowering.Routine.Standard
import CallLowering.Signature.Basic

namespace CallLowering.Library

/-- The only function with an effect. Its routine is a method of the random source that the host has registered. -/
structure RandomInt where
  routine : Method

namespace RandomInt

def name : String := "randomInt"

def resolve (table : RoutineTable) : Except LowerError RandomInt := do
  return ⟨← Method.resolve table randomOwner name [.int64]⟩

def signature : Signature := ⟨name,[⟨[.number],.int⟩],.impure⟩

/-- Refuses a bound that is known not to be positive. -/
def checkBound : Option Int64 → Except LowerError Unit
  | some n =>
      if n.toInt ≤ 0 then
        .error (.invalidArgument name ("upper bound must be positive, got "++Int64.text n))
      else .ok ()
  | none => .ok ()

def bytecode (f : RandomInt) : BytecodeLowering := fun args => do
  let bound ← one name args
  checkBound bound.expr.intConstant?
  return ⟨← Build.invoke f.routine [bound.expr],.int⟩

def javaScript : TextLowering where
  lower _ args := do
    let bound ← one name args
    checkBound bound.integer?
    let scaled := Fragment.binary JavaScript.times (JavaScript.call "Math.random" []) bound
    return JavaScript.call "Math.floor" [scaled]
  imports _ _ := []

def python : TextLowering where
  lower _ args := do
    let bound ← one name args
    checkBound bound.integer?
    let last := Fragment.binary Python.minus bound (Python.integer 1)
    return Python.callWith "random.randint" [Python.integer 0,last] []
  imports _ _ := ["random"]

def generic (f : RandomInt) : GenericLowering := fun factory _ args => do
  let bound ← one name args
  checkBound bound.intConstant?
  factory.callRuntime f.routine [bound]

def capabilities (f : RandomInt) : Capabilities :=
  ⟨some f.bytecode,some javaScript,some python,some f.generic⟩

end RandomInt

end CallLowering.Library
