import CallLowering.Fragment.JavaScript
import CallLowering.Fragment.Python
import CallLowering.Library.Arity
import CallLowering.Routine.Standard
import CallLowering.Signature.Basic

namespace CallLowering.Library

/-- What `isNull` and `isNonnull` have in common. Only the first can be described as a call. -/
structure NullCheck where
  name : String
  negated : Bool
  routine : Method

namespace NullCheck

def resolve (table : RoutineTable) (name : String) (negated : Bool) : Except LowerError NullCheck := do
  return ⟨name,negated,(← Method.resolve table basicOwner "isNull" [.boxed]).asCheap⟩

def isNull (table : RoutineTable) : Except LowerError NullCheck := resolve table "isNull" false

def isNonnull (table : RoutineTable) : Except LowerError NullCheck := resolve table "isNonnull" true

def signature (f : NullCheck) : Signature := ⟨f.name,[⟨[.any],.bool⟩],.pure⟩

/-- Tests a boxed value. What is not boxed is never null, and is only computed for its effects. -/
def bytecode (f : NullCheck) : BytecodeLowering := fun args => do
  let arg ← one f.name args
  if arg.rep=.boxed then
    return ⟨if f.negated then .not (.isNull arg.expr) else .isNull arg.expr,.bool⟩
  else return ⟨(← Build.cache arg.expr).finish (.bool f.negated),.bool⟩

def javaScript (f : NullCheck) : TextLowering where
  lower _ args := do
    let arg ← one f.name args
    return if f.negated then JavaScript.isNotNull arg else JavaScript.isNull arg
  imports _ _ := []

def python (f : NullCheck) : TextLowering where
  lower _ args := do
    let arg ← one f.name args
    return if f.negated then Python.isNotNone arg else Python.isNone arg
  imports _ _ := []

def generic (f : NullCheck) : GenericLowering := fun factory _ args => factory.callStatic f.routine args

def capabilities (f : NullCheck) : Capabilities :=
  ⟨some f.bytecode,some f.javaScript,some f.python,if f.negated then none else some f.generic⟩

end NullCheck

end CallLowering.Library
