import CallLowering.Fragment.JavaScript
import CallLowering.Fragment.Python
import CallLowering.Library.Arity
import CallLowering.Routine.Standard
import CallLowering.Signature.Basic

namespace CallLowering.Library

/-- What `max` and `min` have in common. Two numbers that are held alike are compared in place; all others are left
to the routine for boxed values. In place as in the routine, what is not a number gives way to the other operand. -/
structure Extremum where
  name : String
  /-- How the second operand compares with the first when it is the result. -/
  wins : Comparison
  dynamic : Method

namespace Extremum

def resolve (table : RoutineTable) (name : String) (wins : Comparison) : Except LowerError Extremum := do
  return ⟨name,wins,← Method.resolve table basicOwner name [.boxed,.boxed]⟩

def max (table : RoutineTable) : Except LowerError Extremum := resolve table "max" .gt

def min (table : RoutineTable) : Except LowerError Extremum := resolve table "min" .lt

def signature (f : Extremum) : Signature := ⟨f.name,[⟨[.number,.number],.number⟩],.pure⟩

/-- The second operand if it wins, or if the first is a float and not a number; else the first. -/
def select (f : Extremum) (a b : Expr) (rep : Rep) : Expr :=
  .select (.compare f.wins b a) b
    (if rep=.float64 then .select (.compare .ne a a) b a else a)

/-- The type of both operands, if it is one of numbers. -/
def resultType (a b : SemanticType) : SemanticType :=
  if a=b ∧ a.isNumeric then a else .number

def bytecode (f : Extremum) : BytecodeLowering := fun args => do
  let (a,b) ← two f.name args
  let type := resultType a.type b.type
  if a.rep=b.rep && (← get).specializes a.rep then
    let first ← Build.cache a.expr
    let second ← Build.cache b.expr
    return ⟨first.finish (second.finish (f.select first.reference second.reference a.rep)),type⟩
  else return ⟨← Build.invoke f.dynamic [a.expr,b.expr],type⟩

def javaScript (f : Extremum) : TextLowering where
  lower _ args := do
    let _ ← two f.name args
    return JavaScript.call ("Math."++f.name) args
  imports _ _ := []

def python (f : Extremum) : TextLowering where
  lower _ args := do
    let _ ← two f.name args
    return Python.call f.name args
  imports _ _ := []

def generic (f : Extremum) : GenericLowering := fun factory _ args => factory.callStatic f.dynamic args

def capabilities (f : Extremum) : Capabilities :=
  ⟨some f.bytecode,some f.javaScript,some f.python,some f.generic⟩

end Extremum

end CallLowering.Library
