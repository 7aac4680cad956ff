import CallLowering.Fragment.JavaScript
import CallLowering.Fragment.Python
import CallLowering.Library.Arity
import CallLowering.Routine.Standard
import CallLowering.Signature.Basic

namespace CallLowering.Library

/-- The ways to round a number: integers are passed on, floats are rounded natively, and all else is left
to the routine for boxed values. -/
inductive NumericPath
  | passThrough
  | native
  | dynamic
  deriving DecidableEq

/-- The way for a number in this representation. Without specialization all take the same. -/
def NumericPath.select (rep : Rep) (specialize : Bool) : NumericPath :=
  match rep,specialize with
  | .int64,true => .passThrough
  | .float64,true => .native
  | _,_ => .dynamic

/-- The name in a listing. -/
def NumericPath.listing : NumericPath → String
  | .passThrough => "PassThrough"
  | .native => "Native"
  | .dynamic => "Dynamic"

/-- The two routines that round in one direction. -/
structure Rounder where
  native : Method
  dynamic : Method

namespace Rounder

def resolve (table : RoutineTable) (routine : String) : Except LowerError Rounder := do
  let native ← Method.resolve table mathOwner routine [.float64]
  let dynamic ← Method.resolve table basicOwner routine [.boxed]
  return ⟨native.asCheap,dynamic⟩

/-- Rounds a number. -/
def lower (r : Rounder) (arg : TypedExpr) : Build TypedExpr := do
  let b ← get
  match NumericPath.select arg.rep b.config.bytecode.specializeNumeric with
  | .passThrough => return ⟨arg.expr,.int⟩
  | .native => return ⟨.convert (← Build.invoke r.native [arg.expr]) .int64,.int⟩
  | .dynamic => return ⟨← Build.invoke r.dynamic [arg.expr],.int⟩

end Rounder

/-- A rounding function, with what it is called in the text languages. -/
structure Rounding where
  name : String
  rounder : Rounder
  scriptName : String
  pythonName : String

namespace Rounding

def ceiling (table : RoutineTable) : Except LowerError Rounding := do
  return ⟨"ceiling",← Rounder.resolve table "ceil","Math.ceil","math.ceil"⟩

def floor (table : RoutineTable) : Except LowerError Rounding := do
  return ⟨"floor",← Rounder.resolve table "floor","Math.floor","math.floor"⟩

def signature (f : Rounding) : Signature := ⟨f.name,[⟨[.number],.int⟩],.pure⟩

def bytecode (f : Rounding) : BytecodeLowering := fun args => do
  f.rounder.lower (← one f.name args)

def javaScript (f : Rounding) : TextLowering where
  lower _ args := do return JavaScript.call f.scriptName [← one f.name args]
  imports _ _ := []

def python (f : Rounding) : TextLowering where
  lower _ args := do return Python.call "int" [Python.call f.pythonName [← one f.name args]]
  imports _ _ := ["math"]

def generic (f : Rounding) : GenericLowering := fun factory _ args =>
  factory.callStatic f.rounder.dynamic args

def capabilities (f : Rounding) : Capabilities :=
  ⟨some f.bytecode,some f.javaScript,some f.python,some f.generic⟩

end Rounding

end CallLowering.Library
