import CallLowering.Slot

namespace CallLowering

/-- The routines behind the basic functions. -/
inductive Builtin
  | nativeCeil
  | nativeFloor
  | ceil
  | floor
  | rangeTo
  | rangeBetween
  | rangeBy
  | max
  | min
  | isNull
  | randomInt
  deriving DecidableEq

/-- What a routine does: one that is built in, or something of the host's own, known to it by a name. -/
inductive Body
  | builtin (b : Builtin)
  | foreign (name : String)
  deriving DecidableEq

structure Routine where
  owner : String
  name : String
  params : List Rep
  returns : Rep
  /-- Is it a method of a runtime object? -/
  onReceiver : Bool
  body : Body
  deriving DecidableEq

namespace Routine

/-- Owner, name, parameters and result. -/
def text (r : Routine) : String :=
  r.owner++"."++r.name++"("++Rep.texts r.params++") -> "++r.returns.text

def listing (r : Routine) : String := "Routine("++r.text++")"

end Routine

end CallLowering
