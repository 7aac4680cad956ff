import CallLowering.Library.Extremum
import CallLowering.Library.NullCheck
import CallLowering.Library.RandomInt
import CallLowering.Library.Range
import CallLowering.Library.Rounding
import CallLowering.Registry

namespace CallLowering.Library

/-- A step of filling a registry. If it fails, what was declared before stays declared. -/
abbrev Setup (α : Type) : Type := ExceptT LowerError (StateM Registry) α

/-- Replaces the registry by the result of an operation on it. -/
def update (f : Registry → Except LowerError Registry) : Setup Unit := do
  set (← f (← get))

def declare (signature : Signature) (capabilities : Capabilities) : Setup Unit :=
  update fun r => r.declare signature capabilities

/-- Declares the basic functions with the routines of this table. -/
def registerBasic (table : RoutineTable) : Setup Unit := do
  let ceiling ← Rounding.ceiling table
  let floor ← Rounding.floor table
  declare ceiling.signature ceiling.capabilities
  declare floor.signature floor.capabilities
  let range ← RangeFunction.resolve table
  declare RangeFunction.signature range.capabilities
  let isNull ← NullCheck.isNull table
  let isNonnull ← NullCheck.isNonnull table
  declare isNull.signature isNull.capabilities
  declare isNonnull.signature isNonnull.capabilities
  let max ← Extremum.max table
  let min ← Extremum.min table
  declare max.signature max.capabilities
  declare min.signature min.capabilities
  let randomInt ← RandomInt.resolve table
  declare RandomInt.signature randomInt.capabilities
  update fun r => r.registerRuntime RandomInt.name randomOwner

/-- The basic functions under this configuration, with the routines of this table. -/
def build (config : Config) (table : RoutineTable) : Except LowerError Registry :=
  match (registerBasic table).run (Registry.empty config) with
  | (.ok (),r) => .ok r
  | (.error e,_) => .error e

/-- The basic functions as they are by default. -/
def standard : Except LowerError Registry := build Config.default RoutineTable.standard

end CallLowering.Library
