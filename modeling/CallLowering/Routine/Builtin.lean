import CallLowering.Routine.Basic
import CallLowering.Value.Arithmetic

namespace CallLowering.Builtin

/-- The name that a table lists the routine under. -/
def name : Builtin → String
  | nativeCeil | ceil => "ceil"
  | nativeFloor | floor => "floor"
  | rangeTo | rangeBetween | rangeBy => "range"
  | max => "max"
  | min => "min"
  | isNull => "isNull"
  | randomInt => "randomInt"

/-- Runs a routine that needs no receiver. Who calls it has counted the arguments; other numbers are refused. -/
def run : Builtin → List Slot → Except RoutineError Slot
  | nativeCeil,[a] => do return .float64 (← a.toFloat).ceil
  | nativeFloor,[a] => do return .float64 (← a.toFloat).floor
  | ceil,[a] => do return .boxed (← a.toValue.ceil)
  | floor,[a] => do return .boxed (← a.toValue.floor)
  | rangeTo,[stop] => do return .boxed (← Value.range 0 (← stop.toInt) 1)
  | rangeBetween,[start,stop] => do return .boxed (← Value.range (← start.toInt) (← stop.toInt) 1)
  | rangeBy,[start,stop,step] => do
      return .boxed (← Value.range (← start.toInt) (← stop.toInt) (← step.toInt))
  | max,[a,b] => do return .boxed (← a.toValue.max b.toValue)
  | min,[a,b] => do return .boxed (← a.toValue.min b.toValue)
  | isNull,[a] => .ok (.bool a.toValue.isNullish)
  | b,args => .error (.argumentCount b.name 1 args.length)

end CallLowering.Builtin
