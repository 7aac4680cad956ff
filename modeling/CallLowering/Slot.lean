import CallLowering.Value.Basic

namespace CallLowering

/-- How a value is held: as a bare integer, float or truth value, or boxed with its type. -/
inductive Rep
  | int64
  | float64
  | bool
  | boxed
  deriving DecidableEq

namespace Rep

def text : Rep → String
  | int64 => "i64"
  | float64 => "f64"
  | bool => "bool"
  | boxed => "value"

/-- The name in a listing. -/
def listing : Rep → String
  | int64 => "Int64"
  | float64 => "Float64"
  | bool => "Bool"
  | boxed => "Boxed"

def isNativeNumeric : Rep → Bool
  | int64 | float64 => true
  | _ => false

/-- Parameter representations in a row. -/
def texts (rs : List Rep) : String := ", ".intercalate (rs.map text)

end Rep

/-- A value in its representation. -/
inductive Slot
  | int64 (n : Int64)
  | float64 (x : Binary64)
  | bool (b : Bool)
  | boxed (v : Value)

namespace Slot

def rep : Slot → Rep
  | int64 _ => .int64
  | float64 _ => .float64
  | bool _ => .bool
  | boxed _ => .boxed

/-- The value that the slot holds. -/
def toValue : Slot → Value
  | int64 n => .int n
  | float64 x => .float x
  | bool b => .bool b
  | boxed v => v

def box (s : Slot) : Slot := boxed s.toValue

/-- The boxed value, if there is one. -/
def value? : Slot → Option Value
  | boxed v => some v
  | _ => none

/-- An integer, bare or boxed. -/
def toInt : Slot → Except RoutineError Int64
  | int64 n => .ok n
  | boxed v => v.toInt
  | s => .error (.wrongType "i64" s.rep.text)

/-- A float, bare or boxed; a bare integer is not taken for one. -/
def toFloat : Slot → Except RoutineError Binary64
  | float64 x => .ok x
  | boxed v => v.toFloat
  | s => .error (.wrongType "f64" s.rep.text)

/-- A truth value, bare or boxed. -/
def toBool : Slot → Except RoutineError Bool
  | bool b => .ok b
  | boxed v => v.toBool
  | s => .error (.wrongType "bool" s.rep.text)

/-- Takes a boxed value out of its box. -/
def unboxValue (v : Value) : Rep → Except RoutineError Slot
  | .int64 => v.toInt.map int64
  | .float64 => v.toFloat.map float64
  | .bool => v.toBool.map bool
  | .boxed => .ok (boxed v)

/-- The slot in another representation. Between bare integers and floats this is numeric conversion; a truth
value only goes into a box. -/
def convert : Slot → Rep → Except RoutineError Slot
  | boxed v,target => unboxValue v target
  | s,.boxed => .ok s.box
  | int64 n,.int64 => .ok (int64 n)
  | int64 n,.float64 => .ok (float64 (Binary64.ofInt n.toInt))
  | float64 x,.float64 => .ok (float64 x)
  | float64 x,.int64 => .ok (int64 x.toInt64)
  | bool b,.bool => .ok (bool b)
  | s,target => .error (.wrongType target.text s.rep.text)

/-- Takes a slot out of its box; one that is not boxed is converted. -/
def unbox : Slot → Rep → Except RoutineError Slot
  | boxed v,target => unboxValue v target
  | s,target => s.convert target

/-- The text of a slot in a listing. -/
def listing : Slot → String
  | int64 n => "Int64("++Int64.text n++")"
  | float64 x => "Float64("++Decimal.text Decimal.detailed x++")"
  | bool b => if b then "Bool(true)" else "Bool(false)"
  | boxed v => "Boxed("++v.listing++")"

/-- Equality of slots of one representation, with floats compared as numbers. -/
def equals : Slot → Slot → Bool
  | int64 a,int64 b => a==b
  | float64 a,float64 b => a.equals b
  | bool a,bool b => a==b
  | boxed a,boxed b => a.equals b
  | _,_ => false

end Slot

end CallLowering
