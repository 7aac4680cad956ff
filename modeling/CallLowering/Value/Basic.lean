import CallLowering.Number.Decimal
import CallLowering.Text.Quoted

namespace CallLowering

/-- A value that templates compute with. -/
inductive Value
  | undefined
  | null
  | bool (b : Bool)
  | int (n : Int64)
  | float (x : Binary64)
  | string (s : String)
  | list (items : List Value)

/-- Why a routine fails. -/
inductive RoutineError
  | invalidArgument (routine message : String)
  | wrongType (expected actual : String)
  | argumentCount (routine : String) (expected actual : Nat)
  | duplicateRoutine (owner name : String)
  | missingReceiver (owner : String)
  deriving DecidableEq

def RoutineError.message : RoutineError → String
  | .invalidArgument routine message => "Invalid argument to "++routine++": "++message
  | .wrongType expected actual => "Type error: expected "++expected++", got "++actual
  | .argumentCount routine expected actual =>
      "Routine "++routine++" takes "++toString expected++" argument(s), got "++toString actual
  | .duplicateRoutine owner name =>
      "Routine "++owner++"."++name++" is already registered with these parameters"
  | .missingReceiver owner => "No runtime instance registered for "++owner

namespace Value

def typeName : Value → String
  | undefined => "undefined"
  | null => "null"
  | bool _ => "bool"
  | int _ => "int"
  | float _ => "float"
  | string _ => "string"
  | list _ => "list"

/-- Is the value null or undefined? -/
def isNullish : Value → Bool
  | undefined | null => true
  | _ => false

def toFloat : Value → Except RoutineError Binary64
  | int n => .ok (Binary64.ofInt n.toInt)
  | float x => .ok x
  | v => .error (.wrongType "number" v.typeName)

def toInt : Value → Except RoutineError Int64
  | int n => .ok n
  | float x => .ok x.toInt64
  | v => .error (.wrongType "number" v.typeName)

def toBool : Value → Except RoutineError Bool
  | bool b => .ok b
  | v => .error (.wrongType "bool" v.typeName)

mutual

/-- The text that a template prints. -/
def text : Value → String
  | undefined => "undefined"
  | null => "null"
  | bool b => if b then "true" else "false"
  | int n => Int64.text n
  | float x => Decimal.text Decimal.plain x
  | string s => s
  | list items => "["++", ".intercalate (texts items)++"]"

def texts : List Value → List String
  | [] => []
  | v::vs => v.text::texts vs

end

mutual

/-- The text of a value in a listing, which shows its constructor. -/
def listing : Value → String
  | undefined => "Undefined"
  | null => "Null"
  | bool b => if b then "Bool(true)" else "Bool(false)"
  | int n => "Int("++Int64.text n++")"
  | float x => "Float("++Decimal.text Decimal.detailed x++")"
  | string s => "String("++Text.quote s++")"
  | list items => "List(["++", ".intercalate (listings items)++"])"

def listings : List Value → List String
  | [] => []
  | v::vs => v.listing::listings vs

end

mutual

/-- Equality of values, with floats compared as numbers: the zeros are equal, and what is not a number
differs from itself. -/
def equals : Value → Value → Bool
  | undefined,undefined => true
  | null,null => true
  | bool a,bool b => a==b
  | int a,int b => a==b
  | float a,float b => a.equals b
  | string a,string b => a==b
  | list as,list bs => equalsAll as bs
  | _,_ => false

def equalsAll : List Value → List Value → Bool
  | [],[] => true
  | a::as,b::bs => equals a b && equalsAll as bs
  | _,_ => false

end

end Value

end CallLowering
