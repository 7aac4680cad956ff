import CallLowering.Fragment.Basic

namespace CallLowering.Python

def conditionalOp : Operator := ⟨"if-else",⟨2⟩,.right⟩
def or : Operator := ⟨"or",⟨3⟩,.left⟩
def and : Operator := ⟨"and",⟨4⟩,.left⟩
def not : Operator := ⟨"not ",⟨5⟩,.right⟩
def equal : Operator := ⟨"==",⟨6⟩,.neither⟩
def notEqual : Operator := ⟨"!=",⟨6⟩,.neither⟩
def is : Operator := ⟨"is",⟨6⟩,.neither⟩
def isNot : Operator := ⟨"is not",⟨6⟩,.neither⟩
def lessThan : Operator := ⟨"<",⟨6⟩,.neither⟩
def lessThanOrEqual : Operator := ⟨"<=",⟨6⟩,.neither⟩
def greaterThan : Operator := ⟨">",⟨6⟩,.neither⟩
def greaterThanOrEqual : Operator := ⟨">=",⟨6⟩,.neither⟩
def plus : Operator := ⟨"+",⟨11⟩,.left⟩
def minus : Operator := ⟨"-",⟨11⟩,.left⟩
def times : Operator := ⟨"*",⟨12⟩,.left⟩
def divide : Operator := ⟨"/",⟨12⟩,.left⟩
def floorDivide : Operator := ⟨"//",⟨12⟩,.left⟩
def mod : Operator := ⟨"%",⟨12⟩,.left⟩
def negate : Operator := ⟨"-",⟨13⟩,.right⟩

/-- What stands between two operands. -/
def binaryOperators : List Operator :=
  [or,and,equal,notEqual,is,isNot,lessThan,lessThanOrEqual,greaterThan,greaterThanOrEqual,plus,minus,
    times,divide,floorDivide,mod]

/-- What stands before one operand. -/
def unaryOperators : List Operator := [not,negate]

/-- Arguments may be anything but a bare lambda. -/
def argumentFloor : Precedence := ⟨2⟩

def call (callee : String) (args : List Fragment) : Fragment := .call callee args argumentFloor

/-- A call with positional arguments and, after them, arguments by name. -/
def callWith (callee : String) (args : List Fragment) (named : List (String × Fragment)) : Fragment :=
  .callText callee
    (args.map (fun a => a.within argumentFloor)++
      named.map fun a => a.1++"="++a.2.within argumentFloor)

def conditional (condition whenTrue whenFalse : Fragment) : Fragment :=
  let floor := conditionalOp.precedence
  ⟨whenTrue.within floor.tighter++" if "++condition.within floor.tighter++" else "++
    whenFalse.within floor,floor⟩

def none : Fragment := .atom "None"

def integer (n : Int64) : Fragment := .ofInt negate.precedence n

def isNone (value : Fragment) : Fragment := .binary is value none

def isNotNone (value : Fragment) : Fragment := .binary isNot value none

end CallLowering.Python
