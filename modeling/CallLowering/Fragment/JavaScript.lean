import CallLowering.Fragment.Basic

namespace CallLowering.JavaScript

def conditionalOp : Operator := ⟨"?:",⟨2⟩,.right⟩
def or : Operator := ⟨"||",⟨3⟩,.left⟩
def and : Operator := ⟨"&&",⟨4⟩,.left⟩
def equal : Operator := ⟨"==",⟨8⟩,.left⟩
def notEqual : Operator := ⟨"!=",⟨8⟩,.left⟩
def strictEqual : Operator := ⟨"===",⟨8⟩,.left⟩
def strictNotEqual : Operator := ⟨"!==",⟨8⟩,.left⟩
def lessThan : Operator := ⟨"<",⟨9⟩,.left⟩
def lessThanOrEqual : Operator := ⟨"<=",⟨9⟩,.left⟩
def greaterThan : Operator := ⟨">",⟨9⟩,.left⟩
def greaterThanOrEqual : Operator := ⟨">=",⟨9⟩,.left⟩
def plus : Operator := ⟨"+",⟨11⟩,.left⟩
def minus : Operator := ⟨"-",⟨11⟩,.left⟩
def times : Operator := ⟨"*",⟨12⟩,.left⟩
def divide : Operator := ⟨"/",⟨12⟩,.left⟩
def mod : Operator := ⟨"%",⟨12⟩,.left⟩
def negate : Operator := ⟨"-",⟨14⟩,.right⟩
def not : Operator := ⟨"!",⟨14⟩,.right⟩

/-- What stands between two operands. -/
def binaryOperators : List Operator :=
  [or,and,equal,notEqual,strictEqual,strictNotEqual,lessThan,lessThanOrEqual,greaterThan,
    greaterThanOrEqual,plus,minus,times,divide,mod]

/-- What stands before one operand. -/
def unaryOperators : List Operator := [negate,not]

/-- Arguments bind tighter than the comma. -/
def argumentFloor : Precedence := ⟨2⟩

def call (callee : String) (args : List Fragment) : Fragment := .call callee args argumentFloor

def conditional (condition whenTrue whenFalse : Fragment) : Fragment :=
  let floor := conditionalOp.precedence
  ⟨condition.within floor.tighter++" ? "++whenTrue.within floor++" : "++whenFalse.within floor,floor⟩

def null : Fragment := .atom "null"

def integer (n : Int64) : Fragment := .ofInt negate.precedence n

/-- True of null and of undefined. -/
def isNull (value : Fragment) : Fragment := .binary equal value null

def isNotNull (value : Fragment) : Fragment := .binary notEqual value null

end CallLowering.JavaScript
