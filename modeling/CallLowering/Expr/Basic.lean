import CallLowering.LowerError
import CallLowering.Routine.Table
import CallLowering.SemanticType.Basic

namespace CallLowering

/-- A routine as an expression calls it. A cheap one may be called again instead of keeping its result. -/
structure Method where
  routine : Routine
  cheap : Bool
  deriving DecidableEq

namespace Method

/-- Looks a routine up in a table. -/
def resolve (table : RoutineTable) (owner name : String) (params : List Rep) : Except LowerError Method :=
  match table.lookup owner name params with
  | some r => .ok ⟨r,false⟩
  | none =>
      .error (.configuration
        ("no routine "++owner++"."++name++"("++Rep.texts params++") is registered"))

def asCheap (m : Method) : Method := {m with cheap := true}

def params (m : Method) : List Rep := m.routine.params

def arity (m : Method) : Nat := m.params.length

def returns (m : Method) : Rep := m.routine.returns

/-- Owner and name. -/
def text (m : Method) : String := m.routine.owner++"."++m.routine.name

def listing (m : Method) : String :=
  "MethodRef("++m.routine.text++(if m.cheap then ", cheap" else "")++")"

end Method

/-- A comparison of numbers. -/
inductive Comparison
  | lt
  | le
  | gt
  | ge
  | eq
  | ne
  deriving DecidableEq

namespace Comparison

def symbol : Comparison → String
  | lt => "<"
  | le => "<="
  | gt => ">"
  | ge => ">="
  | eq => "=="
  | ne => "!="

/-- Does the comparison hold of numbers in this order? Numbers without an order are only different. -/
def holds : Comparison → Option Ordering → Bool
  | ne,none => true
  | _,none => false
  | lt,some o => o==.lt
  | le,some o => o != .gt
  | gt,some o => o==.gt
  | ge,some o => o != .lt
  | eq,some o => o==.eq
  | ne,some o => o != .eq

end Comparison

/-- An expression. Arguments of the call site and locals are numbered; a local is bound by `bind`. -/
inductive Expr
  | const (slot : Slot)
  | arg (index : UInt16) (rep : Rep)
  | readLocal (index : UInt16) (rep : Rep)
  | invoke (method : Method) (args : List Expr)
  | convert (value : Expr) (target : Rep)
  | box (value : Expr)
  | unbox (value : Expr) (target : Rep)
  | list (items : List Expr)
  | bind (index : UInt16) (value body : Expr)
  | select (condition whenTrue whenFalse : Expr)
  | compare (comparison : Comparison) (lhs rhs : Expr)
  | isNull (value : Expr)
  | not (value : Expr)

namespace Expr

def int (n : Int64) : Expr := const (.int64 n)

def float (x : Binary64) : Expr := const (.float64 x)

def bool (b : Bool) : Expr := const (.bool b)

def null : Expr := const (.boxed .null)

/-- The representation of the result. -/
def rep : Expr → Rep
  | const slot => slot.rep
  | arg _ rep => rep
  | readLocal _ rep => rep
  | invoke m _ => m.returns
  | convert _ target => target
  | unbox _ target => target
  | box _ => .boxed
  | list _ => .boxed
  | bind _ _ body => body.rep
  | select _ whenTrue _ => whenTrue.rep
  | compare _ _ _ => .bool
  | isNull _ => .bool
  | not _ => .bool

mutual

/-- May the expression be computed more than once instead of keeping its result? -/
def isCheap : Expr → Bool
  | const _ => true
  | arg _ _ => true
  | readLocal _ _ => true
  | invoke m args => m.cheap && areCheap args
  | convert e _ => e.isCheap
  | unbox e _ => e.isCheap
  | box e => e.isCheap
  | _ => false

def areCheap : List Expr → Bool
  | [] => true
  | e::es => e.isCheap && areCheap es

end

/-- The integer that a constant expression computes, seen through boxes and conversions. -/
def intConstant? : Expr → Option Int64
  | const (.int64 n) => some n
  | const (.boxed (.int n)) => some n
  | const (.float64 x) => if x.isWhole then some x.toInt64 else none
  | box e => e.intConstant?
  | convert e _ => e.intConstant?
  | unbox e _ => e.intConstant?
  | _ => none

/-- The constant in another representation, if the expression is one and can be converted. -/
def fold? (e : Expr) (target : Rep) : Option Expr :=
  match e with
  | const slot => (slot.convert target).toOption.map const
  | _ => none

/-- The expression with its result in another representation. Constants are converted at once; truth values
only go into a box and out of one. -/
def coerce (e : Expr) (target : Rep) : Except LowerError Expr :=
  if e.rep=target then .ok e
  else
    match e.fold? target with
    | some folded => .ok folded
    | none =>
        if target=.boxed then .ok (box e)
        else if e.rep=.boxed then .ok (unbox e target)
        else if e.rep.isNativeNumeric && target.isNativeNumeric then .ok (convert e target)
        else .error (.internal ("cannot coerce "++e.rep.text++" to "++target.text))

end Expr

namespace Method

/-- The first argument, counted from `index`, that is not in the representation of its parameter. -/
def firstMisfit? (m : Method) : Nat → List Expr → List Rep → Option LowerError
  | index,e::es,p::ps =>
      if e.rep=p then m.firstMisfit? (index+1) es ps
      else some (.internal ("argument "++toString index++" of "++m.routine.text++" is "++e.rep.text++
        ", expected "++p.text))
  | _,_,_ => none

/-- A call with arguments that already are in the representations of the parameters. -/
def invoke (m : Method) (args : List Expr) : Except LowerError Expr :=
  if args.length≠m.arity then
    .error (.internal (m.routine.text++" takes "++toString m.arity++" argument(s), got "++
      toString args.length))
  else
    match m.firstMisfit? 0 args m.params with
    | some e => .error e
    | none => .ok (.invoke m args)

end Method

/-- An expression with the static type of its value. -/
structure TypedExpr where
  expr : Expr
  type : SemanticType

namespace TypedExpr

def ofInt (n : Int64) : TypedExpr := ⟨.int n,.int⟩

def ofFloat (x : Binary64) : TypedExpr := ⟨.float x,.float⟩

def ofBool (b : Bool) : TypedExpr := ⟨.bool b,.bool⟩

def null : TypedExpr := ⟨.null,.null⟩

def rep (e : TypedExpr) : Rep := e.expr.rep

/-- Changes the representation and keeps the type. -/
def coerce (e : TypedExpr) (target : Rep) : Except LowerError TypedExpr :=
  (e.expr.coerce target).map fun expr => ⟨expr,e.type⟩

end TypedExpr

end CallLowering
