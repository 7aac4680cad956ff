import CallLowering.Expr.Basic

namespace CallLowering

/-- A description of calls, which becomes an expression only when it is materialized. -/
inductive Deferred
  | leaf (e : TypedExpr)
  | constant (slot : Slot)
  | call (method : Method) (args : List Deferred)
  | list (items : List Deferred)

/-- The type of what a routine returns in this representation. -/
def Rep.type : Rep → SemanticType
  | int64 => .int
  | float64 => .float
  | bool => .bool
  | boxed => .unknown

namespace Deferred

def int (n : Int64) : Deferred := constant (.int64 n)

def null : Deferred := constant (.boxed .null)

/-- The integer that a literal, or a leaf with a constant, stands for. -/
def intConstant? : Deferred → Option Int64
  | leaf e => e.expr.intConstant?
  | constant slot => (Expr.const slot).intConstant?
  | _ => none

/-- The type that all items have, if there are any and they agree. -/
def commonType : List SemanticType → SemanticType
  | [] => .unknown
  | t::ts => if ts.all fun u => u=t then t else .unknown

mutual

/-- The expression that the description stands for: arguments are brought into the representations of the
parameters, items of lists are boxed. -/
def materialize : Deferred → Except LowerError TypedExpr
  | leaf e => .ok e
  | constant slot => .ok ⟨.const slot,slot.rep.type⟩
  | call m args => do
      let args ← materializeArgs args m.params
      return ⟨← m.invoke args,m.returns.type⟩
  | list items => do
      let items ← materializeItems items
      return ⟨.list (items.map TypedExpr.expr),.list (commonType (items.map TypedExpr.type))⟩

def materializeArgs : List Deferred → List Rep → Except LowerError (List Expr)
  | d::ds,p::ps => do
      let e ← (← d.materialize).expr.coerce p
      let es ← materializeArgs ds ps
      return e::es
  | _,_ => .ok []

/-- Items in boxes, with the types that they had before. -/
def materializeItems : List Deferred → Except LowerError (List TypedExpr)
  | [] => .ok []
  | d::ds => do
      let e ← (← d.materialize).coerce .boxed
      let es ← materializeItems ds
      return e::es

end

/-- A call with as many arguments as the routine has parameters. -/
def checkedCall (m : Method) (args : List Deferred) : Except LowerError Deferred :=
  if args.length≠m.arity then .error (.arityMismatch m.text (toString m.arity) args.length)
  else .ok (call m args)

end Deferred

/-- Makes the descriptions for one call of a function. -/
structure DeferredFactory where
  function : String
  /-- The owners of the runtime objects that the function may call. -/
  runtimes : List String

namespace DeferredFactory

/-- Calls a routine that needs no receiver. -/
def callStatic (_ : DeferredFactory) (m : Method) (args : List Deferred) : Except LowerError Deferred :=
  if m.routine.onReceiver then
    .error (.internal (m.text++" is an instance routine; use call_runtime_routine"))
  else Deferred.checkedCall m args

/-- Calls a method of a runtime object that is registered for the function. -/
def callRuntime (f : DeferredFactory) (m : Method) (args : List Deferred) : Except LowerError Deferred :=
  if !m.routine.onReceiver then
    .error (.internal (m.text++" is a static routine; use call_static_routine"))
  else if !f.runtimes.contains m.routine.owner then
    .error (.unregisteredRuntime f.function m.routine.owner)
  else Deferred.checkedCall m args

end DeferredFactory

end CallLowering
