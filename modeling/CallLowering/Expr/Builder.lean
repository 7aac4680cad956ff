import CallLowering.Config.Basic
import CallLowering.Expr.Basic

namespace CallLowering

/-- What is known while one call is lowered, and the next local that is free. -/
structure Builder where
  function : String
  config : Config
  /-- The owners of the runtime objects that the function may call. -/
  runtimes : List String
  nextLocal : UInt16

/-- A step of building: it may fail, and what locals it has taken stay taken even so. -/
abbrev Build (α : Type) : Type := ExceptT LowerError (StateM Builder) α

namespace Builder

/-- Are native representations used for this one? -/
def specializes (b : Builder) (rep : Rep) : Bool :=
  b.config.bytecode.specializeNumeric && rep.isNativeNumeric

end Builder

namespace Build

/-- Takes a local. The last one that could be numbered is never handed out. -/
def freshLocal : Build UInt16 := do
  let b ← get
  if b.nextLocal.toNat+1 < 0x10000 then
    set {b with nextLocal := b.nextLocal+1}
    return b.nextLocal
  else throw (.internal "too many locals in one expression")

end Build

/-- An expression that may be used more than once: repeated, or kept in a local. -/
inductive Cached
  | inlined (e : Expr)
  | bound (index : UInt16) (value : Expr)

namespace Cached

/-- Reads the value. -/
def reference : Cached → Expr
  | inlined e => e
  | bound index value => .readLocal index value.rep

/-- Computes the value before `body`. -/
def finish : Cached → Expr → Expr
  | inlined _,body => body
  | bound index value,body => .bind index value body

end Cached

namespace Build

/-- Makes an expression fit for repeated use: a cheap one is repeated, any other is computed once. -/
def cache (e : Expr) : Build Cached := do
  if e.isCheap then return .inlined e
  else return .bound (← freshLocal) e

end Build

/-- Arguments brought into the representations of parameters, as far as both go. -/
def coerceAll : List Expr → List Rep → Except LowerError (List Expr)
  | e::es,p::ps => do
      let e ← e.coerce p
      let es ← coerceAll es ps
      return e::es
  | _,_ => .ok []

namespace Build

/-- Calls a routine with arguments in any representation. A method needs an owner that is registered for the
function. -/
def invoke (m : Method) (args : List Expr) : Build Expr := do
  let b ← get
  if m.routine.onReceiver && !b.runtimes.contains m.routine.owner then
    throw (.unregisteredRuntime b.function m.routine.owner)
  let args ← coerceAll args m.params
  m.invoke args

end Build

end CallLowering
