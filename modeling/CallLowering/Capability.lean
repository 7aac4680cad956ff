import CallLowering.Deferred
import CallLowering.Expr.Builder
import CallLowering.Fragment.Basic

namespace CallLowering

/-- What a function may look at when it is lowered to text or to a description. -/
structure CallContext where
  function : String
  config : Config

/-- Lowers a call to an expression. -/
abbrev BytecodeLowering : Type := List TypedExpr → Build TypedExpr

/-- Lowers a call to text, and names what the text has to import. -/
structure TextLowering where
  lower : CallContext → List Fragment → Except LowerError Fragment
  imports : CallContext → List Fragment → List String

/-- Lowers a call to a description. -/
abbrev GenericLowering : Type :=
  DeferredFactory → CallContext → List Deferred → Except LowerError Deferred

structure Capabilities where
  bytecode : Option BytecodeLowering
  javaScript : Option TextLowering
  python : Option TextLowering
  generic : Option GenericLowering

namespace Capabilities

def none : Capabilities := ⟨.none,.none,.none,.none⟩

def supports (c : Capabilities) : Backend → Bool
  | .bytecode => c.bytecode.isSome
  | .javaScript => c.javaScript.isSome
  | .python => c.python.isSome
  | .genericCall => c.generic.isSome

def supported (c : Capabilities) : List Backend := Backend.all.filter c.supports

def isEmpty (c : Capabilities) : Bool := c.supported.isEmpty

/-- The backends, as a listing shows them. -/
def listing (c : Capabilities) : String := "["++", ".intercalate (c.supported.map Backend.listing)++"]"

end Capabilities

end CallLowering
