import CallLowering.SemanticType.Encoding
import CallLowering.Signature.Basic

namespace CallLowering

def Purity.toJson : Purity → Json
  | .pure => .string "Pure"
  | .impure => .string "Impure"

def Purity.ofJson? (j : Json) : Option Purity :=
  match j with
  | .string "Pure" | .object [("Pure",.null)] => some .pure
  | .string "Impure" | .object [("Impure",.null)] => some .impure
  | _ => none

/-- Reads every item of an array. -/
def Json.listOf? {α : Type} (read : Json → Option α) : Json → Option (List α)
  | .array items => items.mapM read
  | _ => none

def Overload.toJson (o : Overload) : Json :=
  .object [("params",.array (o.params.map SemanticType.toJson)),("return_type",o.returns.toJson)]

def Overload.ofJson? (j : Json) : Option Overload := do
  let r ← j.record?
  if !r.fits 2 then none
  let params ← r.required 0 "params" (Json.listOf? SemanticType.ofJson?)
  let returns ← r.required 1 "return_type" SemanticType.ofJson?
  some ⟨params,returns⟩

def Signature.toJson (s : Signature) : Json :=
  .object [("name",.string s.name),("overloads",.array (s.overloads.map Overload.toJson)),
    ("purity",s.purity.toJson)]

def Signature.ofJson? (j : Json) : Option Signature := do
  let r ← j.record?
  if !r.fits 3 then none
  let name ← r.required 0 "name" Json.string?
  let overloads ← r.required 1 "overloads" (Json.listOf? Overload.ofJson?)
  let purity ← r.required 2 "purity" Purity.ofJson?
  some ⟨name,overloads,purity⟩

end CallLowering
