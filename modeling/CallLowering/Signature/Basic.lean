import CallLowering.SemanticType.Reader

namespace CallLowering

/-- Whether two calls with the same arguments may be taken for one. -/
inductive Purity
  | pure
  | impure
  deriving DecidableEq

/-- The parameters and the result of a function called with one number of arguments. -/
structure Overload where
  params : List SemanticType
  returns : SemanticType
  deriving DecidableEq

/-- Why a declaration or a list of arguments is refused. -/
inductive TypeError
  | duplicateArity (name : String) (arity : Nat)
  | noOverloads (name : String)
  | mismatch (index : Nat) (expected actual : SemanticType)
  | argumentCount (expected actual : Nat)
  | malformed (written : String)
  | lost (written : String)
  deriving DecidableEq

def TypeError.message : TypeError → String
  | .duplicateArity name arity =>
      "Function '"++name++"' declares more than one overload with "++toString arity++" parameter(s)"
  | .noOverloads name => "Function '"++name++"' declares no overloads"
  | .mismatch index expected actual =>
      "Argument "++toString index++" has type "++actual.text++", expected "++expected.text
  | .argumentCount expected actual =>
      "Expected "++toString expected++" argument(s), got "++toString actual
  | .malformed written => "Cannot parse type '"++written++"'"
  | .lost written => "Lost inside a character of '"++written++"'"

/-- Reads an annotation. -/
def SemanticType.read (written : String) : Except TypeError SemanticType :=
  match parse written with
  | .type t => .ok t
  | .malformed => .error (.malformed written)
  | .lost => .error (.lost written)

namespace Overload

/-- An overload from the annotations of its parameters and of its result. -/
def read (params : List String) (returns : String) : Except TypeError Overload := do
  let params ← params.mapM SemanticType.read
  let returns ← SemanticType.read returns
  return ⟨params,returns⟩

def arity (o : Overload) : Nat := o.params.length

/-- The first argument type, counted from `index`, that its parameter does not accept. -/
def firstMismatch : Nat → List SemanticType → List SemanticType → Option TypeError
  | index,p::ps,a::as => if p.accepts a then firstMismatch (index+1) ps as else some (.mismatch index p a)
  | _,_,_ => none

/-- Do the parameters accept arguments of these types? -/
def check (o : Overload) (args : List SemanticType) : Except TypeError Unit :=
  if args.length≠o.params.length then .error (.argumentCount o.params.length args.length)
  else
    match firstMismatch 0 o.params args with
    | some e => .error e
    | none => .ok ()

end Overload

/-- The declared shape of a function. -/
structure Signature where
  name : String
  overloads : List Overload
  purity : Purity
  deriving DecidableEq

namespace Signature

/-- The first arity, in the order of declaration, that an earlier overload has too. -/
def repeatedArity? : List Nat → List Overload → Option Nat
  | _,[] => none
  | seen,o::os => if o.arity∈seen then some o.arity else repeatedArity? (o.arity::seen) os

/-- A signature from overloads in any order. There is at least one, and no two have the same arity. -/
def declare (name : String) (overloads : List Overload) (purity : Purity) : Except TypeError Signature :=
  if overloads.isEmpty then .error (.noOverloads name)
  else
    match repeatedArity? [] overloads with
    | some arity => .error (.duplicateArity name arity)
    | none => .ok ⟨name,overloads.mergeSort fun a b => decide (a.arity ≤ b.arity),purity⟩

def arities (s : Signature) : List Nat := s.overloads.map Overload.arity

/-- The overload for calls with this number of arguments. -/
def overload? (s : Signature) (arity : Nat) : Option Overload :=
  s.overloads.find? fun o => o.arity==arity

end Signature

end CallLowering
