import CallLowering.Capability
import CallLowering.Signature.Basic

namespace CallLowering

/-- What is registered under a name. -/
structure FunctionEntry where
  signature : Signature
  capabilities : Capabilities
  /-- The owners of the runtime objects, in the order in which they were registered. -/
  runtimes : List String

/-- Lets an entry call the runtime object of one more owner. -/
def FunctionEntry.addRuntime (e : FunctionEntry) (owner : String) : FunctionEntry :=
  if e.runtimes.contains owner then e else {e with runtimes := e.runtimes++[owner]}

@[simp] theorem FunctionEntry.addRuntime_signature (e : FunctionEntry) (owner : String) :
    (e.addRuntime owner).signature=e.signature := by
  rw [addRuntime]
  split <;> rfl

/-- Functions in the order of their declaration, and the configuration they share. -/
structure Registry where
  entries : List FunctionEntry
  config : Config

namespace Registry

def empty (config : Config) : Registry := ⟨[],config⟩

def find? (r : Registry) (name : String) : Option FunctionEntry :=
  r.entries.find? fun e => e.signature.name==name

def contains (r : Registry) (name : String) : Bool := (r.find? name).isSome

def resolve (r : Registry) (name : String) : Except LowerError FunctionEntry :=
  match r.find? name with
  | some e => .ok e
  | none => .error (.unknownFunction name)

theorem resolve_ok_iff {r : Registry} {name : String} {e : FunctionEntry} :
    r.resolve name=.ok e ↔ r.find? name=some e := by
  rw [resolve]
  cases r.find? name with
  | none => exact ⟨nofun,nofun⟩
  | some e' => exact ⟨fun same => congrArg some (Except.ok.inj same),fun same => congrArg _ (Option.some.inj same)⟩

theorem resolve_error_iff {r : Registry} {name : String} {error : LowerError} :
    r.resolve name=.error error ↔ r.find? name=none ∧ error=.unknownFunction name := by
  rw [resolve]
  cases r.find? name with
  | none => exact ⟨fun same => ⟨rfl,(Except.error.inj same).symm⟩,fun same => congrArg _ same.2.symm⟩
  | some e => exact ⟨nofun,nofun⟩

/-- The names of the functions, sorted. -/
def names (r : Registry) : List String :=
  (r.entries.map fun e => e.signature.name).mergeSort fun a b => decide (a ≤ b)

/-- Adds a function under a name that is not taken. -/
def declare (r : Registry) (signature : Signature) (capabilities : Capabilities) :
    Except LowerError Registry :=
  if r.contains signature.name then .error (.duplicateFunction signature.name)
  else .ok {r with entries := r.entries++[⟨signature,capabilities,[]⟩]}

/-- Lets a declared function call the runtime object of this owner. -/
def registerRuntime (r : Registry) (function owner : String) : Except LowerError Registry :=
  if r.contains function then
    .ok {r with
      entries := r.entries.map fun e =>
        if e.signature.name=function then e.addRuntime owner else e}
  else
    .error (.configuration
      ("cannot register runtime "++owner++" for undeclared function '"++function++"'"))

end Registry

/-- Arities in a sentence: `1`, `1 or 2`, `1, 2 or 3`. -/
def describeArities (arities : List Nat) : String :=
  match arities.reverse with
  | [] => "none"
  | [n] => toString n
  | n::ns => ", ".intercalate (ns.reverse.map toString)++" or "++toString n

/-- The overload for arguments of these types. -/
def Signature.select (s : Signature) (args : List SemanticType) : Except LowerError Overload :=
  match s.overload? args.length with
  | none => .error (.arityMismatch s.name (describeArities s.arities) args.length)
  | some o =>
      match o.check args with
      | .ok () => .ok o
      | .error (.mismatch index expected actual) =>
          .error (.typeMismatch s.name index expected.text actual.text)
      | .error e =>
          .error (.internal ("overload for arity "++toString args.length++" rejected its own arity: "++
            e.message))

end CallLowering
