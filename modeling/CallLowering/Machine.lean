import CallLowering.Chunk.Emit
import CallLowering.Routine.Host

namespace CallLowering

/-- What is wrong with a chunk that no tree was emitted to. -/
inductive Malformation
  | constantOutOfRange (index : UInt32)
  | localBeyond (index : UInt16)
  | methodOutOfRange (index : UInt32)
  | valuesLeft (count : Nat)
  deriving DecidableEq

def Malformation.message : Malformation → String
  | .constantOutOfRange index => "constant #"++toString index.toNat++" out of range"
  | .localBeyond index => "local "++toString index.toNat++" beyond max_locals"
  | .methodOutOfRange index => "method #"++toString index.toNat++" out of range"
  | .valuesLeft count => toString count++" value(s) left on the stack"

/-- Why an expression has no value. -/
inductive Fault
  | routine (e : RoutineError)
  | lower (e : LowerError)
  | stackUnderflow (place : Nat)
  | missingArgument (index : UInt16)
  | uninitializedLocal (index : UInt16)
  | malformed (m : Malformation)
  | outOfSteps
  deriving DecidableEq

def Fault.message : Fault → String
  | .routine e => e.message
  | .lower e => e.message
  | .stackUnderflow place => "Stack underflow at instruction "++toString place
  | .missingArgument index => "Missing call-site argument "++toString index.toNat
  | .uninitializedLocal index => "Local "++toString index.toNat++" read before it was stored"
  | .malformed m => "Malformed chunk: "++m.message
  | .outOfSteps => "Out of steps"

/-- A computation on the state of a host that may fault. -/
abbrev Run (σ α : Type) : Type := ExceptT Fault (StateM σ) α

/-- Takes the error of a routine for a fault. -/
def Run.lift {σ α : Type} (r : Except RoutineError α) : Run σ α :=
  match r with
  | .ok a => pure a
  | .error e => throw (.routine e)

/-- Calls a routine of the host. -/
def Run.call {σ : Type} (host : Host σ) (r : Routine) (args : List Slot) : Run σ Slot :=
  fun s =>
    match host.call r args s with
    | (.ok slot,s) => (.ok slot,s)
    | (.error e,s) => (.error (.routine e),s)

/-- The order of two numbers: integers by their values, all else as floats. -/
def Slot.order : Slot → Slot → Except RoutineError (Option Ordering)
  | .int64 a,.int64 b => .ok (some (Ord.compare a.toInt b.toInt))
  | a,b => do
      let x ← a.toFloat
      let y ← b.toFloat
      return x.order y

/-- Is a null in the slot? -/
def Slot.isNullish (s : Slot) : Bool :=
  match s.value? with
  | some v => v.isNullish
  | none => false

/-- A machine in the middle of a run: the place of the next instruction, the stack with its top in front,
and the locals. -/
structure Machine where
  place : Nat
  stack : List Slot
  locals : Array (Option Slot)

namespace Machine

variable {σ : Type}

/-- The machine before the first instruction. -/
def start (c : Chunk) : Machine := ⟨0,[],Array.replicate c.maxLocals.toNat none⟩

/-- The machine after an instruction that leaves this stack. -/
def next (m : Machine) (stack : List Slot) : Machine := {m with place := m.place+1,stack}

/-- Replaces the top of the stack. -/
def mapTop (m : Machine) (f : Slot → Except RoutineError Slot) : Run σ Machine :=
  match m.stack with
  | s::rest => do return m.next ((← Run.lift (f s))::rest)
  | [] => throw (.stackUnderflow m.place)

/-- Takes `count` slots off the stack, in the order in which they were pushed. -/
def take? (m : Machine) (count : Nat) : Option (List Slot × List Slot) :=
  if m.stack.length < count then none
  else some ((m.stack.take count).reverse,m.stack.drop count)

/-- One instruction. -/
def step (host : Host σ) (c : Chunk) (args : List Slot) (m : Machine) : Instr → Run σ Machine
  | .const index =>
      match c.constants[index.toNat]? with
      | some slot => return m.next (slot::m.stack)
      | none => throw (.malformed (.constantOutOfRange index))
  | .loadArg index =>
      match args[index.toNat]? with
      | some slot => return m.next (slot::m.stack)
      | none => throw (.missingArgument index)
  | .loadLocal index =>
      match m.locals[index.toNat]? with
      | some (some slot) => return m.next (slot::m.stack)
      | _ => throw (.uninitializedLocal index)
  | .storeLocal index =>
      match m.stack with
      | [] => throw (.stackUnderflow m.place)
      | slot::rest =>
          if index.toNat < m.locals.size then
            return {m.next rest with locals := m.locals.setIfInBounds index.toNat (some slot)}
          else throw (.malformed (.localBeyond index))
  | .invoke method count =>
      match c.methods[method.toNat]? with
      | none => throw (.malformed (.methodOutOfRange method))
      | some method =>
          match m.take? count.toNat with
          | none => throw (.stackUnderflow m.place)
          | some (taken,rest) => do return m.next ((← Run.call host method.routine taken)::rest)
  | .convert target => m.mapTop fun s => s.convert target
  | .box => m.mapTop fun s => .ok s.box
  | .unbox target => m.mapTop fun s => s.unbox target
  | .newList count =>
      match m.take? count.toNat with
      | none => throw (.stackUnderflow m.place)
      | some (taken,rest) => return m.next (.boxed (.list (taken.map Slot.toValue))::rest)
  | .jump target => return {m with place := target.toNat}
  | .jumpIfFalse target =>
      match m.stack with
      | [] => throw (.stackUnderflow m.place)
      | slot::rest => do
          if ← Run.lift slot.toBool then return m.next rest
          else return {m with place := target.toNat,stack := rest}
  | .compare comparison =>
      match m.stack with
      | rhs::lhs::rest => do
          return m.next (.bool (comparison.holds (← Run.lift (lhs.order rhs)))::rest)
      | _ => throw (.stackUnderflow m.place)
  | .isNull => m.mapTop fun s => .ok (.bool s.isNullish)
  | .not => m.mapTop fun s => do return .bool (!(← s.toBool))

/-- The result of a machine that has left the code: the one slot on its stack. -/
def finish (m : Machine) : Run σ Slot :=
  match m.stack with
  | [] => throw (.stackUnderflow (m.place-1))
  | [slot] => return slot
  | _::rest => throw (.malformed (.valuesLeft rest.length))

/-- Runs for at most `steps` instructions. -/
def run (host : Host σ) (c : Chunk) (args : List Slot) : Nat → Machine → Run σ Slot
  | 0,m => if m.place < c.code.size then throw .outOfSteps else m.finish
  | steps+1,m =>
      match c.code[m.place]? with
      | none => m.finish
      | some i => do run host c args steps (← m.step host c args i)

end Machine

/-- Runs a chunk for at most `steps` instructions. -/
def Chunk.run {σ : Type} (c : Chunk) (host : Host σ) (args : List Slot) (steps : Nat) : Run σ Slot :=
  Machine.run host c args steps (.start c)

/-- The value of an expression. Emitted code only jumps forward, so it takes no more steps than it has
instructions. -/
def Expr.evaluate {σ : Type} (e : Expr) (host : Host σ) (args : List Slot) : Run σ Slot :=
  match e.emit with
  | .error e => throw (.lower e)
  | .ok c => c.run host args c.code.size

end CallLowering
