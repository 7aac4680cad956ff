import CallLowering.Routine.Builtin
import CallLowering.Routine.Random
import CallLowering.Routine.Table

namespace CallLowering

/-- A host whose routines work on a state of type `σ`. -/
structure Host (σ : Type) where
  /-- Is there an object to receive the methods of this owner? -/
  receives : σ → String → Bool
  /-- Runs the body of a routine. -/
  enter : Routine → List Slot → σ → Except RoutineError Slot × σ

/-- Calls a routine: the number of arguments is checked first, then the presence of the receiver. -/
def Host.call (h : Host σ) (r : Routine) (args : List Slot) : ExceptT RoutineError (StateM σ) Slot :=
  fun s =>
    if args.length≠r.params.length then
      (.error (.argumentCount r.text r.params.length args.length),s)
    else if r.onReceiver && !h.receives s r.owner then (.error (.missingReceiver r.owner),s)
    else h.enter r args s

/-- An object that receives method calls. -/
inductive RuntimeObject
  | random (source : RandomSource)
  | value (v : Value)

/-- The runtime objects of a host by their owners. -/
structure Instances where
  objects : List (String × RuntimeObject)

namespace Instances

def empty : Instances := ⟨[]⟩

def find? (i : Instances) (owner : String) : Option RuntimeObject :=
  (i.objects.find? fun o => o.1==owner).map (·.2)

/-- Puts an object in the place of the one that its owner had. -/
def insert (i : Instances) (owner : String) (object : RuntimeObject) : Instances :=
  ⟨(owner,object)::i.objects.filter fun o => o.1≠owner⟩

/-- Draws from the source of this owner. -/
def draw (i : Instances) (owner : String) (bound : Slot) : Except RoutineError Slot × Instances :=
  match i.find? owner,bound.toInt with
  | some (.random source),.ok upper =>
      match source.below upper with
      | (.ok n,source) => (.ok (.int64 n),i.insert owner (.random source))
      | (.error e,_) => (.error e,i)
  | some (.random _),.error e => (.error e,i)
  | _,_ => (.error (.missingReceiver "RandomRuntime"),i)

/-- The bodies that a host brings along, by their names. Each gets its receiver, if it has one. -/
abbrev Bodies := String → Option RuntimeObject → List Slot → Except RoutineError Slot

/-- The host that runs the built-in routines and takes all other bodies from `bodies`. -/
def host (bodies : Bodies) : Host Instances where
  receives i owner := (i.find? owner).isSome
  enter r args i :=
    match r.body,args with
    | .builtin .randomInt,[bound] => i.draw r.owner bound
    | .builtin b,args => (b.run args,i)
    | .foreign name,args => (bodies name (if r.onReceiver then i.find? r.owner else none) args,i)

end Instances

end CallLowering
