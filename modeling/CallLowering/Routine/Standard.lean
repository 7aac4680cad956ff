import CallLowering.Routine.Host

namespace CallLowering

/-- Owner of native float arithmetic. -/
def mathOwner : String := "Math"

/-- Owner of the routines that work on boxed values. -/
def basicOwner : String := "BasicRuntime"

/-- Owner of the source of random numbers. -/
def randomOwner : String := "RandomRuntime"

/-- A built-in routine without receiver. -/
def Builtin.routine (b : Builtin) (owner : String) (params : List Rep) (returns : Rep) : Routine :=
  ⟨owner,b.name,params,returns,false,.builtin b⟩

def randomIntRoutine : Routine :=
  ⟨randomOwner,Builtin.randomInt.name,[.int64],.int64,true,.builtin .randomInt⟩

def standardRoutines : List Routine :=
  [Builtin.nativeCeil.routine mathOwner [.float64] .float64,
    Builtin.nativeFloor.routine mathOwner [.float64] .float64,
    Builtin.ceil.routine basicOwner [.boxed] .boxed,
    Builtin.floor.routine basicOwner [.boxed] .boxed,
    Builtin.rangeTo.routine basicOwner [.int64] .boxed,
    Builtin.rangeBetween.routine basicOwner [.int64,.int64] .boxed,
    Builtin.rangeBy.routine basicOwner [.int64,.int64,.int64] .boxed,
    Builtin.max.routine basicOwner [.boxed,.boxed] .boxed,
    Builtin.min.routine basicOwner [.boxed,.boxed] .boxed,
    Builtin.isNull.routine basicOwner [.boxed] .bool,
    randomIntRoutine]

/-- The table of the basic functions. -/
def RoutineTable.standard : RoutineTable := ofList standardRoutines

/-- The runtime objects of the basic functions: a seeded source of random numbers. -/
def Instances.standard (generator : Generator) (seed : UInt64) : Instances :=
  Instances.empty.insert randomOwner (.random (.seeded generator seed))

end CallLowering
