import CallLowering.Routine.Basic

namespace CallLowering

/-- The routines under each owner and name that has any. -/
abbrev RoutineGroups : Type := List ((String × String) × List Routine)

namespace RoutineGroups

/-- The routines under this owner and name, in the order of their registration. -/
def overloads (gs : RoutineGroups) (key : String × String) : List Routine := (gs.lookup key).getD []

/-- Puts these routines under an owner and a name, in the place of those that stand there. -/
def put (key : String × String) (rs : List Routine) : RoutineGroups → RoutineGroups
  | [] => [(key,rs)]
  | g::gs => if g.1=key then (key,rs)::gs else g::put key rs gs

/-- How many routines there are. -/
def size : RoutineGroups → Nat
  | [] => 0
  | g::gs => g.2.length+size gs

end RoutineGroups

structure RoutineTable where
  groups : RoutineGroups

namespace RoutineTable

def empty : RoutineTable := ⟨[]⟩

/-- The routine with exactly these parameters. -/
def lookup (t : RoutineTable) (owner name : String) (params : List Rep) : Option Routine :=
  (t.groups.lookup (owner,name)).bind fun rs => rs.find? fun r => r.params==params

theorem params_of_lookup {t : RoutineTable} {owner name : String} {params : List Rep} {r : Routine}
    (h : t.lookup owner name params=some r) : r.params=params := by
  obtain ⟨rs,-,found⟩ := Option.bind_eq_some_iff.mp h
  simpa using List.find?_some found

/-- Is anything registered under this owner? -/
def hasOwner (t : RoutineTable) (owner : String) : Bool := t.groups.any fun g => g.1.1==owner

/-- How many routines there are. -/
def size (t : RoutineTable) : Nat := t.groups.size

def isEmpty (t : RoutineTable) : Bool := t.groups.isEmpty

end RoutineTable

/-- A table in the making, with the error of the first registration that found its place taken. -/
structure RoutineTable.Draft where
  groups : RoutineGroups
  firstError : Option RoutineError

namespace RoutineTable.Draft

def empty : Draft := ⟨[],none⟩

/-- Adds a routine, unless one with the same owner, name and parameters is there. -/
def register (d : Draft) (r : Routine) : Draft :=
  let overloads := d.groups.overloads (r.owner,r.name)
  if overloads.any fun o => o.params==r.params then
    {d with firstError := d.firstError.or (some (.duplicateRoutine r.owner r.name))}
  else {d with groups := d.groups.put (r.owner,r.name) (overloads++[r])}

/-- The table, whatever has collided. -/
def build (d : Draft) : RoutineTable := ⟨d.groups⟩

/-- The table, if nothing has collided. -/
def tryBuild (d : Draft) : Except RoutineError RoutineTable :=
  match d.firstError with
  | some e => .error e
  | none => .ok d.build

end RoutineTable.Draft

/-- The table of routines registered one after the other. -/
def RoutineTable.ofList (routines : List Routine) : RoutineTable :=
  (routines.foldl Draft.register .empty).build

end CallLowering
