import CallLowering.Value.Basic

namespace CallLowering.Value

/-- The integer above: integers stay as they are. -/
def ceil : Value → Except RoutineError Value
  | int n => .ok (int n)
  | v => do return int (← v.toFloat).ceil.toInt64

/-- The integer below: integers stay as they are. -/
def floor : Value → Except RoutineError Value
  | int n => .ok (int n)
  | v => do return int (← v.toFloat).floor.toInt64

/-- Has a progression with this step not reached `stop` yet? -/
def Short (stop step current : Int) : Prop := 0 < step ∧ current < stop ∨ step < 0 ∧ stop < current

instance (stop step current : Int) : Decidable (Short stop step current) :=
  inferInstanceAs (Decidable (_ ∨ _))

/-- How far it is to `stop`, in the direction of the step. -/
def distance (stop step current : Int64) : Nat :=
  (if 0 < step.toInt then stop.toInt-current.toInt else current.toInt-stop.toInt).toNat

theorem distance_lt {stop step current next : Int64} (h : Short stop.toInt step.toInt current.toInt)
    (hn : Int64.add? current step=some next) : distance stop step next < distance stop step current := by
  have sum : next.toInt=current.toInt+step.toInt := Int64.toInt_of_add? hn
  rw [distance,distance,sum]
  obtain ⟨up,before⟩|⟨down,beyond⟩ := h
  · rw [if_pos up,if_pos up]
    omega
  · have notUp : ¬0 < step.toInt := by omega
    rw [if_neg notUp,if_neg notUp]
    omega

/-- Puts the terms of a progression from `current` on behind those that are there. It ends before `stop`, or where
the next term is no 64-bit integer. -/
def collect (stop step : Int64) (terms : Array Int64) (current : Int64) : Array Int64 :=
  if _short : Short stop.toInt step.toInt current.toInt then
    match _next : Int64.add? current step with
    | some next => collect stop step (terms.push current) next
    | none => terms.push current
  else terms
termination_by distance stop step current
decreasing_by exact distance_lt (by assumption) (by assumption)

/-- The progression from `start` by `step` up to, and not including, `stop`. -/
def range (start stop step : Int64) : Except RoutineError Value :=
  if step=0 then .error (.invalidArgument "range" "step must be non-zero")
  else .ok (list ((collect stop step #[] start).toList.map int))

/-- The larger of two numbers: an integer if both are, otherwise a float. -/
def max : Value → Value → Except RoutineError Value
  | int a,int b => .ok (int (if a.toInt < b.toInt then b else a))
  | a,b => do return float ((← a.toFloat).max (← b.toFloat))

/-- The smaller of two numbers: an integer if both are, otherwise a float. -/
def min : Value → Value → Except RoutineError Value
  | int a,int b => .ok (int (if b.toInt < a.toInt then b else a))
  | a,b => do return float ((← a.toFloat).min (← b.toFloat))

end CallLowering.Value
