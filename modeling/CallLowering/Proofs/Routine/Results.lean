import CallLowering.Proofs.Value.Admits
import CallLowering.Routine.Standard

namespace CallLowering

/-- The representation of what a built-in routine returns. -/
def Builtin.returns : Builtin → Rep
  | nativeCeil | nativeFloor => .float64
  | isNull => .bool
  | randomInt => .int64
  | ceil | floor | rangeTo | rangeBetween | rangeBy | max | min => .boxed

theorem Builtin.rep_of_run {b : Builtin} {slots : List Slot} {slot : Slot} (h : b.run slots=.ok slot) :
    slot.rep=b.returns := by
  have boxed {x : Except RoutineError Value} (h : (do return .boxed (← x))=Except.ok slot) :
      slot.rep=.boxed := by
    obtain ⟨v,-,h⟩ := Failure.bind_ok h
    cases h
    rfl
  have native {x : Except RoutineError Binary64} {f : Binary64 → Binary64}
      (h : (do return .float64 (f (← x)))=Except.ok slot) : slot.rep=.float64 := by
    obtain ⟨v,-,h⟩ := Failure.bind_ok h
    cases h
    rfl
  unfold run at h
  split at h
  · exact native h
  · exact native h
  · exact boxed h
  · exact boxed h
  · obtain ⟨stop,-,h⟩ := Failure.bind_ok h
    exact boxed h
  · obtain ⟨start,-,h⟩ := Failure.bind_ok h
    obtain ⟨stop,-,h⟩ := Failure.bind_ok h
    exact boxed h
  · obtain ⟨start,-,h⟩ := Failure.bind_ok h
    obtain ⟨stop,-,h⟩ := Failure.bind_ok h
    obtain ⟨step,-,h⟩ := Failure.bind_ok h
    exact boxed h
  · exact boxed h
  · exact boxed h
  · cases h
    rfl
  · cases h

/-- The type of the values that a built-in routine returns. -/
def Builtin.type : Builtin → SemanticType
  | nativeCeil | nativeFloor => .float
  | ceil | floor | randomInt => .int
  | rangeTo | rangeBetween | rangeBy => .list .int
  | max | min => .number
  | isNull => .bool

theorem Builtin.admits_of_run {b : Builtin} {slots : List Slot} {slot : Slot} (h : b.run slots=.ok slot) :
    b.type.admits slot.toValue := by
  have boxed {x : Except RoutineError Value} {t : SemanticType} (hx : ∀ v, x=.ok v → t.admits v)
      (h : (do return .boxed (← x))=Except.ok slot) : t.admits slot.toValue := by
    obtain ⟨v,hv,done⟩ := Failure.bind_ok h
    cases done
    exact hx v hv
  have native {x : Except RoutineError Binary64} {f : Binary64 → Binary64}
      (h : (do return .float64 (f (← x)))=Except.ok slot) : SemanticType.float.admits slot.toValue := by
    obtain ⟨v,-,done⟩ := Failure.bind_ok h
    cases done
    rfl
  unfold run at h
  split at h
  · exact native h
  · exact native h
  · exact boxed (fun v hv => Value.int_of_ceil hv) h
  · exact boxed (fun v hv => Value.int_of_floor hv) h
  · obtain ⟨stop,-,h⟩ := Failure.bind_ok h
    exact boxed (fun v hv => Value.ints_of_range hv) h
  · obtain ⟨start,-,h⟩ := Failure.bind_ok h
    obtain ⟨stop,-,h⟩ := Failure.bind_ok h
    exact boxed (fun v hv => Value.ints_of_range hv) h
  · obtain ⟨start,-,h⟩ := Failure.bind_ok h
    obtain ⟨stop,-,h⟩ := Failure.bind_ok h
    obtain ⟨step,-,h⟩ := Failure.bind_ok h
    exact boxed (fun v hv => Value.ints_of_range hv) h
  · exact boxed (Value.max_chooses.number _ _) h
  · exact boxed (Value.min_chooses.number _ _) h
  · cases h
    rfl
  · cases h

/-- The larger or the smaller of two values of one type of numbers has that type. -/
theorem Builtin.admits_of_choice {b : Builtin} (hb : b=.max ∨ b=.min) {t : SemanticType} (ht : t.isNumeric)
    {s s' slot : Slot} (hs : t.admits s.toValue) (hs' : t.admits s'.toValue) (h : b.run [s,s']=.ok slot) :
    t.admits slot.toValue := by
  have boxed {choose : Value → Value → Except RoutineError Value} (hc : Value.Chooses choose)
      (h : (do return .boxed (← choose s.toValue s'.toValue))=Except.ok slot) : t.admits slot.toValue := by
    obtain ⟨v,hv,done⟩ := Failure.bind_ok h
    cases done
    exact hc.admits ht hs hs' hv
  obtain rfl|rfl := hb
  · exact boxed Value.max_chooses h
  · exact boxed Value.min_chooses h

/-- A number that is drawn lies below the bound. -/
theorem RandomSource.inRange_of_below {s t : RandomSource} {upper n : Int64} (h : s.below upper=(.ok n,t)) :
    0 ≤ n.toInt ∧ n.toInt < upper.toInt := by
  rw [below] at h
  split at h
  · cases h
  · next positive =>
    cases h
    exact s.generator.inRange _ _ _ (Int.not_le.mp positive)

/-- The generator that draws these numbers one after the other, as far as they are in range, and zeros otherwise. -/
def Generator.listed (numbers : List Int64) : Generator where
  number _ before upper :=
    let n := numbers.getD before.length 0
    if 0 ≤ n.toInt ∧ n.toInt < upper.toInt then n else 0
  inRange _ before upper h := by
    dsimp only
    split
    · assumption
    · exact ⟨Int.le_refl 0,h⟩

namespace Instances

variable {bodies : Bodies} {i j : Instances} {r : Routine} {slots : List Slot} {slot : Slot}

theorem rep_of_draw {owner : String} {bound : Slot} (h : i.draw owner bound=(.ok slot,j)) :
    slot.rep=.int64 := by
  unfold draw at h
  split at h
  · split at h
    · cases h
      rfl
    · cases h
  · cases h
  · cases h

theorem rep_of_enter {b : Builtin} (hb : r.body=.builtin b)
    (h : (Instances.host bodies).enter r slots i=(.ok slot,j)) : slot.rep=b.returns := by
  simp only [Instances.host,hb] at h
  split at h
  · next heq =>
    cases heq
    exact rep_of_draw h
  · next heq _ =>
    cases heq
    exact Builtin.rep_of_run (congrArg Prod.fst h)
  · next heq => cases heq

end Instances

end CallLowering
