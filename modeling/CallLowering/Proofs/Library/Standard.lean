import CallLowering.Library.Registry
import CallLowering.Proofs.Library.Functions

namespace CallLowering

theorem Value.max_int (m n : Int64) : Value.max (.int m) (.int n)=
    .ok (.int (if Comparison.gt.holds (some (compare n.toInt m.toInt)) then n else m)) := by
  simp only [Value.max,Comparison.holds,beq_iff_eq,Int.compare_eq_gt]

theorem Value.min_int (m n : Int64) : Value.min (.int m) (.int n)=
    .ok (.int (if Comparison.lt.holds (some (compare n.toInt m.toInt)) then n else m)) := by
  simp only [Value.min,Comparison.holds,beq_iff_eq,Int.compare_eq_lt]

/-- A number that is not one gives way to the other; both of the rules that choose say so. -/
theorem Binary64.max_eq_choice (x y : Binary64) : x.max y=
    if Comparison.gt.holds (y.order x) then y else if Comparison.ne.holds (x.order x) then y else x := by
  cases hx : x.isNaN <;> cases hy : y.isNaN <;>
    simp [Binary64.max,Binary64.order,Comparison.holds,hx,hy,Int.compare_eq_gt]

theorem Binary64.min_eq_choice (x y : Binary64) : x.min y=
    if Comparison.lt.holds (y.order x) then y else if Comparison.ne.holds (x.order x) then y else x := by
  cases hx : x.isNaN <;> cases hy : y.isNaN <;>
    simp [Binary64.min,Binary64.order,Comparison.holds,hx,hy,Int.compare_eq_lt]

namespace Library

open CallLowering.Expr

def boxedMethod (b : Builtin) (params : List Rep) : Method := ⟨b.routine basicOwner params .boxed,false⟩

def standardCeiling : Rounding :=
  ⟨"ceiling",⟨⟨Builtin.nativeCeil.routine mathOwner [.float64] .float64,true⟩,boxedMethod .ceil [.boxed]⟩,
    "Math.ceil","math.ceil"⟩

def standardFloor : Rounding :=
  ⟨"floor",⟨⟨Builtin.nativeFloor.routine mathOwner [.float64] .float64,true⟩,boxedMethod .floor [.boxed]⟩,
    "Math.floor","math.floor"⟩

def standardRange : RangeFunction :=
  ⟨boxedMethod .rangeTo [.int64],boxedMethod .rangeBetween [.int64,.int64],
    boxedMethod .rangeBy [.int64,.int64,.int64]⟩

def standardNullCheck (name : String) (negated : Bool) : NullCheck :=
  ⟨name,negated,⟨Builtin.isNull.routine basicOwner [.boxed] .bool,true⟩⟩

def standardMax : Extremum := ⟨"max",.gt,boxedMethod .max [.boxed,.boxed]⟩

def standardMin : Extremum := ⟨"min",.lt,boxedMethod .min [.boxed,.boxed]⟩

/-- The entries, in the order of their declaration. -/
def standardEntries : List FunctionEntry :=
  [⟨standardCeiling.signature,standardCeiling.capabilities,[]⟩,
    ⟨standardFloor.signature,standardFloor.capabilities,[]⟩,
    ⟨RangeFunction.signature,standardRange.capabilities,[]⟩,
    ⟨NullCheck.signature (standardNullCheck "isNull" false),
      NullCheck.capabilities (standardNullCheck "isNull" false),[]⟩,
    ⟨NullCheck.signature (standardNullCheck "isNonnull" true),
      NullCheck.capabilities (standardNullCheck "isNonnull" true),[]⟩,
    ⟨standardMax.signature,standardMax.capabilities,[]⟩,
    ⟨standardMin.signature,standardMin.capabilities,[]⟩,
    ⟨RandomInt.signature,RandomInt.capabilities ⟨⟨randomIntRoutine,false⟩⟩,[randomOwner]⟩]

theorem build_standard (config : Config) :
    build config RoutineTable.standard=.ok ⟨standardEntries,config⟩ := rfl

/-- The basic functions without effect. -/
inductive PureFunction
  | ceiling
  | floor
  | range
  | isNull
  | isNonnull
  | max
  | min

namespace PureFunction

def name : PureFunction → String
  | ceiling => "ceiling"
  | floor => "floor"
  | range => "range"
  | isNull => "isNull"
  | isNonnull => "isNonnull"
  | max => "max"
  | min => "min"

def bytecode : PureFunction → BytecodeLowering
  | ceiling => standardCeiling.bytecode
  | floor => standardFloor.bytecode
  | range => standardRange.bytecode
  | isNull => (standardNullCheck "isNull" false).bytecode
  | isNonnull => (standardNullCheck "isNonnull" true).bytecode
  | max => standardMax.bytecode
  | min => standardMin.bytecode

/-- What the function says of the values of its arguments, if anything. -/
def apply : PureFunction → List Value → Option Value
  | ceiling,[v] => v.ceil.toOption
  | floor,[v] => v.floor.toOption
  | range,vs => (progression vs).toOption
  | isNull,[v] => some (.bool v.isNullish)
  | isNonnull,[v] => some (.bool !v.isNullish)
  | max,[v,w] => (v.max w).toOption
  | min,[v,w] => (v.min w).toOption
  | _,_ => none

theorem find_standard (f : PureFunction) (config : Config) :
    ∃ e, Registry.find? ⟨standardEntries,config⟩ f.name=some e ∧ e.capabilities.bytecode=some f.bytecode := by
  cases f <;> exact ⟨_,rfl,rfl⟩

end PureFunction

theorem one_ok {α : Type} {function : String} {as : List α} {a : α} (h : one function as=.ok a) : as=[a] := by
  unfold one at h
  split at h
  · cases h
    rfl
  · cases h

theorem two_ok {α : Type} {function : String} {as : List α} {a : α × α} (h : two function as=.ok a) :
    as=[a.1,a.2] := by
  unfold two at h
  split at h
  · cases h
    rfl
  · cases h

variable {bodies : Instances.Bodies} {args : List Slot} {b b' : Builder} {t : TypedExpr}

/-- What a call of the function is lowered to computes what the function says, if the locals of the arguments
are not taken again. -/
theorem PureFunction.sound (f : PureFunction) {es : List TypedExpr} {vs : List (Option Value)}
    (hs : List.Forall₂ (fun (e : TypedExpr) v => Sound bodies args e.expr v) es vs)
    (hb : ∀ e∈es, ∀ i∈e.expr.bound, i.toNat < b.nextLocal.toNat) (h : f.bytecode es b=(.ok t,b')) :
    Sound bodies args t.expr ((vs.mapM id).bind f.apply) := by
  -- all functions but one count their arguments first
  have single {function : String} {lower : TypedExpr → Build TypedExpr}
      (h : (do lower (← one function es) : Build TypedExpr) b=(.ok t,b')) :
      ∃ e v, es=[e] ∧ vs=[v] ∧ Sound bodies args e.expr v ∧ lower e b=(.ok t,b') := by
    obtain ⟨e,u,he,h⟩ := Failure.bind_state_ok h
    obtain ⟨hone,rfl⟩ := Failure.lift_ok he
    cases one_ok hone
    obtain ⟨v,rest,hv,hrest,rfl⟩ := List.forall₂_cons_left_iff.mp hs
    cases hrest
    exact ⟨e,v,rfl,rfl,hv,h⟩
  have double {function : String} {lower : TypedExpr × TypedExpr → Build TypedExpr}
      (h : (do lower (← two function es) : Build TypedExpr) b=(.ok t,b')) :
      ∃ e e' v w, es=[e,e'] ∧ vs=[v,w] ∧ Sound bodies args e.expr v ∧ Sound bodies args e'.expr w := by
    obtain ⟨⟨e,e'⟩,u,he,-⟩ := Failure.bind_state_ok h
    cases two_ok (Failure.lift_ok he).1
    obtain ⟨v,rest,hv,hrest,rfl⟩ := List.forall₂_cons_left_iff.mp hs
    obtain ⟨w,rest',hw,hrest',rfl⟩ := List.forall₂_cons_left_iff.mp hrest
    cases hrest'
    exact ⟨e,e',v,w,rfl,rfl,hv,hw⟩
  cases f with
  | ceiling =>
    obtain ⟨e,v,rfl,rfl,hv,h⟩ := single h
    have sound := Rounder.lower_sound (f := Binary64.ceil) (g := Value.ceil) (by decide) (by decide) rfl
      (fun x => rfl) (fun v => rfl) (fun n => rfl) (fun x => rfl) hv h
    cases v <;> exact sound
  | floor =>
    obtain ⟨e,v,rfl,rfl,hv,h⟩ := single h
    have sound := Rounder.lower_sound (f := Binary64.floor) (g := Value.floor) (by decide) (by decide) rfl
      (fun x => rfl) (fun v => rfl) (fun n => rfl) (fun x => rfl) hv h
    cases v <;> exact sound
  | range => exact RangeFunction.bytecode_sound rfl rfl rfl hs h
  | isNull =>
    obtain ⟨e,v,rfl,rfl,hv,-⟩ := single h
    have sound := NullCheck.bytecode_sound hv h
    cases v <;> exact sound
  | isNonnull =>
    obtain ⟨e,v,rfl,rfl,hv,-⟩ := single h
    have sound := NullCheck.bytecode_sound hv h
    cases v <;> exact sound
  | max =>
    obtain ⟨e,e',v,w,rfl,rfl,hv,hw⟩ := double h
    have sound := Extremum.bytecode_sound (by decide) rfl rfl (fun v w => rfl) Value.max_int
      (fun x y => congrArg (fun x => Except.ok (Value.float x)) (Binary64.max_eq_choice x y)) hv hw
      (hb _ (by simp)) (hb _ (by simp)) h
    cases v <;> cases w <;> exact sound
  | min =>
    obtain ⟨e,e',v,w,rfl,rfl,hv,hw⟩ := double h
    have sound := Extremum.bytecode_sound (by decide) rfl rfl (fun v w => rfl) Value.min_int
      (fun x y => congrArg (fun x => Except.ok (Value.float x)) (Binary64.min_eq_choice x y)) hv hw
      (hb _ (by simp)) (hb _ (by simp)) h
    cases v <;> cases w <;> exact sound

end Library

end CallLowering
