import CallLowering.Machine
import CallLowering.Proofs.Failure
import CallLowering.Proofs.Number.Canonical

namespace CallLowering

namespace Value

mutual

/-- A value up to what arithmetic can tell apart in the floats that it contains. -/
def canonical : Value → Value
  | undefined => undefined
  | null => null
  | bool b => bool b
  | int n => int n
  | float x => float x.canonical
  | string s => string s
  | list items => list (canonicalAll items)

def canonicalAll : List Value → List Value
  | [] => []
  | v::vs => v.canonical::canonicalAll vs

end

theorem canonicalAll_eq (vs : List Value) : canonicalAll vs=vs.map canonical := by
  induction vs with
  | nil => rfl
  | cons v vs ih => rw [canonicalAll,ih,List.map_cons]

@[simp] theorem isNullish_canonical (v : Value) : v.canonical.isNullish=v.isNullish := by
  cases v <;> rfl

@[simp] theorem toBool_canonical (v : Value) : v.canonical.toBool=v.toBool := by
  cases v <;> rfl

@[simp] theorem toInt_canonical (v : Value) : v.canonical.toInt=v.toInt := by
  cases v with
  | float x => exact congrArg Except.ok x.toInt64_canonical
  | _ => rfl

theorem toFloat_canonical (v : Value) :
    v.canonical.toFloat.map Binary64.canonical=v.toFloat.map Binary64.canonical := by
  cases v with
  | float x => exact congrArg Except.ok x.canonical_canonical
  | _ => rfl

@[simp] theorem ceil_canonical (v : Value) : v.canonical.ceil=v.ceil := by
  cases v with
  | float x =>
    have h := Binary64.toInt64_congr (Binary64.ceil_canonical x)
    exact congrArg (fun n => Except.ok (int n)) h
  | _ => rfl

@[simp] theorem floor_canonical (v : Value) : v.canonical.floor=v.floor := by
  cases v with
  | float x =>
    have h := Binary64.toInt64_congr (Binary64.floor_canonical x)
    exact congrArg (fun n => Except.ok (int n)) h
  | _ => rfl

theorem max_canonical (v w : Value) :
    (v.canonical.max w.canonical).map canonical=(v.max w).map canonical := by
  have floats (v w : Value) : Except.map canonical (do
      return float ((← v.canonical.toFloat).max (← w.canonical.toFloat)))=
      Except.map canonical (do return float ((← v.toFloat).max (← w.toFloat))) := by
    apply Failure.map_bind_congr v.toFloat_canonical
    intro x x' hx
    apply Failure.map_bind_congr w.toFloat_canonical
    intro y y' hy
    exact congrArg (fun x => Except.ok (float x)) (Binary64.max_congr hx hy)
  cases v with
  | int m =>
    cases w with
    | int n => rfl
    | _ => exact floats (int m) _
  | _ => exact floats _ _

theorem min_canonical (v w : Value) :
    (v.canonical.min w.canonical).map canonical=(v.min w).map canonical := by
  have floats (v w : Value) : Except.map canonical (do
      return float ((← v.canonical.toFloat).min (← w.canonical.toFloat)))=
      Except.map canonical (do return float ((← v.toFloat).min (← w.toFloat))) := by
    apply Failure.map_bind_congr v.toFloat_canonical
    intro x x' hx
    apply Failure.map_bind_congr w.toFloat_canonical
    intro y y' hy
    exact congrArg (fun x => Except.ok (float x)) (Binary64.min_congr hx hy)
  cases v with
  | int m =>
    cases w with
    | int n => rfl
    | _ => exact floats (int m) _
  | _ => exact floats _ _

mutual

theorem canonical_canonical : ∀ v : Value, v.canonical.canonical=v.canonical
  | undefined | null | bool _ | int _ | string _ => rfl
  | float x => congrArg float x.canonical_canonical
  | list items => congrArg list (canonicalAll_canonicalAll items)

theorem canonicalAll_canonicalAll : ∀ vs : List Value, canonicalAll (canonicalAll vs)=canonicalAll vs
  | [] => rfl
  | v::vs => by rw [canonicalAll,canonicalAll,canonical_canonical v,canonicalAll_canonicalAll vs]

end

mutual

theorem canonical_of_equals : ∀ {a b : Value}, a.equals b → a.canonical=b.canonical
  | undefined,undefined,_ => rfl
  | null,null,_ => rfl
  | bool a,bool b,h => by rw [eq_of_beq (by simpa only [equals] using h : (a==b)=true)]
  | int a,int b,h => by rw [eq_of_beq (by simpa only [equals] using h : (a==b)=true)]
  | string a,string b,h => by rw [eq_of_beq (by simpa only [equals] using h : (a==b)=true)]
  | float a,float b,h => congrArg float
      ((a.canonical_eq_iff b).mpr (.inr (by simpa only [equals] using h)))
  | list as,list bs,h => congrArg list (canonicalAll_of_equals (by simpa only [equals] using h))

theorem canonicalAll_of_equals : ∀ {as bs : List Value}, equalsAll as bs → canonicalAll as=canonicalAll bs
  | [],[],_ => rfl
  | a::as,b::bs,h => by
    simp only [equalsAll,Bool.and_eq_true] at h
    rw [canonicalAll,canonicalAll,canonical_of_equals h.1,canonicalAll_of_equals h.2]

end

mutual

/-- Equality cannot tell values apart that are the same in canonical form. -/
theorem equals_canonical : ∀ a b : Value, a.canonical.equals b.canonical=a.equals b
  | float x,float y => by simp only [canonical,equals,Binary64.equals,Binary64.order_canonical]
  | list as,list bs => by simpa only [canonical,equals] using equalsAll_canonicalAll as bs
  | float _,undefined | float _,null | float _,bool _ | float _,int _ | float _,string _ | float _,list _ => rfl
  | list _,undefined | list _,null | list _,bool _ | list _,int _ | list _,string _ | list _,float _ => rfl
  | undefined,b | null,b | bool _,b | int _,b | string _,b => by cases b <;> rfl

theorem equalsAll_canonicalAll : ∀ as bs : List Value,
    equalsAll (canonicalAll as) (canonicalAll bs)=equalsAll as bs
  | [],[] => rfl
  | a::as,b::bs => by
    rw [canonicalAll,canonicalAll,equalsAll,equalsAll,equals_canonical a b,equalsAll_canonicalAll as bs]
  | [],_::_ => rfl
  | _::_,[] => rfl

end

end Value

namespace Slot

def canonical : Slot → Slot
  | int64 n => int64 n
  | float64 x => float64 x.canonical
  | bool b => bool b
  | boxed v => boxed v.canonical

@[simp] theorem toValue_canonical (s : Slot) : s.canonical.toValue=s.toValue.canonical := by
  cases s <;> rfl

@[simp] theorem isNullish_canonical (s : Slot) : s.canonical.isNullish=s.isNullish := by
  cases s with
  | boxed v => exact v.isNullish_canonical
  | _ => rfl

@[simp] theorem toInt_canonical (s : Slot) : s.canonical.toInt=s.toInt := by
  cases s with
  | boxed v => exact v.toInt_canonical
  | _ => rfl

@[simp] theorem toBool_canonical (s : Slot) : s.canonical.toBool=s.toBool := by
  cases s with
  | boxed v => exact v.toBool_canonical
  | _ => rfl

theorem toFloat_canonical (s : Slot) :
    s.canonical.toFloat.map Binary64.canonical=s.toFloat.map Binary64.canonical := by
  cases s with
  | boxed v => exact v.toFloat_canonical
  | float64 x => exact congrArg Except.ok x.canonical_canonical
  | _ => rfl

theorem canonical_box (s : Slot) : s.box.canonical=s.canonical.box := by
  cases s <;> rfl

theorem canonical_list (slots : List Slot) : (boxed (.list (slots.map toValue))).canonical=
    boxed (.list ((slots.map canonical).map toValue)) := by
  rw [canonical,Value.canonical,Value.canonicalAll_eq,List.map_map,List.map_map]
  congr 2
  exact List.map_congr_left fun s _ => s.toValue_canonical.symm

theorem unboxValue_canonical (v : Value) (target : Rep) :
    (unboxValue v.canonical target).map canonical=(unboxValue v target).map canonical := by
  cases target with
  | int64 => rw [unboxValue,unboxValue,v.toInt_canonical]
  | bool => rw [unboxValue,unboxValue,v.toBool_canonical]
  | boxed => exact congrArg (fun v => Except.ok (boxed v)) v.canonical_canonical
  | float64 =>
    have h : (v.canonical.toFloat.map float64).map canonical=(v.toFloat.map float64).map canonical :=
      Failure.map_bind_congr (f := fun x => pure (float64 x)) v.toFloat_canonical
        fun x y hxy => congrArg (fun x => Except.ok (float64 x)) hxy
    exact h

theorem convert_canonical (s : Slot) (target : Rep) :
    (s.canonical.convert target).map canonical=(s.convert target).map canonical := by
  cases s with
  | boxed v => exact unboxValue_canonical v target
  | float64 x =>
    cases target with
    | int64 => exact congrArg (fun n => Except.ok (int64 n)) x.toInt64_canonical
    | float64 => exact congrArg (fun x => Except.ok (float64 x)) x.canonical_canonical
    | bool => rfl
    | boxed => exact congrArg (fun x => Except.ok (boxed (.float x))) x.canonical_canonical
  | _ => rfl

theorem unbox_canonical (s : Slot) (target : Rep) :
    (s.canonical.unbox target).map canonical=(s.unbox target).map canonical := by
  cases s with
  | boxed v => exact unboxValue_canonical v target
  | _ => exact convert_canonical _ target

theorem order_canonical (a b : Slot) : a.canonical.order b.canonical=a.order b := by
  have floats (a b : Slot) : (do return (← a.canonical.toFloat).order (← b.canonical.toFloat))=
      (do return (← a.toFloat).order (← b.toFloat) : Except RoutineError (Option Ordering)) := by
    apply Failure.bind_congr_of_map a.toFloat_canonical
    intro x x' hx
    apply Failure.bind_congr_of_map b.toFloat_canonical
    intro y y' hy
    rw [←Binary64.order_canonical,hx,hy,Binary64.order_canonical]
  cases a with
  | int64 m =>
    cases b with
    | int64 n => rfl
    | _ => exact floats (int64 m) _
  | _ => exact floats _ _

theorem canonical_of_equals {a b : Slot} (h : a.equals b) : a.canonical=b.canonical := by
  cases a with
  | int64 m =>
    cases b with
    | int64 n => rw [eq_of_beq (show (m==n)=true from h)]
    | _ => cases h
  | float64 x =>
    cases b with
    | float64 y => exact congrArg float64 ((x.canonical_eq_iff y).mpr (.inr h))
    | _ => cases h
  | bool p =>
    cases b with
    | bool q => rw [eq_of_beq (show (p==q)=true from h)]
    | _ => cases h
  | boxed v =>
    cases b with
    | boxed w => exact congrArg boxed (Value.canonical_of_equals h)
    | _ => cases h

theorem equals_canonical (a b : Slot) : a.canonical.equals b.canonical=a.equals b := by
  cases a with
  | float64 x =>
    cases b with
    | float64 y => simp only [canonical,equals,Binary64.equals,Binary64.order_canonical]
    | _ => rfl
  | boxed v =>
    cases b with
    | boxed w => exact Value.equals_canonical v w
    | _ => rfl
  | _ => cases b <;> rfl

/-- A slot equals the one of two equal slots if it equals the other. -/
theorem equals_right {a b : Slot} (h : a.equals b) (k : Slot) : k.equals a=k.equals b := by
  rw [←equals_canonical,canonical_of_equals h,equals_canonical]

theorem equals_trans {a b c : Slot} (h : a.equals b) (h' : b.equals c) : a.equals c :=
  equals_right h' a ▸ h

end Slot

/-- The built-in routines cannot tell arguments apart that are the same in canonical form. -/
theorem Builtin.run_canonical (b : Builtin) (args : List Slot) :
    (b.run (args.map Slot.canonical)).map Slot.canonical=(b.run args).map Slot.canonical := by
  have box {x y : Except RoutineError Value} (h : x.map Value.canonical=y.map Value.canonical) :
      Except.map Slot.canonical (do return .boxed (← x))=
        Except.map Slot.canonical (do return .boxed (← y)) :=
    Failure.map_bind_congr h fun v w hvw => congrArg (fun v => Except.ok (Slot.boxed v)) hvw
  have native {f : Binary64 → Binary64} (hf : ∀ x y, x.canonical=y.canonical → (f x).canonical=(f y).canonical)
      (a : Slot) : Except.map Slot.canonical (do return .float64 (f (← a.canonical.toFloat)))=
        Except.map Slot.canonical (do return .float64 (f (← a.toFloat))) :=
    Failure.map_bind_congr a.toFloat_canonical fun x y hxy =>
      congrArg (fun x => Except.ok (Slot.float64 x)) (hf x y hxy)
  cases b with
  | nativeCeil =>
    match args with
    | [a] => exact native (fun x y => Binary64.ceil_congr) a
    | [] => rfl
    | a::b::rest => simp [run]
  | nativeFloor =>
    match args with
    | [a] => exact native (fun x y => Binary64.floor_congr) a
    | [] => rfl
    | a::b::rest => simp [run]
  | ceil =>
    match args with
    | [a] =>
      apply box
      rw [Slot.toValue_canonical,Value.ceil_canonical]
    | [] => rfl
    | a::b::rest => simp [run]
  | floor =>
    match args with
    | [a] =>
      apply box
      rw [Slot.toValue_canonical,Value.floor_canonical]
    | [] => rfl
    | a::b::rest => simp [run]
  | rangeTo =>
    match args with
    | [stop] => simp [run]
    | [] => rfl
    | a::b::rest => simp [run]
  | rangeBetween =>
    match args with
    | [start,stop] => simp [run]
    | [] | [a] => rfl
    | a::b::c::rest => simp [run]
  | rangeBy =>
    match args with
    | [start,stop,step] => simp [run]
    | [] | [a] | [a,b] => rfl
    | a::b::c::d::rest => simp [run]
  | max =>
    match args with
    | [a,b] =>
      apply box
      rw [Slot.toValue_canonical,Slot.toValue_canonical]
      exact Value.max_canonical _ _
    | [] | [a] => rfl
    | a::b::c::rest => simp [run]
  | min =>
    match args with
    | [a,b] =>
      apply box
      rw [Slot.toValue_canonical,Slot.toValue_canonical]
      exact Value.min_canonical _ _
    | [] | [a] => rfl
    | a::b::c::rest => simp [run]
  | isNull =>
    match args with
    | [a] => simp [run]
    | [] => rfl
    | a::b::rest => simp [run]
  | randomInt => simp [run]

end CallLowering
