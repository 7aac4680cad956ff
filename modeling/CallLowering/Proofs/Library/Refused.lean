import CallLowering.Proofs.Expr.Conversion
import CallLowering.Proofs.Expr.Constant
import CallLowering.Proofs.Library.Settled

namespace CallLowering

variable {α β : Type}

/-- Is it refused for what an argument is? -/
def Refused (x : Except LowerError α) : Prop := ∃ function message, x=.error (.invalidArgument function message)

theorem not_refused_ok (a : α) : ¬Refused (.ok a) := by
  rintro ⟨function,message,⟨⟩⟩

theorem not_refused_internal (message : String) : ¬Refused (.error (.internal message) : Except LowerError α) := by
  rintro ⟨function,message,⟨⟩⟩

theorem not_refused_bind {x : Except LowerError α} {f : α → Except LowerError β} (hx : ¬Refused x)
    (hf : ∀ a, ¬Refused (f a)) : ¬Refused (x >>= f) := by
  cases x with
  | ok a => exact hf a
  | error e =>
    rintro ⟨function,message,h⟩
    cases h
    exact hx ⟨function,message,rfl⟩

/-- A check before something that is not refused. -/
theorem refused_checked {check : Except LowerError Unit} {x : Except LowerError α} (hx : ¬Refused x) :
    Refused (do check; x) ↔ Refused check := by
  cases check with
  | ok u => exact ⟨fun h => absurd h hx,fun h => absurd h (not_refused_ok u)⟩
  | error e =>
    constructor
    · rintro ⟨function,message,⟨⟩⟩
      exact ⟨function,message,rfl⟩
    · rintro ⟨function,message,⟨⟩⟩
      exact ⟨function,message,rfl⟩

theorem Expr.coerce_not_refused (e : Expr) (target : Rep) : ¬Refused (e.coerce target) := by
  by_cases apart : e.rep.Apart target
  · rw [coerce_of_apart apart]
    exact not_refused_internal _
  · obtain ⟨e',he⟩ := exists_coerce apart
    rw [he]
    exact not_refused_ok e'

theorem coerceAll_not_refused (es : List Expr) (params : List Rep) : ¬Refused (coerceAll es params) := by
  induction es generalizing params with
  | nil => exact not_refused_ok []
  | cons e es ih =>
    cases params with
    | nil => exact not_refused_ok []
    | cons p params =>
      exact not_refused_bind (e.coerce_not_refused p) fun e' =>
        not_refused_bind (ih params) fun es' => not_refused_ok (e'::es')

namespace Method

theorem firstMisfit_internal {m : Method} {es : List Expr} {params : List Rep} {index : Nat} {error : LowerError}
    (h : m.firstMisfit? index es params=some error) : ∃ message, error=.internal message := by
  induction es generalizing index params with
  | nil => cases h
  | cons e es ih =>
    cases params with
    | nil => cases h
    | cons p params =>
      rw [firstMisfit?] at h
      split at h
      · exact ih h
      · cases h
        exact ⟨_,rfl⟩

theorem invoke_not_refused (m : Method) (es : List Expr) : ¬Refused (m.invoke es) := by
  rw [invoke]
  split
  · exact not_refused_internal _
  · split
    · next error misfit =>
      obtain ⟨message,rfl⟩ := firstMisfit_internal misfit
      exact not_refused_internal message
    · exact not_refused_ok _

end Method

theorem Build.invoke_not_refused (m : Method) (es : List Expr) (b : Builder) : ¬Refused (invoke m es b).1 := by
  rw [invoke_result]
  split
  · rintro ⟨function,message,⟨⟩⟩
  · exact not_refused_bind (coerceAll_not_refused es m.params) m.invoke_not_refused

/-- A call that is built behind a check. -/
theorem Build.call_refused (check : Except LowerError Unit) (m : Method) (es : List Expr) (type : SemanticType)
    (b : Builder) :
    Refused ((do check; return ⟨← invoke m es,type⟩ : Build TypedExpr) b).1 ↔ Refused check := by
  rw [check_result,map_result _ fun e => (⟨e,type⟩ : TypedExpr)]
  exact refused_checked (not_refused_bind (invoke_not_refused m es b) fun e => not_refused_ok _)

theorem Deferred.checkedCall_not_refused (m : Method) (ds : List Deferred) : ¬Refused (checkedCall m ds) := by
  rw [checkedCall]
  split
  · rintro ⟨function,message,⟨⟩⟩
  · exact not_refused_ok _

namespace DeferredFactory

theorem callStatic_not_refused (f : DeferredFactory) (m : Method) (ds : List Deferred) :
    ¬Refused (f.callStatic m ds) := by
  rw [callStatic]
  split
  · exact not_refused_internal _
  · exact Deferred.checkedCall_not_refused m ds

theorem callRuntime_not_refused (f : DeferredFactory) (m : Method) (ds : List Deferred) :
    ¬Refused (f.callRuntime m ds) := by
  rw [callRuntime]
  split
  · exact not_refused_internal _
  · split
    · rintro ⟨function,message,⟨⟩⟩
    · exact Deferred.checkedCall_not_refused m ds

end DeferredFactory

namespace Library

namespace RangeFunction

theorem checkStep_refused (step : Option Int64) : Refused (checkStep step) ↔ step=some 0 := by
  rw [checkStep]
  split
  · next zero => exact ⟨fun _ => zero,fun _ => ⟨_,_,rfl⟩⟩
  · next other => exact ⟨fun h => absurd h (not_refused_ok ()),fun h => absurd h other⟩

theorem bytecode_refused (f : RangeFunction) (start stop step : TypedExpr) (b : Builder) :
    Refused (f.bytecode [start,stop,step] b).1 ↔ step.expr.intConstant?=some 0 := by
  rw [←checkStep_refused]
  exact Build.call_refused _ f.stepped [start.expr,stop.expr,step.expr] (.list .int) b

theorem generic_refused (f : RangeFunction) (start stop step : Deferred) (factory : DeferredFactory)
    (context : CallContext) :
    Refused (f.generic factory context [start,stop,step]) ↔ step.intConstant?=some 0 := by
  rw [←checkStep_refused]
  exact refused_checked (factory.callStatic_not_refused f.stepped [start,stop,step])

end RangeFunction

namespace RandomInt

theorem checkBound_refused (bound : Option Int64) :
    Refused (checkBound bound) ↔ ∃ n, bound=some n ∧ n.toInt ≤ 0 := by
  cases bound with
  | none => exact ⟨fun h => absurd h (not_refused_ok ()),nofun⟩
  | some n =>
    rw [checkBound]
    split
    · next low => exact ⟨fun _ => ⟨n,rfl,low⟩,fun _ => ⟨_,_,rfl⟩⟩
    · next high =>
      refine ⟨fun h => absurd h (not_refused_ok ()),?_⟩
      rintro ⟨m,⟨⟩,low⟩
      exact absurd low high

theorem bytecode_refused (f : RandomInt) (bounds : List TypedExpr) (b : Builder) : Refused (f.bytecode bounds b).1 ↔
    ∃ bound n, bounds=[bound] ∧ bound.expr.intConstant?=some n ∧ n.toInt ≤ 0 := by
  match bounds with
  | [bound] =>
    have checked : Refused (f.bytecode [bound] b).1 ↔ ∃ n, bound.expr.intConstant?=some n ∧ n.toInt ≤ 0 := by
      rw [←checkBound_refused]
      exact Build.call_refused _ f.routine [bound.expr] .int b
    simpa using checked
  | [] => exact ⟨fun h => absurd h (not_refused_internal _),by simp⟩
  | _::_::_ => exact ⟨fun h => absurd h (not_refused_internal _),by simp⟩

theorem generic_refused (f : RandomInt) (bounds : List Deferred) (factory : DeferredFactory) (context : CallContext) :
    Refused (f.generic factory context bounds) ↔
      ∃ bound n, bounds=[bound] ∧ bound.intConstant?=some n ∧ n.toInt ≤ 0 := by
  match bounds with
  | [bound] =>
    have checked : Refused (f.generic factory context [bound]) ↔ ∃ n, bound.intConstant?=some n ∧ n.toInt ≤ 0 := by
      rw [←checkBound_refused]
      exact refused_checked (factory.callRuntime_not_refused f.routine [bound])
    simpa using checked
  | [] => exact ⟨fun h => absurd h (not_refused_internal _),by simp⟩
  | _::_::_ => exact ⟨fun h => absurd h (not_refused_internal _),by simp⟩

end RandomInt

end Library

namespace Slot

/-- Is a number in the slot, bare or in a box? -/
def isNumber : Slot → Bool
  | int64 _ => true
  | float64 _ => true
  | boxed (.int _) => true
  | boxed (.float _) => true
  | _ => false

/-- Is the number in the slot equal to zero? -/
def isZero : Slot → Bool
  | int64 n => n==0
  | float64 x => x.equals ⟨0⟩
  | boxed (.int n) => n==0
  | boxed (.float x) => x.equals ⟨0⟩
  | _ => false

/-- Is the number of a literal looked at? Floats count if they are integers, and not in a box. -/
def isSeen : Slot → Bool
  | float64 x => x.isWhole
  | boxed (.float _) => false
  | _ => true

variable {s s' : Slot}

theorem isNumber_of_isZero (h : s.isZero) : s.isNumber := by
  cases s with
  | bool b => cases h
  | boxed v =>
    cases v with
    | int n => rfl
    | float x => rfl
    | _ => cases h
  | _ => rfl

theorem whole_of_isZero (h : s.isZero) : s.whole?=some 0 := by
  have float {x : Binary64} (h : x.equals ⟨0⟩) : (if x.isWhole then some x.toInt64 else none)=some 0 := by
    obtain ⟨whole,zero⟩ := Binary64.toInt64_of_equals_zero h
    rw [if_pos whole,zero]
  cases s with
  | int64 n => exact congrArg some (by simpa [isZero] using h)
  | float64 x => exact float h
  | bool b => cases h
  | boxed v =>
    cases v with
    | int n => exact congrArg some (by simpa [isZero] using h)
    | float x => exact float h
    | _ => cases h

/-- Only a number becomes a number. -/
theorem isNumber_of_convert {target : Rep} (h : s.convert target=.ok s') (hn : s'.isNumber) : s.isNumber := by
  cases s with
  | bool b =>
    cases target with
    | bool =>
      cases h
      cases hn
    | boxed =>
      cases h
      cases hn
    | _ => cases h
  | boxed v =>
    cases v with
    | int n => rfl
    | float x => rfl
    | bool b =>
      cases target with
      | bool =>
        cases h
        cases hn
      | boxed =>
        cases h
        cases hn
      | _ => cases h
    | _ =>
      cases target with
      | boxed =>
        cases h
        cases hn
      | _ => cases h
  | _ => rfl

theorem isNumber_of_convert_all {targets : List Rep} (h : targets.foldlM convert s=.ok s') (hn : s'.isNumber) :
    s.isNumber := by
  induction targets generalizing s with
  | nil =>
    cases h
    exact hn
  | cons target targets ih =>
    rw [List.foldlM_cons] at h
    obtain ⟨s₁,first,rest⟩ := Failure.bind_ok h
    exact isNumber_of_convert first (ih rest)

/-- Only a float is in a box as a float. -/
theorem float_of_convert {target : Rep} {x : Binary64} (h : s.convert target=.ok (.boxed (.float x))) :
    target=.boxed ∧ (s=.float64 x ∨ s=.boxed (.float x)) := by
  cases target with
  | boxed =>
    rw [convert_boxed] at h
    cases s <;> cases h <;> simp
  | _ =>
    have rep := rep_of_convert h
    cases rep

/-- A literal that becomes zero is seen to be zero, if it is looked at. -/
theorem intConstant_of_zero {targets : List Rep} (h : targets.foldlM convert s=.ok s') (hz : s'.isZero) :
    (Expr.const s).intConstant?=some 0 ↔ s.isSeen := by
  have zero {n : Int64} (hn : s.whole?=some n) : n=0 := by
    by_cases truth : .bool∈targets
    · obtain ⟨error,failed⟩ := convert_all_bool hn truth
      cases failed.symm.trans h
    · obtain ⟨s₁,converted,left⟩ := convert_all_whole hn truth
      cases converted.symm.trans h
      have same := Option.some.inj (left.symm.trans (whole_of_isZero hz))
      split at same
      · exact Int64.throughFloat_eq_zero.mp same
      · exact same
  have number := isNumber_of_convert_all h (isNumber_of_isZero hz)
  cases s with
  | int64 n => exact ⟨fun _ => rfl,fun _ => congrArg some (zero rfl)⟩
  | float64 x =>
    by_cases whole : x.isWhole
    · refine ⟨fun _ => whole,fun _ => ?_⟩
      rw [Expr.intConstant?,if_pos whole,zero (if_pos whole)]
    · refine ⟨fun h => ?_,fun h => absurd h whole⟩
      rw [Expr.intConstant?,if_neg whole] at h
      cases h
  | bool b => cases number
  | boxed v =>
    cases v with
    | int n => exact ⟨fun _ => rfl,fun _ => congrArg some (zero rfl)⟩
    | float x => exact ⟨fun h => (by cases h),fun h => (by cases h)⟩
    | _ => cases number

end Slot

namespace Expr

variable {e e' : Expr} {target : Rep}

theorem intConstant_of_whole {s : Slot} {n : Int64} (h : s.whole?=some n) (hs : ∀ x, s≠.boxed (.float x)) :
    (const s).intConstant?=some n := by
  cases s with
  | bool b => cases h
  | boxed v =>
    cases v with
    | int m => exact h
    | float x => exact absurd rfl (hs x)
    | _ => cases h
  | _ => exact h

/-- Changing the representation loses sight of a literal only if it puts a float into a box. -/
theorem intConstant_of_coerce {n : Int64} (h : e.coerce target=.ok e') (hn : e.intConstant?=some n)
    (hz : Int64.throughFloat n=n) : e'.intConstant?=some n ↔ ¬(target=.boxed ∧ ∃ x, e=.const (.float64 x)) := by
  by_cases hidden : target=.boxed ∧ ∃ x, e=.const (.float64 x)
  · refine ⟨fun seen => ?_,fun hb => absurd hidden hb⟩
    obtain ⟨rfl,x,rfl⟩ := hidden
    cases h
    cases seen
  · refine ⟨fun _ => hidden,fun _ => ?_⟩
    cases coerced_of_coerce h with
    | @folded slot slot' converted =>
      have whole := whole_of_intConstant hn
      by_cases truth : target=.bool
      · obtain ⟨error,failed⟩ := Slot.convert_bool whole
        rw [truth,failed] at converted
        cases converted
      · obtain ⟨s,hs,left⟩ := Slot.convert_whole whole truth
        cases hs.symm.trans converted
        rw [hz,ite_self] at left
        refine intConstant_of_whole left ?_
        rintro x rfl
        obtain ⟨ht,rfl|rfl⟩ := Slot.float_of_convert converted
        · exact hidden ⟨ht,x,rfl⟩
        · cases hn
    | _ => exact hn

end Expr

namespace Library.RangeFunction

/-- On both backends, calls with this step are refused if `seen`, and only then. -/
structure Refuses (f : RangeFunction) (step : Expr) (seen : Prop) : Prop where
  bytecode (start stop : TypedExpr) (type : SemanticType) (b : Builder) :
    Refused (f.bytecode [start,stop,⟨step,type⟩] b).1 ↔ seen
  generic (start stop : Deferred) (type : SemanticType) (factory : DeferredFactory) (context : CallContext) :
    Refused (f.generic factory context [start,stop,.leaf ⟨step,type⟩]) ↔ seen
  constant (slot : Slot) (h : step=.const slot) (start stop : Deferred) (factory : DeferredFactory)
    (context : CallContext) : Refused (f.generic factory context [start,stop,.constant slot]) ↔ seen

theorem refuses_of_iff (f : RangeFunction) {step : Expr} {seen : Prop} (h : step.intConstant?=some 0 ↔ seen) :
    f.Refuses step seen where
  bytecode start stop type b := (f.bytecode_refused start stop ⟨step,type⟩ b).trans h
  generic start stop type factory context := (f.generic_refused start stop (.leaf ⟨step,type⟩) factory context).trans h
  constant slot hs start stop factory context := by
    subst hs
    exact (f.generic_refused start stop (.constant slot) factory context).trans h

/-- A literal step that computes zero is refused if it is looked at. Then it is still refused in another
representation, unless a bare float is put into a box. -/
theorem zero_refused_iff (f : RangeFunction) {σ : Type} {host : Host σ} {args : List Slot} {step : Expr}
    {slot zero : Slot} {s t : σ} (hs : step.constant?=some slot) (he : step.evaluate host args s=(.ok zero,t))
    (hz : zero.isZero) : f.Refuses step slot.isSeen ∧
      ∀ target step', step.coerce target=.ok step' → slot.isSeen →
        f.Refuses step' ¬(target=.boxed ∧ ∃ x, step=.const (.float64 x)) := by
  have converted : step.targets.foldlM Slot.convert slot=.ok zero := by
    rw [Expr.evaluate_constant hs] at he
    cases hc : step.targets.foldlM Slot.convert slot with
    | error error =>
      rw [hc] at he
      cases he
    | ok slot' =>
      rw [hc] at he
      cases he
      rfl
  have seen : step.intConstant?=some 0 ↔ slot.isSeen := by
    rw [step.intConstant?_eq,hs]
    exact Slot.intConstant_of_zero converted hz
  refine ⟨f.refuses_of_iff seen,fun target step' hc hl => f.refuses_of_iff ?_⟩
  exact Expr.intConstant_of_coerce hc (seen.mpr hl) (by decide +kernel)

/-- Zero as a float: bare it is refused. -/
theorem zero_refused_iff_float :
    let host := Instances.host fun _ _ _ => .ok (.int64 0)
    (Expr.float ⟨0⟩).constant?=some (.float64 ⟨0⟩) ∧
      (Expr.float ⟨0⟩).evaluate host [] .empty=(.ok (.float64 ⟨0⟩),.empty) ∧
      standardRange.Refuses (.float ⟨0⟩) (Slot.float64 ⟨0⟩).isSeen ∧
      ∀ target step', (Expr.float ⟨0⟩).coerce target=.ok step' → (Slot.float64 ⟨0⟩).isSeen →
        standardRange.Refuses step' ¬(target=.boxed ∧ ∃ x, Expr.float ⟨0⟩=.const (.float64 x)) := by
  intro host
  have evaluated : (Expr.float ⟨0⟩).evaluate host [] .empty=(.ok (.float64 ⟨0⟩),.empty) := by
    rw [Expr.float,Expr.evaluate_const]
    rfl
  exact ⟨rfl,evaluated,standardRange.zero_refused_iff rfl evaluated (by decide)⟩

/-- In a box it is not, and the step is still zero in every run. -/
theorem not_zero_refused :
    let zero : Expr := .const (.boxed (.float ⟨0⟩))
    (Expr.float ⟨0⟩).coerce .boxed=.ok zero ∧ (Slot.boxed (.float ⟨0⟩)).isZero ∧
      (∀ (σ : Type) (host : Host σ) (args : List Slot), zero.evaluate host args=pure (.boxed (.float ⟨0⟩))) ∧
      (∀ b, (standardRange.bytecode [.ofInt 1,.ofInt 5,⟨zero,.float⟩] b).1=
        .ok ⟨.invoke standardRange.stepped [.int 1,.int 5,.int 0],.list .int⟩) ∧
      ∀ factory context, standardRange.generic factory context [.int 1,.int 5,.leaf ⟨zero,.float⟩]=
        .ok (.call standardRange.stepped [.int 1,.int 5,.leaf ⟨zero,.float⟩]) := by
  intro zero
  have left : (⟨0⟩ : Binary64).toInt64=0 := (Binary64.toInt64_of_equals_zero (by decide)).2
  have folded : zero.coerce .int64=.ok (.int 0) := congrArg (fun n => Except.ok (Expr.int n)) left
  have passed : coerceAll [.int 1,.int 5,zero] [.int64,.int64,.int64]=.ok [.int 1,.int 5,.int 0] := by
    have kept (n : Int64) : (Expr.int n).coerce .int64=.ok (.int n) := rfl
    simp only [coerceAll,folded,kept]
    rfl
  have usual : Takes standardRange.stepped [.int64,.int64,.int64] := ⟨rfl,rfl⟩
  have called (b : Builder) : (Build.invoke standardRange.stepped [.int 1,.int 5,zero] b).1=
      .ok (.invoke standardRange.stepped [.int 1,.int 5,.int 0]) := usual.exists_invoke rfl passed b
  refine ⟨rfl,by decide,fun σ host args => Expr.evaluate_const _,fun b => ?_,fun factory context => rfl⟩
  exact Build.map_ok (called b) fun e => TypedExpr.mk e (.list .int)

end Library.RangeFunction

end CallLowering
