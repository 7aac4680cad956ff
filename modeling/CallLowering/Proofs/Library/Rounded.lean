import CallLowering.Proofs.Expr.Behind
import CallLowering.Proofs.Library.Conforming
import CallLowering.Proofs.Library.Settled

namespace CallLowering

variable {σ : Type} {host : Host σ} {args : List Slot}

theorem Host.RunsBuiltins.answer (hh : host.RunsBuiltins) {r : Routine} {b : Builtin} (h : r.builtin?=some b)
    (slots : List Slot) (s : σ) : host.call r slots s=(r.compute b slots,s) := by
  obtain ⟨-,hb,hne⟩ := Routine.of_builtin? h
  exact Host.call_of_builtin h (hh.runs r b hb hne slots s)

/-- Calling a built-in routine that needs no receiver is running it. -/
theorem Host.RunsBuiltins.call (hh : host.RunsBuiltins) {r : Routine} {b : Builtin} (h : r.builtin?=some b)
    (slots : List Slot) : Run.call host r slots=Run.lift (r.compute b slots) :=
  Run.call_eq_lift (hh.answer h slots)

namespace Library

/-- A function that rounds with the standard routines: what its native routine does to a float, and what its
other routine does to a value. -/
inductive Rounds : Rounding → (Binary64 → Binary64) → (Value → Except RoutineError Value) → Prop
  | ceiling {f : Rounding} (h : Rounding.ceiling RoutineTable.standard=.ok f) : Rounds f Binary64.ceil Value.ceil
  | floor {f : Rounding} (h : Rounding.floor RoutineTable.standard=.ok f) : Rounds f Binary64.floor Value.floor

variable {f : Rounding} {native : Binary64 → Binary64} {round : Value → Except RoutineError Value} {e e' : Expr}

namespace Rounds

theorem round_int (h : Rounds f native round) (n : Int64) : round (.int n)=.ok (.int n) := by
  cases h <;> rfl

theorem round_float (h : Rounds f native round) (x : Binary64) :
    round (.float x)=.ok (.int (native x).toInt64) := by
  cases h <;> rfl

theorem call_native (h : Rounds f native round) (hh : host.RunsBuiltins) (x : Binary64) :
    Run.call host f.rounder.native.routine [.float64 x]=pure (.float64 (native x)) := by
  cases h with
  | ceiling h =>
    cases h
    exact hh.call (b := .nativeCeil) rfl _
  | floor h =>
    cases h
    exact hh.call (b := .nativeFloor) rfl _

theorem call_dynamic (h : Rounds f native round) (hh : host.RunsBuiltins) (slot : Slot) :
    Run.call host f.rounder.dynamic.routine [slot]=Run.lift (do return .boxed (← round slot.toValue)) := by
  cases h with
  | ceiling h =>
    cases h
    exact hh.call (b := .ceil) rfl _
  | floor h =>
    cases h
    exact hh.call (b := .floor) rfl _

theorem takes (h : Rounds f native round) :
    Takes f.rounder.native [.float64] ∧ Takes f.rounder.dynamic [.boxed] := by
  cases h with
  | ceiling h =>
    cases h
    exact ⟨⟨rfl,rfl⟩,⟨rfl,rfl⟩⟩
  | floor h =>
    cases h
    exact ⟨⟨rfl,rfl⟩,⟨rfl,rfl⟩⟩

/-- An argument in a box, rounded by the routine for values. -/
theorem value_dynamic (h : Rounds f native round) (hh : host.RunsBuiltins) (hb : Expr.Boxed e e')
    (he : e.isClosed []) (hc : e.TakesCall) : (Expr.invoke f.rounder.dynamic [e']).value host args=
      (do Run.lift (round (← e.value host args))) := by
  have answer (v : Value) : (do return (← Run.lift (σ := σ) (do return Slot.boxed (← round v))).toValue)=
      Run.lift (round v) := by
    cases round v <;> rfl
  rw [← hb.value he,Expr.value,Expr.value,Expr.evaluate_call (hb.isClosed he) (hb.takesCall hc)]
  simp only [h.call_dynamic hh,bind_assoc,pure_bind,answer]

/-- A bare float, rounded natively and converted. -/
theorem value_native (h : Rounds f native round) (hh : host.RunsBuiltins) (he : e.isTyped (args.map Slot.rep) [])
    (hk : host.Keeps e.methods) (hc : e.TakesCall) (hr : e.rep=.float64) :
    (Expr.convert (.invoke f.rounder.native [e]) .int64).value host args=
      (do Run.lift (round (← e.value host args))) := by
  have closed : e.isClosed [] := Expr.isClosed_of_isTyped e he
  have called : (Expr.invoke f.rounder.native [e]).isClosed [] := by simpa [Expr.isClosed] using closed
  rw [Expr.value,Expr.value,Expr.evaluate_convert called,Expr.evaluate_call closed hc,bind_assoc,bind_assoc]
  simp only [bind_assoc,pure_bind]
  apply (Expr.evaluate_rep he hk).bind_congr
  intro slot hslot
  obtain ⟨x,rfl⟩ := Slot.exists_float64 (hslot.trans hr)
  have rounded := h.round_float x
  rw [h.call_native hh,Slot.toValue,rounded]
  rfl

/-- A bare integer. -/
theorem value_passed (h : Rounds f native round) (he : e.isTyped (args.map Slot.rep) [])
    (hk : host.Keeps e.methods) (hr : e.rep=.int64) :
    e.value host args=(do Run.lift (round (← e.value host args))) := by
  rw [Expr.value,bind_assoc]
  simp only [pure_bind]
  apply (Expr.evaluate_rep he hk).bind_congr
  intro slot hslot
  obtain ⟨n,rfl⟩ := Slot.exists_int64 (hslot.trans hr)
  rw [Slot.toValue,h.round_int]
  rfl

/-- Describing the call and materializing the description. -/
theorem described (h : Rounds f native round) (t : TypedExpr) (factory : DeferredFactory) (context : CallContext) :
    ∃ d r, f.generic factory context [.leaf t]=.ok d ∧ d.materialize=.ok r ∧ f.Way t.expr r.expr := by
  obtain ⟨-,dynamic⟩ := h.takes
  obtain ⟨d,r,e',described,materialized,boxed,expr⟩ := dynamic.described t factory
  exact ⟨d,r,described,materialized,expr ▸ .dynamic boxed⟩

/-- Whatever way is taken, the value is what the routine for values gives for the value of the argument. -/
theorem value_way (h : Rounds f native round) (hh : host.RunsBuiltins) {r : Expr} (way : f.Way e r)
    (he : e.isTyped (args.map Slot.rep) []) (hk : e.rep.isNativeNumeric → host.Keeps e.methods)
    (hc : e.TakesCall) : r.value host args=(do Run.lift (round (← e.value host args))) := by
  cases way with
  | passed hr => exact h.value_passed he (hk (by rw [hr]; rfl)) hr
  | native hr => exact h.value_native hh he (hk (by rw [hr]; rfl)) hc hr
  | dynamic hb => exact h.value_dynamic hh hb (Expr.isClosed_of_isTyped e he) hc

/-- All ways to round a well typed tree agree, whatever its representation, wherever its locals start and whether
or not native numbers are used. What is lowered, and what the description of the call is materialized to, has the
value that the routine for values gives for the value of the argument, or ends with the same fault. A native number
has to be what its routines are declared to answer with. -/
theorem ways_agree (h : Rounds f native round) (hh : host.RunsBuiltins) {t : TypedExpr}
    (he : t.expr.isTyped (args.map Slot.rep) [])
    (hk : t.expr.rep.isNativeNumeric → host.Keeps t.expr.methods) (hc : t.expr.TakesCall) (b : Builder)
    (factory : DeferredFactory) (context : CallContext) :
    ∃ r b' d r', f.bytecode [t] b=(.ok r,b') ∧
      f.generic factory context [.leaf t]=.ok d ∧ d.materialize=.ok r' ∧
      r.expr.value host args=(do Run.lift (round (← t.expr.value host args))) ∧
      r'.expr.value host args=(do Run.lift (round (← t.expr.value host args))) := by
  obtain ⟨native,dynamic⟩ := h.takes
  obtain ⟨r,way,lowered⟩ := f.exists_bytecode native dynamic t b
  obtain ⟨d,r',described,materialized,way'⟩ := h.described t factory context
  exact ⟨r,_,d,r',Prod.ext lowered rfl,described,materialized,h.value_way hh way he hk hc,
    h.value_way hh way' he hk hc⟩

/-- A float that may be taken out of a box, before it is rounded. -/
theorem ways_agree_unboxed :
    let host := Instances.host fun _ _ _ => .error (.missingReceiver "Host")
    let args : List Slot := [.float64 (.ofInt 3),.boxed .null]
    let t : TypedExpr := ⟨.select (.compare .lt (.arg 0 .float64) (.float (.ofInt 7)))
      (.unbox (.arg 1 .boxed) .float64) (.arg 0 .float64),.float⟩
    ∃ r b' d r', standardCeiling.bytecode [t] ⟨"ceiling",.default,[],5⟩=(.ok r,b') ∧
      standardCeiling.generic ⟨"ceiling",[]⟩ ⟨"ceiling",.default⟩ [.leaf t]=.ok d ∧ d.materialize=.ok r' ∧
      r.expr.value host args=(do Run.lift (← t.expr.value host args).ceil) ∧
      r'.expr.value host args=(do Run.lift (← t.expr.value host args).ceil) := by
  intro host args t
  have rounds : Rounds standardCeiling Binary64.ceil Value.ceil := .ceiling rfl
  have typed : t.expr.isTyped (args.map Slot.rep) [] := by decide
  have keeps : host.Keeps t.expr.methods := Instances.host_keeps _ (by decide)
  exact rounds.ways_agree (Instances.host_runsBuiltins _) typed (fun _ => keeps) (.of_codeSize (by decide)) ..

end Rounds

/-- A well typed argument whose ceiling is lowered to an expression that does not have its value. -/
structure Strays (host : Host σ) (args : List Slot) (builder : Builder) (t r : TypedExpr) (s : σ) : Prop where
  lowered : (standardCeiling.bytecode [t] builder).1=.ok r
  typed : t.expr.isTyped (args.map Slot.rep) []
  apart : r.expr.value host args s≠(do Run.lift (← t.expr.value host args).ceil) s

/-- A routine for each number. -/
def numbered (i : Nat) : Method := ⟨⟨"Host",toString i,[],.boxed,false,.foreign "numbered"⟩,false⟩

theorem numbered_injective {i j : Nat} (h : numbered i=numbered j) : i=j := by
  have names : (toString i).toList=(toString j).toList := congrArg (fun m : Method => m.routine.name.toList) h
  have digits : Nat.toDigits 10 i=Nat.toDigits 10 j := Nat.toList_repr.symm.trans (names.trans Nat.toList_repr)
  calc i
      _=Nat.ofDigitChars 10 (Nat.toDigits 10 i) 0 := Nat.ofDigitChars_ten_toDigits.symm
      _=Nat.ofDigitChars 10 (Nat.toDigits 10 j) 0 := by rw [digits]
      _=j := Nat.ofDigitChars_ten_toDigits

/-- Calls of the routines from this number on, in lists of two: one call, twice as many for each level. -/
def many : Nat → Nat → Expr
  | 0,i => .invoke (numbered i) []
  | d+1,i => .list [many d i,many d (i+2^d)]

section

variable (d i : Nat)

theorem methods_many : ∀ m∈(many d i).methods, ∃ j, m=numbered j := by
  induction d generalizing i with
  | zero => simp [many,Expr.methods,Expr.methodsOf]
  | succ d ih =>
    intro m hm
    simp only [many,Expr.methods,Expr.methodsOf,List.append_nil,List.mem_append] at hm
    obtain hm|hm := hm
    · exact ih i m hm
    · exact ih _ m hm

theorem constants_many : (many d i).constants=[] := by
  induction d generalizing i with
  | zero => rfl
  | succ d ih => simp [many,Expr.constants,Expr.constantsOf,ih]

theorem isTyped_many (params : List Rep) (inside : List (UInt16 × Rep)) : (many d i).isTyped params inside := by
  induction d generalizing i with
  | zero => rfl
  | succ d ih => simp [many,Expr.isTyped,ih]

/-- All that the host answers is put into lists. -/
theorem exists_meaning_many (hh : ∀ i, ∃ slot, Run.call host (numbered i).routine []=pure slot) (scope : Scope) :
    ∃ slot, (many d i).meaning host args scope=pure slot := by
  induction d generalizing i with
  | zero =>
    obtain ⟨slot,answered⟩ := hh i
    exact ⟨slot,by rw [many,Expr.meaning,Expr.meanings,pure_bind,answered]⟩
  | succ d ih =>
    obtain ⟨first,hfirst⟩ := ih i
    obtain ⟨second,hsecond⟩ := ih (i+2^d)
    refine ⟨.boxed (.list [first.toValue,second.toValue]),?_⟩
    simp only [many,Expr.meaning,Expr.meanings,hfirst,hsecond,pure_bind]
    rfl

/-- The pool of an emitter that has met the routines below this number. -/
def Pooled (s : Emitter) (i : Nat) : Prop := s.methods=((List.range i).map numbered).toArray

variable {d i}

theorem findIdx?_pooled {s : Emitter} (h : Pooled s i) {m : Method} (hm : ∀ j < i, numbered j≠m) :
    (s.methods.findIdx? fun c => c==m)=none := by
  rw [h,List.findIdx?_toArray,List.findIdx?_eq_none_iff]
  intro c hc
  obtain ⟨j,hj,rfl⟩ := List.mem_map.mp hc
  simpa using hm j (List.mem_range.mp hj)

/-- No other method is taken up once all numbers are used. -/
theorem pushInvoke_pooled {s : Emitter} (h : Pooled s i) (hi : 2^32 ≤ i) {m : Method}
    (hm : ∀ j < i, numbered j≠m) (count : UInt16) :
    s.pushInvoke m count=.error (.internal "method pool overflow") := by
  have size : s.methods.size=i := by rw [h]; simp
  have beyond : ¬s.methods.size < 0x100000000 := by omega
  rw [Emitter.pushInvoke,findIdx?_pooled h hm,Emitter.operand32,if_neg beyond]
  rfl

/-- There is room for the routines, as long as their numbers fit in thirty-two bits. -/
theorem emit_many {s : Emitter} (h : Pooled s i) (hi : i+2^d ≤ 2^32) :
    ∃ s', s.emit (many d i)=.ok s' ∧ Pooled s' (i+2^d) := by
  induction d generalizing s i with
  | zero =>
    have absent := findIdx?_pooled h (m := numbered i) fun j hj same =>
      absurd (numbered_injective same) (Nat.ne_of_lt hj)
    have size : s.methods.size=i := by rw [h]; simp
    have room : s.methods.size < 2^32 := by omega
    refine ⟨⟨s.code.push (.invoke (.ofNat s.methods.size) 0),s.constants,s.methods.push (numbered i),s.maxLocals⟩,
      ?_,?_⟩
    · rw [many,Emitter.emit,Emitter.emitAll]
      change s.pushInvoke (numbered i) 0=_
      rw [Emitter.pushInvoke,absent,Emitter.operand32_of_lt room]
      rfl
    · rw [Pooled,h,Nat.pow_zero,List.range_succ]
      simp
  | succ d ih =>
    have double : 2^(d+1)=2^d+2^d := by rw [Nat.pow_succ,Nat.mul_two]
    have positive : 0 < 2^d := Nat.two_pow_pos d
    obtain ⟨s₁,h₁,first⟩ := ih h (by omega)
    obtain ⟨s₂,h₂,second⟩ := ih first (by omega)
    refine ⟨s₂.push (.newList 2),?_,?_⟩
    · simp only [many,Emitter.emit,Emitter.emitAll,h₁,h₂]
      rfl
    · rw [double,←Nat.add_assoc]
      exact second

end

/-- A tree that has as many methods as there are numbers for them leaves no room for another one. -/
theorem strays_many {d : Nat} (hd : 2^d=2^32) (s : Instances) :
    let host := Instances.host fun _ _ _ => .ok (.boxed .null)
    let t : TypedExpr := ⟨.bind 0 (many d 0) (.arg 0 .boxed),.unknown⟩
    Strays host [.boxed (.int 7)] ⟨"ceiling",.default,[],0⟩ t
      ⟨.invoke standardCeiling.rounder.dynamic [t.expr],.int⟩ s ∧ host.Keeps t.expr.methods := by
  intro host t
  have typed : t.expr.isTyped [.boxed] [] := by
    simp only [t,Expr.isTyped,Bool.and_eq_true,isTyped_many]
    decide
  have answered (i : Nat) : ∃ slot, Run.call host (numbered i).routine []=pure slot := ⟨.boxed .null,rfl⟩
  obtain ⟨slot,meant⟩ : ∃ slot, (many d 0).meaning host [.boxed (.int 7)] Scope.empty=pure slot :=
    exists_meaning_many d 0 answered Scope.empty
  obtain ⟨s₁,h₁,pooled⟩ := emit_many (d := d) (i := 0) (s := .empty) rfl (by omega)
  rw [Nat.zero_add,hd] at pooled
  let s₂ : Emitter := (s₁.pushStore 0).push (.loadArg 0)
  have emitted : Emitter.empty.emit t.expr=.ok s₂ := by
    rw [Emitter.emit,h₁]
    rfl
  have value : t.expr.value host [.boxed (.int 7)]=pure (.int 7) := by
    have whole : t.expr.emit=.ok ⟨s₂.code,s₂.constants,s₂.methods,s₂.maxLocals,.boxed⟩ := by
      rw [Expr.emit,emitted]
      rfl
    have none : t.expr.constants=[] := by simp [t,Expr.constants,constants_many]
    rw [Expr.value,Expr.evaluate_closed whole (Expr.isClosed_of_isTyped _ typed),
      Expr.mapConstants_eq_self _ (by simp [none])]
    simp only [t,Expr.meaning,meant,pure_bind]
    rfl
  have full : (Expr.invoke standardCeiling.rounder.dynamic [t.expr]).emit=
      .error (.internal "method pool overflow") := by
    have other (j : Nat) : numbered j≠standardCeiling.rounder.dynamic := fun same =>
      absurd (congrArg (fun m : Method => m.routine.owner) same) (show "Host"≠basicOwner by decide)
    have kept : Pooled s₂ (2^32) := pooled
    apply Expr.emit_error
    rw [Emitter.emit,Emitter.emitAll,emitted]
    exact pushInvoke_pooled kept (Nat.le_refl _) (fun j _ => other j) 1
  refine ⟨⟨rfl,typed,?_⟩,?_⟩
  · rw [value,Expr.value,Expr.evaluate_refused full]
    intro same
    cases same
  · intro m hm slots _ s slot u answered
    obtain ⟨j,rfl⟩ := methods_many d 0 m (by simpa [t,Expr.methods] using hm)
    cases answered
    rfl

/-- Neither condition can be left out. What is declared to be an integer is passed on, even if the routine answers with
a float; and a tree with a method for each number of a method cannot be rounded by a call. -/
theorem Rounds.not_ways_agree :
    (let host := Instances.host fun _ _ slots => .ok (slots.headD (.boxed .undefined))
      let count : Method := ⟨⟨"Host","count",[.float64],.int64,false,.foreign "first"⟩,false⟩
      let t : TypedExpr := ⟨.invoke count [.arg 0 .float64],.int⟩
      Strays host [.float64 ⟨0x4004000000000000⟩] ⟨"ceiling",.default,[],0⟩ t t .empty ∧ t.expr.TakesCall) ∧
    (let host := Instances.host fun _ _ _ => .ok (.boxed .null)
      let t : TypedExpr := ⟨.bind 0 (many 32 0) (.arg 0 .boxed),.unknown⟩
      Strays host [.boxed (.int 7)] ⟨"ceiling",.default,[],0⟩ t
        ⟨.invoke standardCeiling.rounder.dynamic [t.expr],.int⟩ .empty ∧ host.Keeps t.expr.methods) := by
  refine ⟨?_,@strays_many 32 rfl .empty⟩
  intro host count t
  have passed : t.expr.value host [.float64 ⟨0x4004000000000000⟩] .empty=
      (.ok (.float ⟨0x4004000000000000⟩),.empty) := by cbv
  refine ⟨⟨rfl,by decide,?_⟩,.of_codeSize (by decide)⟩
  rw [Failure.bind_apply,passed]
  intro same
  cases same

end Library

end CallLowering
