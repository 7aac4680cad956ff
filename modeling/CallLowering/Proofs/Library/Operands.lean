import CallLowering.Proofs.Library.Forms
import CallLowering.Proofs.Machine.Calls
import CallLowering.Proofs.Machine.Frame
import Mathlib

namespace CallLowering

open CallLowering.Expr

variable {σ : Type} {host : Host σ} {args : List Slot} {scope : Scope} {slot slot' : Slot}
  {s t u : σ × List Invocation}

/-- The bodies of methods that may be called again leave the state of the host alone. -/
def Host.Quiet (host : Host σ) (ms : List Method) : Prop :=
  ∀ m∈ms, m.cheap → ∀ slots s, (host.enter m.routine slots s).2=s

namespace Expr

/-- What the calls of a tree leave alone, its meaning leaves alone. -/
theorem recorded_leaves {τ : Type} {part : σ × List Invocation → τ} {e : Expr}
    (h : ∀ m∈e.methods, ∀ slots s, part (host.recording.enter m.marked.routine slots s).2=part s)
    (scope : Scope) : Run.Leaves part (e.recorded host args scope) := by
  apply meaning_leaves
  rw [marked,methods_mapMethods]
  intro m hm slots
  obtain ⟨m,hm,rfl⟩ := List.mem_map.mp hm
  exact .call (h m ‹_› slots)

/-- Nothing is recorded of a tree that only calls methods that may be called again. -/
theorem record_of_cheap {e : Expr} (h : ∀ m∈e.methods, m.cheap)
    (he : e.recorded host args scope s=(.ok slot,t)) : t.2=s.2 := by
  have left : Run.Leaves Prod.snd (e.recorded host args scope) := by
    apply recorded_leaves
    rintro m hm slots ⟨s,log⟩
    rw [Host.enter_recording,Method.record,if_pos (h m hm),List.append_nil]
  exact left.result he

/-- Nothing changes either, if their bodies leave the host alone. -/
theorem state_of_cheap {e : Expr} (h : ∀ m∈e.methods, m.cheap) (hq : host.Quiet e.methods)
    (he : e.recorded host args scope s=(.ok slot,t)) : t=s := by
  have left : Run.Leaves id (e.recorded host args scope) := by
    apply recorded_leaves
    rintro m hm slots ⟨s,log⟩
    rw [Host.enter_recording,Method.record,if_pos (h m hm),List.append_nil,hq m hm (h m hm)]
  exact left.result he

namespace Coerced

/-- An operand in another representation ends where the operand itself does. -/
theorem state_eq {target : Rep} {e e' : Expr} (h : Coerced target e e')
    (he : e.recorded host args scope s=(.ok slot,t))
    (he' : e'.recorded host args scope s=(.ok slot',u)) : u=t := by
  cases h with
  | same hr =>
    rw [he] at he'
    cases he'
    rfl
  | folded hc =>
    cases he
    cases he'
    rfl
  | boxed hb =>
    rw [recorded_box] at he'
    exact Run.Leaves.state_eq he he' (.pure _)
  | unboxed =>
    rw [recorded_unbox] at he'
    exact Run.Leaves.state_eq he he' (.lift _)
  | converted =>
    rw [recorded_convert] at he'
    exact Run.Leaves.state_eq he he' (.lift _)

end Coerced

theorem AllCoerced.state_eq {params : List Rep} {es es' : List Expr} (h : AllCoerced params es es')
    {slots slots' : List Slot} (hes : recordedAll host args scope es s=(.ok slots,t))
    (hes' : recordedAll host args scope es' s=(.ok slots',u)) : u=t := by
  induction h generalizing s slots slots' with
  | nil =>
    cases hes
    cases hes'
    rfl
  | @cons e e' es es' hc _ ih =>
    obtain ⟨p,-,hc⟩ := hc
    rw [recordedAll_cons] at hes hes'
    obtain ⟨_,v,first,rest⟩ := Failure.bind_state_ok hes
    obtain ⟨_,v',first',rest'⟩ := Failure.bind_state_ok hes'
    obtain rfl : v'=v := hc.state_eq first first'
    obtain ⟨_,_,others,done⟩ := Failure.bind_state_ok rest
    obtain ⟨_,_,others',done'⟩ := Failure.bind_state_ok rest'
    cases done
    cases done'
    exact ih others others'

/-- A call adds itself to what the operands have added. -/
theorem AllCoerced.recorded_call {m : Method} {params : List Rep} {es es' : List Expr}
    (h : AllCoerced params es es') {slots : List Slot}
    (hes : recordedAll host args scope es s=(.ok slots,t))
    (he : (invoke m es').recorded host args scope s=(.ok slot,u)) : ∃ slots, u.2=t.2++m.record slots := by
  rw [recorded_invoke] at he
  obtain ⟨slots',v,operands,answered⟩ := Failure.bind_state_ok he
  obtain rfl : v=t := h.state_eq hes operands
  exact ⟨slots',Run.call_recorded answered⟩

theorem recorded_of_single {e : Expr} {slots : List Slot}
    (h : recordedAll host args scope [e] s=(.ok slots,t)) : ∃ slot, e.recorded host args scope s=(.ok slot,t) := by
  rw [recordedAll_cons] at h
  obtain ⟨slot,_,first,rest⟩ := Failure.bind_state_ok h
  obtain ⟨_,_,nothing,done⟩ := Failure.bind_state_ok rest
  cases nothing
  cases done
  exact ⟨slot,first⟩

end Expr

namespace Build.Kept

variable {e body : Expr} {low high : Nat} {c : Cached}

/-- What is kept is computed before the body, if it is not as well computed in the body. -/
theorem recorded_body (h : Kept e low high c) (hq : host.Quiet e.methods)
    (he : e.recorded host args scope s=(.ok slot,t))
    (hbody : (c.finish body).recorded host args scope s=(.ok slot',u)) :
    ∃ scope', body.recorded host args scope' t=(.ok slot',u) := by
  cases h with
  | inlined hc hle =>
    obtain rfl : t=s := state_of_cheap (cheap_of_isCheap e hc) hq he
    exact ⟨scope,hbody⟩
  | @bound index hl hh hi =>
    rw [Cached.finish,recorded_bind] at hbody
    obtain ⟨kept,v,first,rest⟩ := Failure.bind_state_ok hbody
    rw [he] at first
    cases first
    exact ⟨_,rest⟩

theorem cheap_reference (h : Kept e low high c) : ∀ m∈c.reference.methods, m.cheap := by
  cases h with
  | inlined hc hle => exact cheap_of_isCheap e hc
  | bound hl hh hi => simp [Cached.reference,methods]

end Build.Kept

namespace Library

theorem Extremum.cheap_select {f : Extremum} {first second : Expr} {rep : Rep}
    (h : ∀ m∈first.methods, m.cheap) (h' : ∀ m∈second.methods, m.cheap) :
    ∀ m∈(f.select first second rep).methods, m.cheap := by
  intro m hm
  have either : m∈first.methods ∨ m∈second.methods := by
    rw [select] at hm
    split at hm <;> simp only [methods,List.mem_append] at hm <;> tauto
  exact either.elim (h m) (h' m)

/-- The record of a lowered call: what its operands have added, and at most one call of a routine of the
function. -/
theorem Form.recorded {low : Nat} {f : Function} {es : List Expr} {e : Expr} (h : Form low f es e)
    (hf : f.WellFormed) (hc : ∀ e∈es, e.isClosed []) (hq : ∀ e∈es, host.Quiet e.methods) {slots : List Slot}
    (hes : recordedAll host args Scope.empty es s=(.ok slots,t))
    (he : e.recorded host args Scope.empty s=(.ok slot,u)) :
    ∃ own : List Invocation, own.length ≤ 1 ∧ (∀ call∈own, call.1∈f.own) ∧ u.2=t.2++own := by
  have nothing (h : u.2=t.2) :
      ∃ own : List Invocation, own.length ≤ 1 ∧ (∀ call∈own, call.1∈f.own) ∧ u.2=t.2++own :=
    ⟨[],by simp,by simp,by rw [h,List.append_nil]⟩
  cases h with
  | passed hr =>
    obtain ⟨_,operand⟩ := recorded_of_single hes
    rw [operand] at he
    cases he
    exact nothing rfl
  | @rounded f e e' hcoerced =>
    obtain ⟨-,cheap,-⟩ := hf
    have coerced : AllCoerced [.float64] [e] [e'] := .cons ⟨_,List.mem_cons_self,hcoerced⟩ .nil
    rw [recorded_convert] at he
    obtain ⟨_,v,called,converted⟩ := Failure.bind_state_ok he
    obtain ⟨-,rfl⟩ := Run.lift_ok converted
    obtain ⟨slots',added⟩ := coerced.recorded_call hes called
    rw [Method.record,if_pos cheap,List.append_nil] at added
    exact nothing added
  | @called f m es es' hm hcoerced =>
    obtain ⟨slots',added⟩ := hcoerced.recorded_call hes he
    refine ⟨m.record slots',?_,?_,added⟩
    · rw [Method.record]
      split <;> simp
    · rw [Method.record]
      split <;> simp [hm]
  | tested =>
    obtain ⟨_,operand⟩ := recorded_of_single hes
    rw [recorded_isNull] at he
    exact nothing (congrArg Prod.snd (Run.Leaves.state_eq operand he (.pure _)))
  | testedNot =>
    obtain ⟨_,operand⟩ := recorded_of_single hes
    rw [recorded_not,recorded_isNull] at he
    obtain ⟨_,v,test,negated⟩ := Failure.bind_state_ok he
    obtain rfl : v=t := Run.Leaves.state_eq operand test (.pure _)
    obtain ⟨_,w,truth,done⟩ := Failure.bind_state_ok negated
    obtain ⟨-,rfl⟩ := Run.lift_ok truth
    cases done
    exact nothing rfl
  | kept hkept b =>
    obtain ⟨_,operand⟩ := recorded_of_single hes
    obtain ⟨_,answer⟩ := hkept.recorded_body (hq _ List.mem_cons_self) operand he
    cases answer
    exact nothing rfl
  | @chosen f first second c c' mid high rep h h' hr hr' hn =>
    rw [recordedAll_cons] at hes
    obtain ⟨_,v,operand,rest⟩ := Failure.bind_state_ok hes
    obtain ⟨_,_,others,done⟩ := Failure.bind_state_ok rest
    cases done
    obtain ⟨_,operand'⟩ := recorded_of_single others
    obtain ⟨scope,he⟩ := h.recorded_body (hq first (by simp)) operand he
    -- the second operand reads no local of the first
    rw [recorded_congr (hc second (by simp)) (by simp)] at operand'
    obtain ⟨scope',he⟩ := h'.recorded_body (hq second (by simp)) operand' he
    exact nothing (record_of_cheap (Extremum.cheap_select h.cheap_reference h'.cheap_reference) he)

namespace Function

variable {table : RoutineTable} {f : Function} {es : List TypedExpr} {t : TypedExpr} {b b' : Builder}

/-- To evaluate what a call was lowered to makes the calls of its operands, evaluated one after the other, and
then at most one call of a routine of the function. -/
def CallsInTurn (f : Function) (host : Host σ) (args : List Slot) (es : List TypedExpr) (t : TypedExpr)
    (s : σ) : Prop :=
  ∃ own : List Invocation, own.length ≤ 1 ∧ (∀ call∈own, call.1∈f.own) ∧
    t.expr.calls host args s=callsEach host args (es.map TypedExpr.expr) s++own

/-- Where no constant takes the place of another, and methods that may be called again leave the host alone, the
operands of a lowered call are evaluated once each, from left to right. -/
theorem calls_inTurn (hf : f.Resolved table) (h : f.bytecode es b=(.ok t,b'))
    (hc : ∀ e∈es, e.expr.isClosed []) (hb : ∀ e∈es, ∀ i∈e.expr.bound, i.toNat < b.nextLocal.toNat)
    (hk : Slot.Distinct (constantsOf (es.map TypedExpr.expr))) (hk' : Slot.Distinct t.expr.constants)
    (hq : ∀ e∈es, host.Quiet e.expr.methods) {s s' s'' : σ} {slots : List Slot}
    (hes : evaluateEach host args (es.map TypedExpr.expr) s=(.ok slots,s'))
    (he : t.expr.evaluate host args s=(.ok slot,s'')) : f.CallsInTurn host args es t s := by
  obtain ⟨form,-⟩ := shaped hf.wellFormed h
  have closed : ∀ e∈es.map TypedExpr.expr, e.isClosed [] := by simpa using hc
  have own : ∀ e∈es.map TypedExpr.expr, Slot.Distinct e.constants :=
    fun e he => hk.mono fun k hm => mem_constantsOf.mpr ⟨e,he,hm⟩
  have operands := evaluateEach_recorded closed own hes []
  have result := evaluate_recorded (form.isClosed closed (by simpa using hb)) hk' he []
  obtain ⟨own,count,routines,record⟩ :=
    form.recorded hf.wellFormed closed (by simpa using hq) operands result
  exact ⟨own,count,routines,record⟩

/-- The larger of a drawn number and of the size of a value, which may be asked for again. -/
theorem calls_inTurn_drawnOnce :
    let host := Instances.host fun _ _ _ => .ok (.int64 3)
    let args : List Slot := [.boxed .null]
    let draw : Method := ⟨randomIntRoutine,false⟩
    let size : Method := ⟨⟨"Host","size",[.boxed],.int64,false,.foreign "size"⟩,true⟩
    let drawn : Expr := .invoke draw [.int 10]
    let sized : Expr := .invoke size [.arg 0 .boxed]
    let es : List TypedExpr := [⟨drawn,.int⟩,⟨sized,.int⟩]
    let f : Function := .extremum standardMax
    let larger : TypedExpr := ⟨.bind 0 drawn (.select (.compare .gt sized (.readLocal 0 .int64)) sized
      (.readLocal 0 .int64)),.int⟩
    let s : Instances := .standard (.listed [7]) 1
    f.bytecode es ⟨"max",.default,[],0⟩=(.ok larger,⟨"max",.default,[],1⟩) ∧
      f.CallsInTurn host args es larger s ∧ larger.expr.calls host args s=[(draw,[.int64 10])] := by
  intro host args draw size drawn sized es f larger s
  have resolved : f.Resolved RoutineTable.standard := .max rfl
  have lowered : f.bytecode es ⟨"max",.default,[],0⟩=(.ok larger,⟨"max",.default,[],1⟩) := rfl
  have closed : ∀ e∈es, e.expr.isClosed [] := by decide
  have below : ∀ e∈es, ∀ i∈e.expr.bound, i.toNat < (0 : UInt16).toNat := by
    simp [es,drawn,sized,bound,boundIn,int]
  have distinct : Slot.Distinct [.int64 10] := by simp [Slot.Distinct]
  have quiet : ∀ e∈es, host.Quiet e.expr.methods := by
    simp [es,Host.Quiet,drawn,sized,methods,methodsOf,draw,size,host,Instances.host,int]
  obtain ⟨slots,s',operands⟩ : ∃ slots s', evaluateEach host args (es.map TypedExpr.expr) s=
      (.ok slots,s') := ⟨_,_,by cbv⟩
  obtain ⟨slot,s'',result⟩ : ∃ slot s'', larger.expr.evaluate host args s=(.ok slot,s'') :=
    ⟨_,_,by cbv⟩
  exact ⟨lowered,calls_inTurn resolved lowered closed below distinct distinct quiet operands result,by cbv⟩

/-- A constant that is converted for the call can take the place of an equal one in another operand, and where a
cheap operand is repeated, its calls can find the host in another state. In both cases the calls of the operands
get other arguments. -/
theorem not_callsInTurn :
    (let host := Instances.host fun _ _ slots => .ok (.boxed (.list (slots.map Slot.toValue)))
      let larger : Routine := ⟨basicOwner,"max",[.boxed,.boxed],.boxed,false,.foreign "pair"⟩
      let wrap : Method := ⟨⟨"Host","wrap",[.boxed],.boxed,false,.foreign "wrap"⟩,false⟩
      let wrapped : Expr := .invoke wrap [.const (.boxed (.float ⟨0x8000000000000000⟩))]
      let es : List TypedExpr := [⟨.float ⟨0⟩,.number⟩,⟨wrapped,.number⟩]
      let f : Function := .extremum ⟨"max",.gt,⟨larger,false⟩⟩
      let t : TypedExpr := ⟨.invoke ⟨larger,false⟩ [.const (.boxed (.float ⟨0⟩)),wrapped],.number⟩
      f.Resolved (.ofList [larger]) ∧ f.bytecode es ⟨"max",.default,[],0⟩=(.ok t,⟨"max",.default,[],0⟩) ∧
        (∀ e∈es, e.expr.isTyped [] [] ∧ e.expr.bound=[]) ∧ Slot.Distinct (constantsOf (es.map TypedExpr.expr)) ∧
        (∃ slots s, evaluateEach host [] (es.map TypedExpr.expr) .empty=(.ok slots,s)) ∧
        (∃ slot s, t.expr.evaluate host [] .empty=(.ok slot,s)) ∧ ¬f.CallsInTurn host [] es t .empty) ∧
    (let count : Method := ⟨⟨"Host","count",[],.int64,true,.foreign "count"⟩,true⟩
      let next : Method := ⟨⟨"Host","next",[.int64],.int64,true,.foreign "next"⟩,false⟩
      let es : List TypedExpr := [⟨.invoke count [],.int⟩,⟨.invoke next [.invoke count []],.int⟩]
      let f : Function := .extremum standardMax
      let t : TypedExpr := ⟨.bind 0 (.invoke next [.invoke count []])
        (.select (.compare .gt (.readLocal 0 .int64) (.invoke count [])) (.readLocal 0 .int64)
          (.invoke count [])),.int⟩
      f.Resolved .standard ∧ f.bytecode es ⟨"max",.default,[],0⟩=(.ok t,⟨"max",.default,[],1⟩) ∧
        (∀ e∈es, e.expr.isTyped [] [] ∧ e.expr.bound=[]) ∧ Slot.Distinct (constantsOf (es.map TypedExpr.expr)) ∧
        (∃ slots s, evaluateEach countingHost [] (es.map TypedExpr.expr) []=(.ok slots,s)) ∧
        (∃ slot s, t.expr.evaluate countingHost [] []=(.ok slot,s)) ∧
        ¬f.CallsInTurn countingHost [] es t []) := by
  constructor
  · intro host larger wrap wrapped es f t
    refine ⟨.max rfl,rfl,?_,?_,⟨_,_,by cbv⟩,⟨_,_,by cbv⟩,?_⟩
    · decide
    · simp [Slot.Distinct,es,wrapped,constantsOf,constants,float,Slot.equals]
    · rintro ⟨own,-,-,h⟩
      have ran : t.expr.calls host [] .empty=[(wrap,[.boxed (.float ⟨0⟩)]),
        (⟨larger,false⟩,[.boxed (.float ⟨0⟩),.boxed (.list [.float ⟨0⟩])])] := by cbv
      have alone : callsEach host [] (es.map TypedExpr.expr) .empty=
        [(wrap,[.boxed (.float ⟨0x8000000000000000⟩)])] := by cbv
      rw [ran,alone] at h
      simp at h
  · intro count next es f t
    refine ⟨.max rfl,rfl,?_,?_,⟨_,_,by cbv⟩,⟨_,_,by cbv⟩,?_⟩
    · decide
    · simp [Slot.Distinct,es,constantsOf,constants]
    · rintro ⟨own,-,-,h⟩
      have ran : t.expr.calls countingHost [] []=[(next,[.int64 0])] := by cbv
      have alone : callsEach countingHost [] (es.map TypedExpr.expr) []=[(next,[.int64 1])] := by cbv
      rw [ran,alone] at h
      simp at h

end Function

end Library

end CallLowering
