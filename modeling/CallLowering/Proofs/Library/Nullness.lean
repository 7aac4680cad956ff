import CallLowering.Proofs.Library.Rounded

namespace CallLowering.Library

/-- A test for null with the standard routine. -/
inductive ChecksNull : NullCheck → Prop
  | isNull {f : NullCheck} (h : NullCheck.isNull RoutineTable.standard=.ok f) : ChecksNull f
  | isNonnull {f : NullCheck} (h : NullCheck.isNonnull RoutineTable.standard=.ok f) : ChecksNull f

namespace NullCheck

open CallLowering.Expr

variable {σ : Type} {host : Host σ} {args : List Slot} {f : NullCheck} {e e' : Expr}

/-- What is asked of the operand. -/
def answer (f : NullCheck) (host : Host σ) (args : List Slot) (e : Expr) : Run σ Slot := do
  return .bool (f.negated ^^ (← e.value host args).isNullish)

theorem answer_eq (f : NullCheck) (e : Expr) : f.answer host args e=(do
    return .bool (f.negated ^^ (← e.evaluate host args).isNullish)) := by
  simp only [answer,value,bind_assoc,pure_bind,Slot.isNullish_toValue]

theorem evaluate_tested (f : NullCheck) (he : e.isClosed []) :
    (if f.negated then .not (.isNull e) else .isNull e : Expr).evaluate host args=f.answer host args e := by
  rw [answer_eq]
  cases f.negated with
  | false => simp only [Bool.false_eq_true,if_false,evaluate_isNull he,Bool.false_xor]
  | true =>
    have inner : (Expr.isNull e).isClosed [] := he
    have negated (b : Bool) : (Run.lift (Slot.bool b).toBool : Run σ Bool)=pure b := rfl
    simp only [if_true,evaluate_not inner,evaluate_isNull he,bind_assoc,pure_bind,negated,Bool.true_xor]

/-- A bare operand is never null, so its answer is known once it has been computed. -/
theorem answer_bare (f : NullCheck) (he : e.isTyped (args.map Slot.rep) []) (hk : host.Keeps e.methods)
    (hr : e.rep≠.boxed) : f.answer host args e=(do
      let _ ← e.evaluate host args
      return .bool f.negated) := by
  rw [answer_eq]
  apply (evaluate_rep he hk).bind_congr
  intro slot hslot
  have bare : slot.rep≠.boxed := by rwa [hslot]
  rw [Slot.isNullish_toValue,Slot.not_isNullish bare,Bool.xor_false]

/-- An operand that is dropped is missed just where it does not end well or changes the host. -/
theorem answer_dropped (f : NullCheck) (he : e.isTyped (args.map Slot.rep) []) (hk : host.Keeps e.methods)
    (hr : e.rep≠.boxed) (s : σ) : (.ok (.bool f.negated),s)=f.answer host args e s ↔
      ∃ slot, e.evaluate host args s=(.ok slot,s) := by
  rw [f.answer_bare he hk hr,Failure.bind_apply]
  rcases e.evaluate host args s with ⟨fault|slot,t⟩
  · constructor
    · intro h
      cases h
    · rintro ⟨slot,h⟩
      cases h
  · constructor
    · intro h
      cases h
      exact ⟨slot,rfl⟩
    · rintro ⟨slot,h⟩
      cases h
      rfl

end NullCheck

namespace ChecksNull

open CallLowering.Expr

variable {σ : Type} {host : Host σ} {args : List Slot} {f : NullCheck}

theorem takes (h : ChecksNull f) : Takes f.routine [.boxed] := by
  cases h with
  | isNull h =>
    cases h
    exact ⟨rfl,rfl⟩
  | isNonnull h =>
    cases h
    exact ⟨rfl,rfl⟩

theorem call (h : ChecksNull f) (hh : host.RunsBuiltins) (slot : Slot) :
    Run.call host f.routine.routine [slot]=pure (.bool slot.toValue.isNullish) := by
  cases h with
  | isNull h =>
    cases h
    exact hh.call (b := .isNull) rfl _
  | isNonnull h =>
    cases h
    exact hh.call (b := .isNull) rfl _

/-- Only the test that is not negated can be described. -/
theorem generic (h : ChecksNull f) {g : GenericLowering} (hg : f.capabilities.generic=some g) :
    f.negated=false ∧ g=f.generic := by
  cases h with
  | isNull h =>
    cases h
    cases hg
    exact ⟨rfl,rfl⟩
  | isNonnull h =>
    cases h
    cases hg

/-- Describing the call and materializing the description. -/
theorem described (h : ChecksNull f) (hh : host.RunsBuiltins) {t : TypedExpr} (he : t.expr.isClosed [])
    (hc : t.expr.TakesCall) (factory : DeferredFactory) (context : CallContext) {g : GenericLowering}
    (hg : f.capabilities.generic=some g) :
    ∃ d r, g factory context [.leaf t]=.ok d ∧ d.materialize=.ok r ∧
      r.expr.evaluate host args=f.answer host args t.expr := by
  obtain ⟨plain,rfl⟩ := h.generic hg
  obtain ⟨d,r,e',described,materialized,boxed,expr⟩ := h.takes.described t factory
  refine ⟨d,r,described,materialized,?_⟩
  have value : e'.value host args=t.expr.value host args := boxed.value he
  rw [expr,evaluate_call (boxed.isClosed he) (boxed.takesCall hc),NullCheck.answer,plain,←value,Expr.value]
  simp only [h.call hh,bind_assoc,pure_bind,Bool.false_xor]

/-- Wherever the locals start, a test for null gives its answer for every operand that is well typed, with the same
fault where there is one, and so does the description of the call. Only for a bare operand that is cheap it is
enough to know that it is not null: there the answer is missed in each state in which the operand does not end well
or changes the state. -/
theorem lowered_answers (h : ChecksNull f) (hh : host.RunsBuiltins) {t : TypedExpr}
    (he : t.expr.isTyped (args.map Slot.rep) []) (hk : t.rep≠.boxed → host.Keeps t.expr.methods)
    (hc : t.expr.TakesCall) (hc' : t.expr.TakesConst) {b : Builder} (hb : b.nextLocal.toNat ≤ 65534)
    (factory : DeferredFactory) (context : CallContext) :
    ∃ r b', f.bytecode [t] b=(.ok r,b') ∧
      (t.rep=.boxed ∨ ¬t.expr.isCheap → r.expr.evaluate host args=f.answer host args t.expr) ∧
      (t.rep≠.boxed → t.expr.isCheap → r.expr.evaluate host args=pure (.bool f.negated) ∧
        ∀ s, r.expr.evaluate host args s=f.answer host args t.expr s ↔
          ∃ slot, t.expr.evaluate host args s=(.ok slot,s)) ∧
      ∀ g, f.capabilities.generic=some g → ∃ d r', g factory context [.leaf t]=.ok d ∧ d.materialize=.ok r' ∧
        r'.expr.evaluate host args=f.answer host args t.expr := by
  have closed : t.expr.isClosed [] := isClosed_of_isTyped t.expr he
  obtain ⟨r,way,lowered⟩ := f.exists_bytecode t hb
  refine ⟨r,_,Prod.ext lowered rfl,?_,?_,fun g hg => h.described hh closed hc factory context hg⟩
  · intro kept
    generalize r.expr=d at way
    cases way with
    | tested hr => exact f.evaluate_tested closed
    | dropped hr cheap => exact (kept.elim hr fun hn => hn cheap).elim
    | computed hr dear hi => rw [evaluate_bind_bool closed hc' hi,f.answer_bare he (hk hr) hr]
  · intro bare cheap
    have dropped : r.expr=.bool f.negated := by
      generalize r.expr=d at way
      cases way with
      | tested hr => exact absurd hr bare
      | dropped hr _ => rfl
      | computed hr dear hi => exact absurd cheap dear
    have known : r.expr.evaluate host args=pure (.bool f.negated) := by
      rw [dropped]
      exact evaluate_const _
    refine ⟨known,fun s => ?_⟩
    rw [known]
    exact f.answer_dropped he (hk bare) bare s

/-- A number that is drawn before it is known not to be null. -/
theorem lowered_answers_drawnChoice :
    let host := Instances.host fun _ _ _ => .error (.missingReceiver "Host")
    let args : List Slot := [.boxed (.bool true),.float64 (.ofInt 3)]
    let f := standardNullCheck "isNull" false
    let t : TypedExpr := ⟨drawnChoice,.int⟩
    ∃ r b', f.bytecode [t] ⟨"isNull",.default,[],65534⟩=(.ok r,b') ∧
      r.expr.evaluate host args=f.answer host args t.expr ∧
      ∃ d r', f.generic ⟨"isNull",[]⟩ ⟨"isNull",.default⟩ [.leaf t]=.ok d ∧ d.materialize=.ok r' ∧
        r'.expr.evaluate host args=f.answer host args t.expr := by
  intro host args f t
  have checks : ChecksNull f := .isNull rfl
  have typed : t.expr.isTyped (args.map Slot.rep) [] := by decide
  have keeps : host.Keeps t.expr.methods := Instances.host_keeps _ (by decide)
  have small : t.expr.codeSize < 2^32 := by decide
  have last : (65534 : UInt16).toNat ≤ 65534 := by decide
  have dear : ¬t.expr.isCheap := by decide
  obtain ⟨r,b',lowered,answered,-,described⟩ := lowered_answers checks (Instances.host_runsBuiltins _) typed
    (fun _ => keeps) (.of_codeSize small) (.of_codeSize small) (b := ⟨"isNull",.default,[],65534⟩) last ⟨"isNull",[]⟩
    ⟨"isNull",.default⟩
  exact ⟨r,b',lowered,answered (.inr dear),described _ rfl⟩

/-- An integer that is to be taken out of the box of its argument. For null this fails, and so does the description
of the test, but the lowered test does not look. -/
theorem not_lowered_answers :
    let host := Instances.host fun _ _ _ => .error (.missingReceiver "Host")
    let args : List Slot := [.boxed .null]
    let f := standardNullCheck "isNull" false
    let t : TypedExpr := ⟨.unbox (.arg 0 .boxed) .int64,.int⟩
    ChecksNull f ∧ t.expr.isTyped (args.map Slot.rep) [] ∧
      ∃ r d r', f.bytecode [t] ⟨"isNull",.default,[],0⟩=(.ok r,⟨"isNull",.default,[],0⟩) ∧
        f.generic ⟨"isNull",[]⟩ ⟨"isNull",.default⟩ [.leaf t]=.ok d ∧ d.materialize=.ok r' ∧
        t.expr.evaluate host args .empty=(.error (.routine (.wrongType "number" "null")),.empty) ∧
        r.expr.evaluate host args .empty=(.ok (.bool false),.empty) ∧
        r'.expr.evaluate host args .empty=(.error (.routine (.wrongType "number" "null")),.empty) ∧
        r.expr.evaluate host args≠f.answer host args t.expr := by
  intro host args f t
  have failed : t.expr.evaluate host args .empty=(.error (.routine (.wrongType "number" "null")),.empty) := by cbv
  have dropped : (Expr.bool false).evaluate host args .empty=(.ok (.bool false),.empty) := by cbv
  refine ⟨.isNull rfl,by decide,⟨.bool false,.bool⟩,_,_,rfl,rfl,rfl,failed,dropped,by cbv,?_⟩
  intro same
  have answered := congrFun same .empty
  rw [dropped,f.answer_eq,Failure.bind_apply,failed] at answered
  cases answered

end ChecksNull

end CallLowering.Library
