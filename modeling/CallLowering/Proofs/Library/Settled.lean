import CallLowering.Proofs.Expr.Passed
import CallLowering.Proofs.Library.Description
import CallLowering.Proofs.Lowering.Accepted

namespace CallLowering

variable {α β : Type} {b : Builder}

namespace Build

/-- A call of a routine that has its receiver fails only where an argument cannot be converted. -/
theorem invoke_eq {m : Method} {es : List Expr} (hl : es.length=m.params.length)
    (hr : (m.routine.onReceiver && !b.runtimes.contains m.routine.owner)=false) :
    (invoke m es b).1=(coerceAll es m.params).map (.invoke m) := by
  rw [invoke_result,if_neg (by rw [hr]; decide)]
  cases h : coerceAll es m.params with
  | error e => rfl
  | ok es' => exact Method.invoke_of_rep (rep_of_coerceAll hl h)

theorem map_result (x : Build α) (f : α → β) (b : Builder) : ((do return f (← x) : Build β) b).1=(x b).1.map f := by
  rw [Failure.bind_apply]
  rcases x b with ⟨e|a,b'⟩ <;> rfl

theorem map_ok {x : Build α} {a : α} (h : (x b).1=.ok a) (f : α → β) :
    ((do return f (← x) : Build β) b).1=.ok (f a) := by
  rw [map_result,h]
  rfl

/-- A check that is made before anything else. -/
theorem check_result (check : Except LowerError Unit) (x : Build α) (b : Builder) :
    ((do check; x : Build α) b).1=(do check; (x b).1) := by
  cases check <;> rfl

theorem exists_cache (e : Expr) (h : b.nextLocal.toNat ≤ 65534) :
    ∃ c b', cache e b=(.ok c,b') ∧ b'.nextLocal.toNat ≤ b.nextLocal.toNat+1 := by
  cases hc : e.isCheap with
  | true => exact ⟨.inlined e,b,by rw [cache,if_pos hc]; rfl,by omega⟩
  | false =>
    have free : b.nextLocal.toNat < 65535 := by omega
    refine ⟨.bound b.nextLocal e,{b with nextLocal := b.nextLocal+1},?_,Nat.le_of_eq (toNat_nextLocal free)⟩
    rw [cache,if_neg (by rw [hc]; decide),Failure.bind_apply,freshLocal_eq,if_pos free]
    rfl

end Build

namespace Library

/-- What the author of a template may be told of a call that passed its check. -/
inductive Refusal : String → Backend → LowerError → Prop
  | undescribed : Refusal "isNonnull" .genericCall (.unsupportedBackend "isNonnull" .genericCall)
  | step (backend : Backend) :
      Refusal "range" backend (.invalidArgument "range" "step must be non-zero")
  | bound (backend : Backend) {n : Int64} (h : n.toInt ≤ 0) : Refusal "randomInt" backend
      (.invalidArgument "randomInt" ("upper bound must be positive, got "++Int64.text n))

theorem Refusal.isUser {function : String} {backend : Backend} {e : LowerError}
    (h : Refusal function backend e) : e.errorClass=.user ∧ Registry.afterCheck e=e := by
  cases h <;> exact ⟨rfl,rfl⟩

theorem Refusal.function_mem {function : String} {backend : Backend} {e : LowerError}
    (h : Refusal function backend e) : function∈["isNonnull","range","randomInt"] := by
  cases h <;> decide

/-- How a checked call ends: it is refused, or done, or given up if a truth value stands where integers are
counted. -/
inductive Settled (function : String) (backend : Backend) (truth : Prop) : Except LowerError α → Prop
  | refused {e : LowerError} (h : Refusal function backend e) : Settled function backend truth (.error e)
  | done {a : α} (h : ¬truth) : Settled function backend truth (.ok a)
  | givenUp (h : truth) :
      Settled function backend truth (.error (.internal "cannot coerce bool to i64"))

namespace Settled

variable {function : String} {backend : Backend} {truth : Prop} {x : Except LowerError α}

theorem of_ok (h : ∃ a, x=.ok a) (ht : ¬truth) : Settled function backend truth x := by
  obtain ⟨a,rfl⟩ := h
  exact .done ht

theorem map (h : Settled function backend truth x) (f : α → β) : Settled function backend truth (x.map f) := by
  cases h with
  | refused h => exact .refused h
  | done h => exact .done h
  | givenUp h => exact .givenUp h

theorem checked {check : Except LowerError Unit} (hc : ∀ e, check=.error e → Refusal function backend e)
    (h : Settled function backend truth x) : Settled function backend truth (do check; x) := by
  cases check with
  | error e => exact .refused (hc e rfl)
  | ok u => exact h

theorem congr (h : Settled function backend truth x) {truth' : Prop} (ht : truth ↔ truth') :
    Settled function backend truth' x :=
  propext ht ▸ h

theorem integers (es : List Expr) :
    Settled function backend (∃ e∈es, e.rep=.bool) (coerceAll es (es.map fun _ => .int64)) := by
  obtain ⟨h,ht⟩|⟨⟨es',h⟩,hn⟩ := coerceAll_int64 es
  · rw [h]
    exact .givenUp ht
  · rw [h]
    exact .done fun ⟨e,he,ht⟩ => hn e he ht

end Settled

theorem checkStep_refusal {step : Option Int64} (backend : Backend) :
    ∀ e, RangeFunction.checkStep step=.error e → Refusal "range" backend e := by
  intro e h
  rw [RangeFunction.checkStep] at h
  split at h
  · cases h
    exact .step backend
  · cases h

theorem checkBound_refusal {bound : Option Int64} (backend : Backend) :
    ∀ e, RandomInt.checkBound bound=.error e → Refusal "randomInt" backend e := by
  intro e h
  cases bound with
  | none => cases h
  | some n =>
    rw [RandomInt.checkBound] at h
    split at h
    · cases h
      exact .bound backend ‹_›
    · cases h

/-- Is it a routine without receiver, with these parameters? -/
def Takes (m : Method) (params : List Rep) : Prop := m.routine.onReceiver=false ∧ m.params=params

/-- A call of a routine without receiver that takes boxes, or takes arguments as they are held. -/
theorem Takes.exists_invoke {m : Method} {params : List Rep} (hm : Takes m params) {es es' : List Expr}
    (hl : es.length=params.length) (h : coerceAll es params=.ok es') (b : Builder) :
    (Build.invoke m es b).1=.ok (.invoke m es') := by
  obtain ⟨hr,rfl⟩ := hm
  rw [Build.invoke_eq hl (by rw [hr]; rfl),h]
  rfl

/-- Describing a call of a routine without receiver. -/
theorem Takes.callStatic {m : Method} {params : List Rep} (hm : Takes m params) {ds : List Deferred}
    (hl : ds.length=params.length) (factory : DeferredFactory) :
    factory.callStatic m ds=.ok (.call m ds) := by
  obtain ⟨hr,rfl⟩ := hm
  have count : ds.length=m.arity := hl
  rw [DeferredFactory.callStatic,if_neg (by rw [hr]; decide),Deferred.checkedCall,
    if_neg (not_not.mpr count)]

/-- Describing a call of a routine that takes a box, and materializing the description. -/
theorem Takes.described {m : Method} (hm : Takes m [.boxed]) (t : TypedExpr) (factory : DeferredFactory) :
    ∃ d r e', factory.callStatic m [.leaf t]=.ok d ∧ d.materialize=.ok r ∧ Expr.Boxed t.expr e' ∧
      r.expr=.invoke m [e'] := by
  obtain ⟨es,boxes,coerced⟩ := coerceAll_boxed [t.expr]
  obtain ⟨e',_,boxed,⟨⟩,rfl⟩ := List.forall₂_cons_left_iff.mp boxes
  have invoked : m.invoke [e']=.ok (.invoke m [e']) :=
    Method.invoke_of_rep ((rep_of_coerceAll rfl coerced).trans hm.2.symm)
  have made : (Deferred.call m [.leaf t]).materialize.map TypedExpr.expr=.ok (.invoke m [e']) := by
    refine (Deferred.materialize_call m [t]).trans ?_
    rw [hm.2]
    change (coerceAll [t.expr] ([t.expr].map fun _ => .boxed) >>= _)=_
    rw [coerced]
    exact invoked
  cases hr : (Deferred.call m [.leaf t]).materialize with
  | error error =>
    rw [hr] at made
    cases made
  | ok r =>
    rw [hr] at made
    exact ⟨_,r,e',hm.callStatic rfl factory,hr,boxed,Except.ok.inj made⟩

/-- What a call of a function that rounds becomes, by the way that is taken. -/
inductive Rounding.Way (f : Rounding) (e : Expr) : Expr → Prop
  | passed (hr : e.rep=.int64) : Way f e e
  | native (hr : e.rep=.float64) : Way f e (.convert (.invoke f.rounder.native [e]) .int64)
  | dynamic {e' : Expr} (h : Expr.Boxed e e') : Way f e (.invoke f.rounder.dynamic [e'])

theorem Rounding.exists_bytecode {f : Rounding} (hn : Takes f.rounder.native [.float64])
    (hd : Takes f.rounder.dynamic [.boxed]) (e : TypedExpr) (b : Builder) :
    ∃ t, f.Way e.expr t.expr ∧ (f.bytecode [e] b).1=.ok t := by
  rw [Rounding.bytecode_single]
  cases hp : NumericPath.select e.rep b.config.bytecode.specializeNumeric with
  | passThrough => exact ⟨⟨e.expr,.int⟩,.passed (NumericPath.rep_of_select hp),rfl⟩
  | native =>
    have held : e.expr.rep=.float64 := NumericPath.rep_of_select hp
    have kept : coerceAll [e.expr] [.float64]=.ok [e.expr] := by
      rw [coerceAll,Expr.coerce,if_pos held]
      rfl
    have called := hn.exists_invoke rfl kept b
    exact ⟨_,.native held,Build.map_ok called fun e => TypedExpr.mk (.convert e .int64) .int⟩
  | dynamic =>
    obtain ⟨es,boxes,coerced⟩ := coerceAll_boxed [e.expr]
    obtain ⟨e',_,boxed,⟨⟩,rfl⟩ := List.forall₂_cons_left_iff.mp boxes
    have called := hd.exists_invoke rfl coerced b
    exact ⟨_,.dynamic boxed,Build.map_ok called fun e => TypedExpr.mk e .int⟩

/-- What a call of a function that tests for null becomes: the test of a box, or the answer for what is never
null, behind the operand unless that is cheap. -/
inductive NullCheck.Way (f : NullCheck) (e : Expr) : Expr → Prop
  | tested (hr : e.rep=.boxed) : Way f e (if f.negated then .not (.isNull e) else .isNull e)
  | dropped (hr : e.rep≠.boxed) (hc : e.isCheap) : Way f e (.bool f.negated)
  | computed {index : UInt16} (hr : e.rep≠.boxed) (hc : ¬e.isCheap) (hi : index.toNat ≤ 65534) :
      Way f e (.bind index e (.bool f.negated))

theorem NullCheck.exists_bytecode (f : NullCheck) (e : TypedExpr) (h : b.nextLocal.toNat ≤ 65534) :
    ∃ t, f.Way e.expr t.expr ∧ (f.bytecode [e] b).1=.ok t := by
  by_cases hr : e.rep=.boxed
  · refine ⟨⟨if f.negated then .not (.isNull e.expr) else .isNull e.expr,.bool⟩,.tested hr,?_⟩
    change Prod.fst ((if e.rep=.boxed then (_ : Build TypedExpr) else _) b)=_
    rw [if_pos hr]
    rfl
  · obtain ⟨c,b',hc,-⟩ := Build.exists_cache e.expr h
    refine ⟨⟨c.finish (.bool f.negated),.bool⟩,?_,?_⟩
    · cases Build.cache_ok hc with
      | inlined cheap _ => exact .dropped hr cheap
      | bound hl hh hi =>
        refine .computed hr (fun cheap => ?_) hi
        rw [Build.cache,if_pos cheap] at hc
        cases hc
    · change Prod.fst ((if e.rep=.boxed then _ else (_ : Build TypedExpr)) b)=_
      rw [if_neg hr,Failure.bind_apply,hc]
      rfl

/-- What a call of a function that chooses becomes, where the locals from `low` on are free. -/
inductive Extremum.Way (f : Extremum) (low : Nat) (e e' : Expr) : Expr → Prop
  | chosen {c c' : Cached} {mid high : Nat} (h : Build.Kept e low mid c) (h' : Build.Kept e' mid high c') :
      Way f low e e' (c.finish (c'.finish (f.select c.reference c'.reference e.rep)))
  | called {d d' : Expr} (h : Expr.Boxed e d) (h' : Expr.Boxed e' d') : Way f low e e' (.invoke f.dynamic [d,d'])

theorem Extremum.exists_bytecode {f : Extremum} (hd : Takes f.dynamic [.boxed,.boxed]) (e e' : TypedExpr)
    (h : b.nextLocal.toNat ≤ 65533) :
    ∃ t, f.Way b.nextLocal.toNat e.expr e'.expr t.expr ∧ (f.bytecode [e,e'] b).1=.ok t := by
  by_cases hr : (decide (e.rep=e'.rep) && b.specializes e.rep)=true
  · obtain ⟨c,b₁,hc,h₁⟩ := Build.exists_cache e.expr (show b.nextLocal.toNat ≤ 65534 by omega)
    obtain ⟨c',b₂,hc',-⟩ := Build.exists_cache e'.expr (show b₁.nextLocal.toNat ≤ 65534 by omega)
    refine ⟨⟨c.finish (c'.finish (f.select c.reference c'.reference e.rep)),resultType e.type e'.type⟩,
      .chosen (Build.cache_ok hc) (Build.cache_ok hc'),?_⟩
    change Prod.fst ((if (decide (e.rep=e'.rep) && b.specializes e.rep)=true then (_ : Build TypedExpr)
      else _) b)=_
    rw [if_pos hr,Failure.bind_apply,hc]
    simp only [Failure.bind_apply,hc']
    rfl
  · obtain ⟨es,boxes,coerced⟩ := coerceAll_boxed [e.expr,e'.expr]
    obtain ⟨d,_,boxed,rest,rfl⟩ := List.forall₂_cons_left_iff.mp boxes
    obtain ⟨d',_,boxed',⟨⟩,rfl⟩ := List.forall₂_cons_left_iff.mp rest
    have called := hd.exists_invoke rfl coerced b
    refine ⟨⟨.invoke f.dynamic [d,d'],resultType e.type e'.type⟩,.called boxed boxed',?_⟩
    change Prod.fst ((if (decide (e.rep=e'.rep) && b.specializes e.rep)=true then _
      else (_ : Build TypedExpr)) b)=_
    rw [if_neg hr]
    exact Build.map_ok called fun d => TypedExpr.mk d (resultType e.type e'.type)

/-- Routines that take integers only. -/
theorem integers_settled {m : Method} {es : List Expr} (hp : m.params=es.map fun _ => .int64)
    (hr : (m.routine.onReceiver && !b.runtimes.contains m.routine.owner)=false) (function : String)
    (backend : Backend) (type : SemanticType) : Settled function backend (∃ e∈es, e.rep=.bool)
      ((do return ⟨← Build.invoke m es,type⟩ : Build TypedExpr) b).1 := by
  have count : es.length=m.params.length := by rw [hp,List.length_map]
  rw [Build.map_result _ fun e => (⟨e,type⟩ : TypedExpr),Build.invoke_eq count hr,hp]
  exact ((Settled.integers es).map _).map _

/-- The routines of progressions. -/
structure RangeFunction.Usual (f : RangeFunction) : Prop where
  upTo : Takes f.upTo [.int64]
  between : Takes f.between [.int64,.int64]
  stepped : Takes f.stepped [.int64,.int64,.int64]

theorem RangeFunction.bytecode_settled {f : RangeFunction} (hf : f.Usual) {es : List TypedExpr}
    (hs : 1 ≤ es.length ∧ es.length ≤ 3) (b : Builder) : Settled "range" .bytecode
      (∃ e∈es.map TypedExpr.expr, e.rep=.bool) (f.bytecode es b).1 := by
  match es with
  | [e] => exact integers_settled hf.upTo.2 (by rw [hf.upTo.1]; rfl) ..
  | [e,e'] => exact integers_settled hf.between.2 (by rw [hf.between.1]; rfl) ..
  | [e,e',step] =>
    have rest : Settled "range" .bytecode (∃ d∈[e.expr,e'.expr,step.expr], d.rep=.bool)
        ((do return ⟨← Build.invoke f.stepped [e.expr,e'.expr,step.expr],.list .int⟩ : Build TypedExpr) b).1 :=
      integers_settled hf.stepped.2 (by rw [hf.stepped.1]; rfl) ..
    have checked : Settled "range" .bytecode (∃ d∈[e.expr,e'.expr,step.expr], d.rep=.bool)
        (do checkStep step.expr.intConstant?; _) := rest.checked (checkStep_refusal .bytecode)
    rwa [←Build.check_result] at checked
  | [] => exact absurd hs.1 (by simp)
  | _::_::_::_::_ => exact absurd hs.2 (by simp)

theorem RangeFunction.generic_settled {f : RangeFunction} (hf : f.Usual) {ds : List Deferred}
    (hs : 1 ≤ ds.length ∧ ds.length ≤ 3) {truth : Prop} (ht : ¬truth) (factory : DeferredFactory)
    (context : CallContext) : Settled "range" .genericCall truth (f.generic factory context ds) := by
  match ds with
  | [d] => exact .of_ok ⟨_,hf.upTo.callStatic rfl factory⟩ ht
  | [d,d'] => exact .of_ok ⟨_,hf.between.callStatic rfl factory⟩ ht
  | [d,d',step] =>
    have checked : Settled "range" .genericCall truth
        (do checkStep step.intConstant?; factory.callStatic f.stepped [d,d',step]) :=
      (Settled.of_ok ⟨_,hf.stepped.callStatic rfl factory⟩ ht).checked (checkStep_refusal .genericCall)
    exact checked
  | [] => exact absurd hs.1 (by simp)
  | _::_::_::_::_ => exact absurd hs.2 (by simp)

theorem RangeFunction.javaScript_settled {fs : List Fragment} (hs : 1 ≤ fs.length ∧ fs.length ≤ 3)
    {truth : Prop} (ht : ¬truth) (context : CallContext) :
    Settled "range" .javaScript truth (javaScript.lower context fs) := by
  match fs with
  | [a] => exact .done ht
  | [a,a'] => exact .done ht
  | [a,a',step] =>
    have guarded : Settled "range" .javaScript truth (guardStep context.config.javaScript step) := by
      rw [guardStep]
      split
      · split
        · exact .refused (.step .javaScript)
        · exact .done ht
      · exact .done ht
    exact guarded.map fun step =>
      JavaScript.call (context.config.javaScript.rangeLibrary++".range") [a,a',step]
  | [] => exact absurd hs.1 (by simp)
  | _::_::_::_::_ => exact absurd hs.2 (by simp)

theorem RangeFunction.python_settled {fs : List Fragment} (hs : 1 ≤ fs.length ∧ fs.length ≤ 3)
    {truth : Prop} (ht : ¬truth) (context : CallContext) :
    Settled "range" .python truth (python.lower context fs) := by
  match fs with
  | [a] => exact .done ht
  | [a,a'] => exact .done ht
  | [a,a',step] =>
    have checked : Settled "range" .python truth (do
        checkStep step.integer?
        .ok (Python.call "list" [Python.call context.config.python.rangeBuiltin [a,a',step]])) :=
      (Settled.done ht).checked (checkStep_refusal .python)
    exact checked
  | [] => exact absurd hs.1 (by simp)
  | _::_::_::_::_ => exact absurd hs.2 (by simp)

theorem RandomInt.bytecode_settled {f : RandomInt} (hp : f.routine.params=[.int64])
    (hr : b.runtimes.contains f.routine.routine.owner) (e : TypedExpr) :
    Settled "randomInt" .bytecode (∃ d∈[e.expr], d.rep=.bool) (f.bytecode [e] b).1 := by
  have rest : Settled "randomInt" .bytecode (∃ d∈[e.expr], d.rep=.bool)
      ((do return ⟨← Build.invoke f.routine [e.expr],.int⟩ : Build TypedExpr) b).1 :=
    integers_settled hp (by rw [hr,Bool.not_true,Bool.and_false]) ..
  exact Build.check_result .. ▸ rest.checked (checkBound_refusal .bytecode)

theorem RandomInt.generic_settled {f : RandomInt} (hm : f.routine.routine.onReceiver=true)
    (hp : f.routine.params=[.int64]) {factory : DeferredFactory}
    (hr : factory.runtimes.contains f.routine.routine.owner) {truth : Prop} (ht : ¬truth) (context : CallContext)
    (d : Deferred) : Settled "randomInt" .genericCall truth (f.generic factory context [d]) := by
  have count : [d].length=f.routine.arity := (congrArg List.length hp).symm
  have described : factory.callRuntime f.routine [d]=.ok (.call f.routine [d]) := by
    rw [DeferredFactory.callRuntime,hm,hr,if_neg (by decide),if_neg (by decide),Deferred.checkedCall,
      if_neg (not_not.mpr count)]
  exact (Settled.of_ok ⟨_,described⟩ ht).checked (checkBound_refusal .genericCall)

end Library

end CallLowering
