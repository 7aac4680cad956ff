import CallLowering.Proofs.Library.Standard
import CallLowering.Proofs.Lowering.Discipline

namespace CallLowering

variable {m : Method} {es : List TypedExpr} {b : Builder}

namespace Deferred

theorem materializeArgs_leaf (es : List TypedExpr) (params : List Rep) :
    materializeArgs (es.map leaf) params=coerceAll (es.map TypedExpr.expr) params := by
  induction es generalizing params with
  | nil => rfl
  | cons e es ih =>
    cases params with
    | nil => rfl
    | cons p params => rw [List.map_cons,List.map_cons,materializeArgs,coerceAll,ih]; rfl

/-- The expression for a call whose arguments are there already. -/
theorem materialize_call (m : Method) (es : List TypedExpr) :
    (call m (es.map leaf)).materialize.map TypedExpr.expr=
      (do m.invoke (← coerceAll (es.map TypedExpr.expr) m.params)) := by
  rw [materialize,materializeArgs_leaf]
  cases coerceAll (es.map TypedExpr.expr) m.params with
  | error e => rfl
  | ok args => cases h : m.invoke args <;> simp [bind,Except.bind,pure,Except.pure,Except.map,h]

theorem checkedCall_of_length (hl : es.length=m.arity) :
    checkedCall m (es.map leaf)=.ok (call m (es.map leaf)) := by
  rw [checkedCall,List.length_map,if_neg (not_not.mpr hl)]

end Deferred

namespace Build

/-- The result of a call, without the locals, of which none is taken. -/
theorem invoke_result (m : Method) (es : List Expr) (b : Builder) : (invoke m es b).1=
    if m.routine.onReceiver && !b.runtimes.contains m.routine.owner then
      .error (.unregisteredRuntime b.function m.routine.owner)
    else (do m.invoke (← coerceAll es m.params)) := by
  unfold invoke
  rw [Failure.bind_apply]
  change Prod.fst ((do
    if m.routine.onReceiver && !b.runtimes.contains m.routine.owner then
      throw (.unregisteredRuntime b.function m.routine.owner)
    let args ← coerceAll es m.params
    m.invoke args : Build Expr) b)=_
  by_cases hr : (m.routine.onReceiver && !b.runtimes.contains m.routine.owner)=true
  · rw [if_pos hr,if_pos hr]
    rfl
  · rw [if_neg hr,if_neg hr]
    cases hc : coerceAll es m.params with
    | error e => rfl
    | ok args =>
      change ((liftM (m.invoke args) : Build Expr) b).1=m.invoke args
      cases m.invoke args <;> rfl

/-- Giving the result of a call a type. -/
theorem invoke_typed (m : Method) (es : List Expr) (type : SemanticType) (b : Builder) :
    ((do return ⟨← invoke m es,type⟩ : Build TypedExpr) b).1.map TypedExpr.expr=(invoke m es b).1 := by
  rw [Failure.bind_apply]
  rcases invoke m es b with ⟨e|e,b'⟩ <;> rfl

end Build

namespace DeferredFactory

/-- The expression that is made of a description, if there is one. -/
def expression (d : Except LowerError Deferred) : Except LowerError Expr :=
  d >>= fun d => d.materialize.map TypedExpr.expr

/-- Describing a call of a routine without receiver and materializing it. -/
theorem callStatic_expression (f : DeferredFactory) (es : List TypedExpr) (hm : m.routine.onReceiver=false)
    (hl : es.length=m.arity) (b : Builder) :
    expression (f.callStatic m (es.map .leaf))=(Build.invoke m (es.map TypedExpr.expr) b).1 := by
  rw [callStatic,hm,Build.invoke_result,hm]
  simp only [Bool.false_eq_true,if_false,Bool.false_and]
  rw [Deferred.checkedCall_of_length hl]
  exact Deferred.materialize_call m es

/-- Describing a call of a method and materializing it. Both ways ask whether there may be a receiver before
they look at the arguments. -/
theorem callRuntime_expression (es : List TypedExpr) (hm : m.routine.onReceiver=true)
    (hl : es.length=m.arity) (b : Builder) :
    expression (callRuntime ⟨b.function,b.runtimes⟩ m (es.map .leaf))=
      (Build.invoke m (es.map TypedExpr.expr) b).1 := by
  rw [callRuntime,hm,Build.invoke_result,hm]
  simp only [Bool.not_true,Bool.false_eq_true,if_false,Bool.true_and]
  split
  · rfl
  · rw [Deferred.checkedCall_of_length hl]
    exact Deferred.materialize_call m es

end DeferredFactory

namespace Library

open DeferredFactory

/-- What becomes of a number, by the way that is chosen for it. -/
theorem Rounding.bytecode_single (f : Rounding) (e : TypedExpr) (b : Builder) : f.bytecode [e] b=
    (match NumericPath.select e.rep b.config.bytecode.specializeNumeric with
    | .passThrough => return ⟨e.expr,.int⟩
    | .native => return ⟨.convert (← Build.invoke f.rounder.native [e.expr]) .int64,.int⟩
    | .dynamic => return ⟨← Build.invoke f.rounder.dynamic [e.expr],.int⟩ : Build TypedExpr) b := rfl

/-- The functions that round, if all numbers take the way of boxed values. -/
theorem Rounding.expression_eq {f : Rounding} (hm : f.rounder.dynamic.routine.onReceiver=false)
    (ha : f.rounder.dynamic.arity=1) (hoff : b.config.bytecode.specializeNumeric=false) (e : TypedExpr)
    (factory : DeferredFactory) (context : CallContext) :
    (f.bytecode [e] b).1.map TypedExpr.expr=expression (f.generic factory context [.leaf e]) := by
  have path : NumericPath.select e.rep b.config.bytecode.specializeNumeric=.dynamic := by
    rw [hoff]
    cases e.rep <;> rfl
  have described := factory.callStatic_expression [e] hm ha.symm b
  have typed := Build.invoke_typed f.rounder.dynamic [e.expr] .int b
  rw [Rounding.bytecode_single,path]
  exact typed.trans described.symm

/-- The functions that choose, if no number is compared in place. -/
theorem Extremum.expression_eq {f : Extremum} (hm : f.dynamic.routine.onReceiver=false)
    (ha : f.dynamic.arity=2) (hoff : b.config.bytecode.specializeNumeric=false) (e e' : TypedExpr)
    (factory : DeferredFactory) (context : CallContext) :
    (f.bytecode [e,e'] b).1.map TypedExpr.expr=expression (f.generic factory context [.leaf e,.leaf e']) := by
  have apart : ¬(decide (e.rep=e'.rep) && b.specializes e.rep)=true := by
    rw [Builder.specializes,hoff]
    simp
  have described := factory.callStatic_expression [e,e'] hm ha.symm b
  have typed := Build.invoke_typed f.dynamic [e.expr,e'.expr] (resultType e.type e'.type) b
  refine Eq.trans ?_ (typed.trans described.symm)
  change Except.map _ (Prod.fst ((if (decide (e.rep=e'.rep) && b.specializes e.rep)=true then
    (_ : Build TypedExpr) else _) b))=_
  rw [if_neg apart]

/-- A check that is made on both ways before anything else. -/
theorem checked_expression (check : Except LowerError Unit) {x : Build TypedExpr}
    {d : Except LowerError Deferred} (h : (x b).1.map TypedExpr.expr=expression d) :
    ((do check; x : Build TypedExpr) b).1.map TypedExpr.expr=expression (do check; d) := by
  cases check with
  | error e => rfl
  | ok u => exact h

/-- Progressions. -/
theorem RangeFunction.expression_eq {f : RangeFunction} (hr : f.routine es.length=.ok m)
    (hm : m.routine.onReceiver=false) (ha : m.arity=es.length) (hsize : 1 ≤ es.length ∧ es.length ≤ 3)
    (factory : DeferredFactory) (context : CallContext) (b : Builder) :
    (f.bytecode es b).1.map TypedExpr.expr=expression (f.generic factory context (es.map .leaf)) := by
  have described := factory.callStatic_expression es hm ha.symm b
  have typed := Build.invoke_typed m (es.map TypedExpr.expr) (.list .int) b
  have called := typed.trans described.symm
  match es with
  | [e] =>
    cases hr
    exact called
  | [e,e'] =>
    cases hr
    exact called
  | [e,e',step] =>
    cases hr
    exact checked_expression (checkStep step.expr.intConstant?) called
  | [] => exact absurd hsize.1 (by simp)
  | _::_::_::_::_ => exact absurd hsize.2 (by simp)

/-- Random numbers. -/
theorem RandomInt.expression_eq {f : RandomInt} (hm : f.routine.routine.onReceiver=true)
    (ha : f.routine.arity=1) (e : TypedExpr) (context : CallContext) (b : Builder) :
    (f.bytecode [e] b).1.map TypedExpr.expr=
      expression (f.generic ⟨b.function,b.runtimes⟩ context [.leaf e]) := by
  have described := callRuntime_expression [e] hm ha.symm b
  have typed := Build.invoke_typed f.routine [e.expr] .int b
  exact checked_expression (checkBound e.expr.intConstant?) (typed.trans described.symm)

/-- The functions that the standard registry lowers to calls on every backend, if native numbers are off. -/
def calledFunctions : List String := ["ceiling","floor","max","min","range","randomInt"]

/-- What the bytecode capability of an entry makes of arguments. -/
def viaBytecode (r : Registry) (site : CallSite) (e : FunctionEntry) (c : BytecodeLowering)
    (es : List TypedExpr) : Except LowerError Expr :=
  (r.runBytecode (.direct : Runner Id) e site c es).run.map TypedExpr.expr

/-- What becomes of a description. -/
def viaDescription (r : Registry) (site : CallSite) (e : FunctionEntry) (g : GenericLowering)
    (es : List TypedExpr) : Except LowerError Expr :=
  expression (r.runGeneric (.direct : Runner Id) e site g (es.map .leaf)).run

theorem mem_arities_of_overload? {s : Signature} {count : Nat} {o : Overload} (h : s.overload? count=some o) :
    count∈s.arities := by
  have hm : o∈s.overloads := List.mem_of_find?_eq_some h
  have ha : o.arity=count := by simpa using List.find?_some h
  exact ha ▸ List.mem_map_of_mem hm

/-- Without native numbers the two ways to lower a call to an expression agree on all calls that their
signature accepts: in the expression, or in the error. -/
theorem viaBytecode_eq_viaDescription {config : Config} (hoff : config.bytecode.specializeNumeric=false)
    {r : Registry} (hr : build config RoutineTable.standard=.ok r) {site : CallSite}
    (hname : site.function∈calledFunctions) {e : FunctionEntry} (he : r.find? site.function=some e)
    {o : Overload} (ho : e.signature.select site.argTypes=.ok o) {es : List TypedExpr}
    (hl : es.length=site.argTypes.length) :
    ∃ c g, e.capabilities.bytecode=some c ∧ e.capabilities.generic=some g ∧
      viaBytecode r site e c es=viaDescription r site e g es := by
  cases (build_standard config).symm.trans hr
  have count := mem_arities_of_overload? (Signature.select_ok ho).1
  rw [←hl] at count
  obtain ⟨function,argTypes,location,firstLocal⟩ := site
  let factory : DeferredFactory := ⟨function,[]⟩
  let context : CallContext := ⟨function,config⟩
  -- the entry that is found under a name is the one that was declared under it
  have found {entry : FunctionEntry} (h : Registry.find? ⟨standardEntries,config⟩ function=some entry) :
      entry=e := Option.some.inj (h.symm.trans he)
  have single (h : es.length∈[1]) : ∃ e, es=[e] := List.length_eq_one_iff.mp (List.mem_singleton.mp h)
  have double (h : es.length∈[2]) : ∃ e e', es=[e,e'] := List.length_eq_two.mp (List.mem_singleton.mp h)
  simp only [calledFunctions,List.mem_cons,List.not_mem_nil,or_false] at hname
  obtain rfl|rfl|rfl|rfl|rfl|rfl := hname
  · obtain rfl := found rfl
    obtain ⟨a,rfl⟩ := single count
    exact ⟨_,_,rfl,rfl,Rounding.expression_eq rfl rfl hoff a factory context⟩
  · obtain rfl := found rfl
    obtain ⟨a,rfl⟩ := single count
    exact ⟨_,_,rfl,rfl,Rounding.expression_eq rfl rfl hoff a factory context⟩
  · obtain rfl := found rfl
    obtain ⟨a,a',rfl⟩ := double count
    exact ⟨_,_,rfl,rfl,Extremum.expression_eq rfl rfl hoff a a' factory context⟩
  · obtain rfl := found rfl
    obtain ⟨a,a',rfl⟩ := double count
    exact ⟨_,_,rfl,rfl,Extremum.expression_eq rfl rfl hoff a a' factory context⟩
  · obtain rfl := found rfl
    have size : es.length∈[1,2,3] := count
    simp only [List.mem_cons,List.not_mem_nil,or_false] at size
    obtain ⟨m,hm,hs,ha⟩ : ∃ m, standardRange.routine es.length=.ok m ∧ m.routine.onReceiver=false ∧
        m.arity=es.length := by
      obtain h|h|h := size <;> rw [h] <;> exact ⟨_,rfl,rfl,rfl⟩
    exact ⟨_,_,rfl,rfl,RangeFunction.expression_eq hm hs ha (by omega) factory context _⟩
  · obtain rfl := found rfl
    obtain ⟨a,rfl⟩ := single count
    exact ⟨_,_,rfl,rfl,RandomInt.expression_eq rfl rfl a context _⟩

/-- A progression whose bounds are held in two ways, by a step that is known only when it is run. -/
theorem viaBytecode_eq_viaDescription_stepped :
    let r : Registry := ⟨standardEntries,⟨.default,.default,⟨false⟩⟩⟩
    let site : CallSite := ⟨"range",[.int,.float,.unknown],⟨0,0,5⟩,4⟩
    let es : List TypedExpr := [.ofInt 1,⟨.arg 0 .float64,.float⟩,⟨.arg 1 .boxed,.unknown⟩]
    ∃ e c g, r.find? "range"=some e ∧ e.capabilities.bytecode=some c ∧ e.capabilities.generic=some g ∧
      viaBytecode r site e c es=viaDescription r site e g es ∧
      viaBytecode r site e c es=.ok (.invoke standardRange.stepped
        [.int 1,.convert (.arg 0 .float64) .int64,.unbox (.arg 1 .boxed) .int64]) := by
  intro r site es
  have he : r.find? "range"=some ⟨RangeFunction.signature,standardRange.capabilities,[]⟩ := rfl
  have called : site.function∈calledFunctions := by decide
  have accepted : RangeFunction.signature.select site.argTypes=
      .ok ⟨[.number,.number,.number],.list .int⟩ := rfl
  have count : es.length=site.argTypes.length := rfl
  obtain ⟨c,g,hc,hg,agree⟩ := viaBytecode_eq_viaDescription rfl (build_standard r.config) called he accepted count
  cases hc
  exact ⟨_,_,g,he,rfl,hg,agree,rfl⟩

end Library

end CallLowering
