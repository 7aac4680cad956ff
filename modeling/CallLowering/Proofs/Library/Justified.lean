import CallLowering.Proofs.Deferred.Pairing
import CallLowering.Proofs.Library.Forms
import CallLowering.Proofs.Library.Refused

namespace CallLowering

variable {σ : Type} {host : Host σ} {args : List Slot}

/-- Does it fault in every state of the host? -/
def Run.Fails {α : Type} (x : Run σ α) : Prop := ∀ s, ∃ fault t, x s=(.error fault,t)

theorem Run.Fails.of_ensures {α : Type} {x : Run σ α} {F : Fault → Prop} (h : Run.Ensures (fun _ => False) F x) :
    x.Fails := by
  intro s
  rcases hx : x s with ⟨fault|a,t⟩
  · exact ⟨fault,t,rfl⟩
  · exact absurd (h.result hx) id

theorem Run.Fails.ensures {α : Type} {x : Run σ α} (h : x.Fails) {P : α → Prop} :
    Run.Ensures P (fun _ => True) x := by
  apply Run.Ensures.of_results
  intro s a t hx
  obtain ⟨fault,u,failed⟩ := h s
  cases hx.symm.trans failed

/-- A call that its routine does not answer with a slot. -/
theorem Run.Fails.call {r : Routine} {slots : List Slot}
    (h : slots.length=r.params.length → ∀ s slot, (host.enter r slots s).1≠.ok slot) :
    (Run.call host r slots).Fails := by
  intro s
  rcases hx : Run.call host r slots s with ⟨fault|slot,t⟩
  · exact ⟨fault,t,rfl⟩
  · obtain ⟨count,-,entered⟩ := Run.call_ok hx
    exact absurd (congrArg Prod.fst entered) (h count s slot)

/-- The host answers calls of built-in routines as they answer, and draws from a source of its own. What it does to
its state is left open. -/
structure Host.RunsLibrary (host : Host σ) : Prop where
  runs : ∀ r b, r.body=.builtin b → b≠.randomInt → ∀ slots s, (host.enter r slots s).1=b.run slots
  draws : ∀ r, r.body=.builtin .randomInt → ∀ bound s, ∃ objects : Instances,
    (host.enter r [bound] s).1=(objects.draw r.owner bound).1

theorem Instances.host_runsLibrary (bodies : Instances.Bodies) : (Instances.host bodies).RunsLibrary where
  runs r b hb hne slots s := congrArg Prod.fst (enter_of_builtin bodies hb hne slots s)
  draws r hb bound s := ⟨s,by simp only [Instances.host,hb]⟩

namespace Slot

theorem whole_canonical (s : Slot) : s.canonical.whole?=s.whole? := by
  have float (x : Binary64) : (if x.canonical.isWhole then some x.canonical.toInt64 else none)=
      if x.isWhole then some x.toInt64 else none := by
    rw [x.isWhole_canonical,x.toInt64_canonical]
  cases s with
  | float64 x => exact float x
  | boxed v =>
    cases v with
    | float x => exact float x
    | _ => rfl
  | _ => rfl

/-- What a routine takes for an integer. -/
theorem toInt_of_whole {s : Slot} {n k : Int64} (h : s.whole?=some n) (hk : s.toInt=.ok k) : k=n := by
  cases s with
  | int64 m =>
    cases h
    cases hk
    rfl
  | boxed v =>
    cases v with
    | int m =>
      cases h
      cases hk
      rfl
    | float x =>
      cases hk
      simpa using (Option.ite_none_right_eq_some.mp h).2
    | _ => cases h
  | _ => cases hk

end Slot

namespace Expr

variable {e e' : Expr} {n : Int64}

/-- What becomes of a literal where it is used: itself, or what is left of it after becoming a float. -/
def Arrives (n : Int64) (slot : Slot) : Prop := slot.whole?=some n ∨ slot.whole?=some (Int64.throughFloat n)

theorem execute_literal (h : e.intConstant?=some n) (c : Chunk) (locals : Locals) :
    Run.Ensures (fun r => Arrives n r.1) (fun _ => True) (e.execute host args c.pooled locals) := by
  obtain ⟨slot,hslot,literal⟩ := exists_literal h
  -- the pool may hold the other zero for this one
  have whole : (c.pooled slot).whole?=some n := by
    rw [←Slot.whole_canonical,pooled_canonical,Slot.whole_canonical]
    exact whole_of_intConstant literal
  rw [execute_constant hslot]
  refine Run.Ensures.bind (.lift (P := Arrives n) (fun s hs => ?_) fun _ _ => trivial) fun s hs => .pure hs
  by_cases truth : .bool∈e.targets
  · obtain ⟨error,failed⟩ := Slot.convert_all_bool whole truth
    cases failed.symm.trans hs
  · obtain ⟨s',converted,left⟩ := Slot.convert_all_whole whole truth
    cases converted.symm.trans hs
    split at left
    · exact .inr left
    · exact .inl left

/-- Trees one after the other, if something is known of what the last one gives. -/
theorem executeAll_last {pool : Slot → Slot} {P : Slot → Prop}
    (h : ∀ locals, Run.Ensures (fun r => P r.1) (fun _ => True) (e.execute host args pool locals)) (es : List Expr)
    (locals : Locals) : Run.Ensures (fun r => ∃ slots slot, r.1=slots++[slot] ∧ P slot) (fun _ => True)
      (executeAll host args pool (es++[e]) locals) := by
  -- what comes before may have changed the locals, but not whether there is a last slot
  induction es generalizing locals with
  | nil =>
    rw [List.nil_append,executeAll]
    refine (h locals).bind fun r hr => ?_
    exact .pure ⟨[],r.1,rfl,hr⟩
  | cons d es ih =>
    rw [List.cons_append,executeAll]
    refine (Run.Ensures.any _).bind fun r _ => (ih r.2).bind fun rs hrs => ?_
    obtain ⟨slots,slot,hs,hp⟩ := hrs
    exact .pure ⟨r.1::slots,slot,by rw [hs]; rfl,hp⟩

/-- A call whose last argument is a literal that the routine does not take. -/
theorem evaluate_invoke_fails {m : Method} (h : e.intConstant?=some n) (es : List Expr)
    (hc : ∀ slots slot, Arrives n slot → (Run.call host m.routine (slots++[slot])).Fails) :
    ((invoke m (es++[e])).evaluate host args).Fails := by
  apply Run.Fails.of_ensures (F := fun _ => True)
  rw [evaluate]
  cases hm : (invoke m (es++[e])).emit with
  | error error => exact .throw trivial
  | ok c =>
    change Run.Ensures _ _ (c.run host args c.code.size)
    rw [(emit_realizes hm).run_execute,execute,bind_assoc]
    refine (executeAll_last (execute_literal h c) es _).bind fun r hr => ?_
    obtain ⟨slots,slot,hs,arrived⟩ := hr
    rw [hs,bind_assoc]
    exact (hc slots slot arrived).ensures.bind (P := fun _ => False) fun _ no => absurd no id

theorem intConstant_of_coerce_int64 (h : e.coerce .int64=.ok e') (hn : e.intConstant?=some n) :
    e'.intConstant?=some n := by
  cases coerced_of_coerce h with
  | @folded slot slot' converted =>
    cases (Slot.convert_int64 (whole_of_intConstant hn)).symm.trans converted
    rfl
  | _ => exact hn

end Expr

namespace Host.RunsLibrary

variable {r : Routine} {slots : List Slot} {slot : Slot} {n : Int64}

/-- A progression with a step of zero. -/
theorem range_fails (hh : host.RunsLibrary) (hb : r.body=.builtin .rangeBy) (hp : r.params.length=3)
    (h : Expr.Arrives 0 slot) : (Run.call host r (slots++[slot])).Fails := by
  have zero : slot.whole?=some 0 := by
    rcases h with whole|whole
    · exact whole
    · rwa [Int64.throughFloat_eq_zero.mpr rfl] at whole
  apply Run.Fails.call
  intro count s v answer
  have two : slots.length=2 := by
    rw [List.length_append,hp] at count
    exact Nat.succ.inj count
  obtain ⟨start,stop,rfl⟩ := List.length_eq_two.mp two
  rw [hh.runs r .rangeBy hb (by decide)] at answer
  obtain ⟨a,-,answer⟩ := Failure.bind_ok answer
  obtain ⟨b,-,answer⟩ := Failure.bind_ok answer
  obtain ⟨step,hstep,answer⟩ := Failure.bind_ok answer
  obtain ⟨items,hitems,-⟩ := Failure.bind_ok answer
  cases Slot.toInt_of_whole zero hstep
  cases hitems

/-- A number from a range that is empty. -/
theorem draw_fails (hh : host.RunsLibrary) (hb : r.body=.builtin .randomInt) (hp : r.params.length=1)
    (h : Expr.Arrives n slot) (hn : n.toInt ≤ 0) : (Run.call host r (slots++[slot])).Fails := by
  have low {k : Int64} (hk : slot.toInt=.ok k) : k.toInt ≤ 0 := by
    rcases h with whole|whole
    · rwa [Slot.toInt_of_whole whole hk]
    · rw [Slot.toInt_of_whole whole hk]
      exact Int64.throughFloat_nonpositive hn
  apply Run.Fails.call
  intro count s v answer
  have none : slots=[] := by
    rw [List.length_append,hp] at count
    exact List.length_eq_zero_iff.mp (Nat.succ.inj count)
  subst none
  obtain ⟨objects,drawn⟩ := hh.draws r hb slot s
  rw [List.nil_append,drawn,Instances.draw] at answer
  split at answer
  · next source upper _ hk =>
    rw [RandomSource.below,if_pos (low hk)] at answer
    cases answer
  · cases answer
  · cases answer

end Host.RunsLibrary

/-- A call whose last argument is a literal, however it was paired with its parameter. -/
theorem Expr.evaluate_passed_fails {m : Method} {n : Int64}
    (hc : ∀ slots slot, Expr.Arrives n slot → (Run.call host m.routine (slots++[slot])).Fails) {e e' : Expr}
    (he : e.intConstant?=some n) (hp : e.coerce .int64=.ok e') (es : List Expr) :
    ((Expr.invoke m (es++[e'])).evaluate host args).Fails :=
  Expr.evaluate_invoke_fails (Expr.intConstant_of_coerce_int64 hp he) es hc

theorem Deferred.intConstant_of_materialize {d : Deferred} {t : TypedExpr} {n : Int64} (h : d.materialize=.ok t)
    (hn : d.intConstant?=some n) : t.expr.intConstant?=some n := by
  cases d with
  | leaf t' =>
    cases h
    exact hn
  | constant slot =>
    cases h
    exact hn
  | call m ds => cases hn
  | list ds => cases hn

theorem Deferred.checkedCall_ok {m : Method} {ds : List Deferred} {d : Deferred} (h : checkedCall m ds=.ok d) :
    d=.call m ds := by
  rw [checkedCall] at h
  split at h
  · cases h
  · cases h
    rfl

namespace DeferredFactory

variable {f : DeferredFactory} {m : Method} {ds : List Deferred} {d : Deferred}

theorem callStatic_ok (h : f.callStatic m ds=.ok d) : d=.call m ds := by
  rw [callStatic] at h
  split at h
  · cases h
  · exact Deferred.checkedCall_ok h

theorem callRuntime_ok (h : f.callRuntime m ds=.ok d) : d=.call m ds := by
  rw [callRuntime] at h
  split at h
  · cases h
  · split at h
    · cases h
    · exact Deferred.checkedCall_ok h

/-- The expression of a call that is described. -/
theorem expression_ok {r : Except LowerError Deferred} {e : Expr}
    (hr : ∀ d, r=.ok d → d=.call m ds) (h : expression r=.ok e) :
    ∃ es, Deferred.Paired ds m.params es ∧ e=.invoke m es := by
  obtain ⟨d,hd,h⟩ := Failure.bind_ok h
  cases hr d hd
  cases ht : (Deferred.call m ds).materialize with
  | error error =>
    rw [ht] at h
    cases h
  | ok t =>
    rw [ht] at h
    cases h
    obtain ⟨-,es,paired,rfl⟩ := Deferred.materialize_call_iff.mp ht
    exact ⟨es,paired,rfl⟩

end DeferredFactory

namespace Library

open DeferredFactory

/-- Are calls refused only if the same call, built without the check, would fail in every run? -/
structure RangeFunction.RefusesFailing (f : RangeFunction) (host : Host σ) (args : List Slot) : Prop where
  bytecode (start stop step : TypedExpr) (b : Builder) (h : Refused (f.bytecode [start,stop,step] b).1) (e : Expr)
    (he : (Build.invoke f.stepped [start.expr,stop.expr,step.expr] b).1=.ok e) : (e.evaluate host args).Fails
  generic (start stop step : Deferred) (factory : DeferredFactory) (context : CallContext)
    (h : Refused (f.generic factory context [start,stop,step])) (e : Expr)
    (he : expression (factory.callStatic f.stepped [start,stop,step])=.ok e) : (e.evaluate host args).Fails

structure RandomInt.RefusesFailing (f : RandomInt) (host : Host σ) (args : List Slot) : Prop where
  bytecode (bounds : List TypedExpr) (b : Builder) (h : Refused (f.bytecode bounds b).1) (e : Expr)
    (he : (Build.invoke f.routine (bounds.map TypedExpr.expr) b).1=.ok e) : (e.evaluate host args).Fails
  generic (bounds : List Deferred) (factory : DeferredFactory) (context : CallContext)
    (h : Refused (f.generic factory context bounds)) (e : Expr)
    (he : expression (factory.callRuntime f.routine bounds)=.ok e) : (e.evaluate host args).Fails

theorem RangeFunction.refusesFailing {f : RangeFunction} (hh : host.RunsLibrary)
    (hb : f.stepped.routine.body=.builtin .rangeBy) (hp : f.stepped.params=[.int64,.int64,.int64]) :
    f.RefusesFailing host args := by
  have fails (slots : List Slot) (slot : Slot) (h : Expr.Arrives 0 slot) :
      (Run.call host f.stepped.routine (slots++[slot])).Fails := hh.range_fails hb (congrArg List.length hp) h
  constructor
  · intro start stop step b h e he
    have zero := (f.bytecode_refused start stop step b).mp h
    obtain ⟨-,-,es,paired,rfl⟩ := Build.invoke_iff.mp he
    rw [hp] at paired
    obtain ⟨start',_,-,rest,rfl⟩ := List.forall₂_cons_left_iff.mp paired
    obtain ⟨stop',_,-,last,rfl⟩ := List.forall₂_cons_left_iff.mp rest
    obtain ⟨step',_,coerced,⟨⟩,rfl⟩ := List.forall₂_cons_left_iff.mp last
    exact Expr.evaluate_passed_fails fails zero coerced [start',stop']
  · intro start stop step factory context h e he
    have zero := (f.generic_refused start stop step factory context).mp h
    obtain ⟨es,paired,rfl⟩ := expression_ok (fun d hd => callStatic_ok hd) he
    rw [hp] at paired
    obtain ⟨start',_,-,rest,rfl⟩ := List.forall₂_cons_left_iff.mp paired
    obtain ⟨stop',_,-,last,rfl⟩ := List.forall₂_cons_left_iff.mp rest
    obtain ⟨step',_,⟨t,made,coerced⟩,⟨⟩,rfl⟩ := List.forall₂_cons_left_iff.mp last
    exact Expr.evaluate_passed_fails fails (Deferred.intConstant_of_materialize made zero) coerced [start',stop']

theorem RandomInt.refusesFailing {f : RandomInt} (hh : host.RunsLibrary)
    (hb : f.routine.routine.body=.builtin .randomInt) (hp : f.routine.params=[.int64]) :
    f.RefusesFailing host args := by
  have fails {n : Int64} (hn : n.toInt ≤ 0) (slots : List Slot) (slot : Slot) (h : Expr.Arrives n slot) :
      (Run.call host f.routine.routine (slots++[slot])).Fails := hh.draw_fails hb (congrArg List.length hp) h hn
  constructor
  · intro bounds b h e he
    obtain ⟨bound,n,rfl,hn,low⟩ := (f.bytecode_refused bounds b).mp h
    obtain ⟨-,-,es,paired,rfl⟩ := Build.invoke_iff.mp he
    rw [hp] at paired
    obtain ⟨bound',_,coerced,⟨⟩,rfl⟩ := List.forall₂_cons_left_iff.mp paired
    exact Expr.evaluate_passed_fails (fails low) hn coerced []
  · intro bounds factory context h e he
    obtain ⟨bound,n,rfl,hn,low⟩ := (f.generic_refused bounds factory context).mp h
    obtain ⟨es,paired,rfl⟩ := expression_ok (fun d hd => callRuntime_ok hd) he
    rw [hp] at paired
    obtain ⟨bound',_,⟨t,made,coerced⟩,⟨⟩,rfl⟩ := List.forall₂_cons_left_iff.mp paired
    exact Expr.evaluate_passed_fails (fails low) (Deferred.intConstant_of_materialize made hn) coerced []

/-- Wherever the routines of the library are in the table, refusing a literal takes no call away that could
succeed. -/
theorem refusals_justified (hh : host.RunsLibrary) (args : List Slot) (table : RoutineTable) :
    (∀ f, RangeFunction.resolve table=.ok f → f.stepped.routine.body=.builtin .rangeBy →
      f.RefusesFailing host args) ∧
    ∀ f, RandomInt.resolve table=.ok f → f.routine.routine.body=.builtin .randomInt → f.RefusesFailing host args := by
  refine ⟨fun f hf hb => ?_,fun f hf hb => ?_⟩
  · obtain ⟨-,-,stepped⟩ := (Function.Resolved.range hf).wellFormed
    exact f.refusesFailing hh hb stepped
  · exact f.refusesFailing hh hb (Function.Resolved.randomInt hf).wellFormed

/-- A step of zero and a bound of minus three, with the standard table. -/
theorem refusals_justified_standard :
    let host := Instances.host fun _ _ _ => .ok (.int64 0)
    let b : Builder := ⟨"range",.default,[randomOwner],0⟩
    let progression : Expr := .invoke standardRange.stepped [.int 1,.int 5,.int 0]
    let draw : Expr := .invoke ⟨randomIntRoutine,false⟩ [.int (-3)]
    Refused (standardRange.bytecode [.ofInt 1,.ofInt 5,.ofInt 0] b).1 ∧
      (Build.invoke standardRange.stepped [.int 1,.int 5,.int 0] b).1=.ok progression ∧
      (progression.evaluate host []).Fails ∧
      Refused (RandomInt.bytecode ⟨⟨randomIntRoutine,false⟩⟩ [.ofInt (-3)] b).1 ∧
      (Build.invoke ⟨randomIntRoutine,false⟩ [.int (-3)] b).1=.ok draw ∧ (draw.evaluate host []).Fails := by
  intro host b progression draw
  have runs : host.RunsLibrary := Instances.host_runsLibrary _
  have justified := refusals_justified runs [] RoutineTable.standard
  have steps : standardRange.RefusesFailing host [] := justified.1 _ rfl rfl
  have bounds : RandomInt.RefusesFailing ⟨⟨randomIntRoutine,false⟩⟩ host [] := justified.2 _ rfl rfl
  have zero : Refused (standardRange.bytecode [.ofInt 1,.ofInt 5,.ofInt 0] b).1 :=
    (standardRange.bytecode_refused ..).mpr rfl
  have low : Refused (RandomInt.bytecode ⟨⟨randomIntRoutine,false⟩⟩ [.ofInt (-3)] b).1 :=
    (RandomInt.bytecode_refused ..).mpr ⟨_,-3,rfl,rfl,by decide⟩
  exact ⟨zero,rfl,steps.bytecode _ _ _ b zero _ rfl,low,rfl,bounds.bytecode _ b low _ rfl⟩

end Library

end CallLowering
