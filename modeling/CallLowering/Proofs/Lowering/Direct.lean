import CallLowering.Proofs.Lowering.Session

namespace CallLowering

namespace Registry

variable {r : Registry} {site : CallSite} {log : DiagnosticLog}

theorem lower_eq (args : Arguments) : r.lower site args log=
    match (r.tryLower (.direct : Runner Id) site args).run with
    | .ok a => (.ok a,log)
    | .error e =>
        if e.errorClass=.user then
          (.ok (.placeholder args.backend),log.report (.ofError e site.location))
        else (.error e,log) := by
  rw [lower,lowerBy]
  rfl

theorem lower_ok {args : Arguments} {a : Artifact} (h : r.lower site args log=(.ok a,log)) :
    (r.tryLower (.direct : Runner Id) site args).run=.ok a := by
  rw [lower_eq] at h
  cases hx : (r.tryLower (.direct : Runner Id) site args).run with
  | ok a =>
    rw [hx] at h
    cases h
    rfl
  | error e =>
    rw [hx] at h
    by_cases hu : e.errorClass=.user
    · simp only [if_pos hu] at h
      exact absurd (congrArg Prod.snd h) (log.report_ne _)
    · simp only [if_neg hu] at h
      cases h

/-- A call that is lowered was found and checked, and handed to the capability for its backend. -/
theorem tryLower_ok {args : Arguments} {a : Artifact}
    (h : (r.tryLower (.direct : Runner Id) site args).run=.ok a) :
    ∃ e overload, r.find? site.function=some e ∧ e.signature.select site.argTypes=.ok overload ∧
      (r.dispatch (.direct : Runner Id) e site overload.returns args).run=.ok a := by
  have matching : ¬site.argTypes.length≠args.size := by
    intro hne
    rw [tryLower,if_pos hne] at h
    cases h
  rw [tryLower,if_neg matching] at h
  obtain ⟨e,he,selected⟩ := Failure.bind_id_ok h
  obtain ⟨overload,ho,adapted⟩ := Failure.bind_id_ok selected
  refine ⟨e,overload,resolve_ok_iff.mp he,ho,?_⟩
  cases hx : (r.dispatch (.direct : Runner Id) e site overload.returns args).run with
  | ok a =>
    have kept := congrArg (Except.mapError afterCheck) hx
    cases kept.symm.trans adapted
    rfl
  | error e =>
    have failed := congrArg (Except.mapError afterCheck) hx
    cases failed.symm.trans adapted

/-- What the bytecode capability of a function made of a call, with its type narrowed to the declared one. -/
theorem dispatch_bytecode_ok {e : FunctionEntry} {c : BytecodeLowering} {es : List TypedExpr}
    {returns : SemanticType} {t : TypedExpr} (hc : e.capabilities.bytecode=some c)
    (h : (r.dispatch (.direct : Runner Id) e site returns (.bytecode es)).run=.ok (.expression t)) :
    ∃ t' b', c es ⟨site.function,r.config,e.runtimes,site.firstLocal⟩=(.ok t',b') ∧ t=t'.narrow returns := by
  rw [dispatch,hc] at h
  obtain ⟨t',ht',narrowed⟩ := Failure.bind_id_ok h
  cases narrowed
  exact ⟨t',_,Prod.ext ht' rfl,rfl⟩

theorem expr_narrow (t : TypedExpr) (declared : SemanticType) : (t.narrow declared).expr=t.expr := by
  rw [TypedExpr.narrow]
  split <;> rfl

/-- A call that was not reported is what the capability of its function made of it. -/
theorem lower_expression {es : List TypedExpr} {t : TypedExpr}
    (h : r.lower site (.bytecode es) log=(.ok (.expression t),log)) {e : FunctionEntry} {c : BytecodeLowering}
    (he : r.find? site.function=some e) (hc : e.capabilities.bytecode=some c) :
    ∃ t' b', c es ⟨site.function,r.config,e.runtimes,site.firstLocal⟩=(.ok t',b') ∧ t.expr=t'.expr := by
  obtain ⟨e',overload,he',-,dispatched⟩ := tryLower_ok (lower_ok h)
  cases he'.symm.trans he
  obtain ⟨t',b',ht,rfl⟩ := dispatch_bytecode_ok hc dispatched
  exact ⟨t',b',ht,expr_narrow t' overload.returns⟩

end Registry

end CallLowering
