import CallLowering.Proofs.Deferred.Materialized
import CallLowering.Proofs.Library.Description

namespace CallLowering

/-- Arguments and what they are passed as, each in the representation of its parameter, as far as there are both. -/
abbrev Expr.Paired (es : List Expr) (params : List Rep) : List Expr → Prop :=
  List.Forall₂ (fun (a : Expr × Rep) e' => a.1.coerce a.2=.ok e') (es.zip params)

/-- The same of descriptions, which are materialized first. -/
abbrev Deferred.Paired (ds : List Deferred) (params : List Rep) : List Expr → Prop :=
  List.Forall₂ (fun (a : Deferred × Rep) e' => ∃ t, a.1.materialize=.ok t ∧ t.expr.coerce a.2=.ok e') (ds.zip params)

section

variable {α β : Type} {R : α × Rep → Expr → Prop} {as : List α} {params : List Rep} {es : List Expr}

/-- What is passed is in the representations of the parameters, if there is an argument for each of them. -/
theorem rep_of_paired (hR : ∀ a e, R a e → e.rep=a.2) (hl : params.length ≤ as.length)
    (h : List.Forall₂ R (as.zip params) es) : es.map Expr.rep=params := by
  have reps : List.Forall₂ (fun (p : Rep) e => p=Expr.rep e) ((as.zip params).map Prod.snd) es :=
    List.forall₂_map_left_iff.mpr (h.imp fun a e he => (hR a e he).symm)
  rw [List.map_snd_zip hl] at reps
  exact (List.forall₂_eq_eq_eq ▸ List.forall₂_map_right_iff.mpr reps : params=es.map Expr.rep).symm

theorem length_le_of_paired (h : List.Forall₂ R (as.zip params) es) (hl : es.length=params.length) :
    params.length ≤ as.length := by
  have count := h.length_eq
  rw [List.length_zip,hl] at count
  omega

end

theorem coerceAll_iff {es es' : List Expr} {params : List Rep} :
    coerceAll es params=.ok es' ↔ Expr.Paired es params es' := by
  induction es generalizing params es' with
  | nil =>
    rw [Expr.Paired,List.zip_nil_left,List.forall₂_nil_left_iff]
    exact ⟨fun h => (Except.ok.inj h).symm,by rintro rfl; rfl⟩
  | cons e es ih =>
    cases params with
    | nil =>
      rw [Expr.Paired,List.zip_nil_right,List.forall₂_nil_left_iff]
      exact ⟨fun h => (Except.ok.inj h).symm,by rintro rfl; rfl⟩
    | cons p params =>
      rw [Expr.Paired,List.zip_cons_cons,List.forall₂_cons_left_iff]
      constructor
      · intro h
        obtain ⟨e',he,h⟩ := Failure.bind_ok h
        obtain ⟨rest,hrest,h⟩ := Failure.bind_ok h
        cases h
        exact ⟨e',rest,he,ih.mp hrest,rfl⟩
      · rintro ⟨e',rest,he,hrest,rfl⟩
        rw [coerceAll,he,ih.mpr hrest]
        rfl

theorem Deferred.materializeArgs_iff {ds : List Deferred} {params : List Rep} {es : List Expr} :
    materializeArgs ds params=.ok es ↔ Deferred.Paired ds params es := by
  induction ds generalizing params es with
  | nil =>
    rw [Deferred.Paired,List.zip_nil_left,List.forall₂_nil_left_iff]
    exact ⟨fun h => (Except.ok.inj h).symm,by rintro rfl; rfl⟩
  | cons d ds ih =>
    cases params with
    | nil =>
      rw [Deferred.Paired,List.zip_nil_right,List.forall₂_nil_left_iff]
      exact ⟨fun h => (Except.ok.inj h).symm,by rintro rfl; rfl⟩
    | cons p params =>
      rw [Deferred.Paired,List.zip_cons_cons,List.forall₂_cons_left_iff,materializeArgs]
      constructor
      · intro h
        obtain ⟨t,ht,h⟩ := Failure.bind_ok h
        obtain ⟨e',he,h⟩ := Failure.bind_ok h
        obtain ⟨rest,hrest,h⟩ := Failure.bind_ok h
        cases h
        exact ⟨e',rest,⟨t,ht,he⟩,ih.mp hrest,rfl⟩
      · rintro ⟨e',rest,⟨t,ht,he⟩,hrest,rfl⟩
        rw [ht,ih.mpr hrest]
        change (t.expr.coerce p >>= fun e => pure (e::rest))=_
        rw [he]
        rfl

section

variable {α : Type} {R : α × Rep → Expr → Prop} {as : List α} {es : List Expr} {m : Method} {e : Expr}

/-- A call of what was paired is built if there is one expression for each parameter. -/
theorem Method.invoke_paired (hR : ∀ a e, R a e → e.rep=a.2) (h : List.Forall₂ R (as.zip m.params) es) :
    m.invoke es=.ok e ↔ m.arity ≤ as.length ∧ e=.invoke m es := by
  constructor
  · intro he
    obtain ⟨count,rfl⟩ := Method.invoke_ok he
    exact ⟨length_le_of_paired h count,rfl⟩
  · rintro ⟨hl,rfl⟩
    exact Method.invoke_of_rep (rep_of_paired hR hl h)

end

theorem coerceAll_take (es : List Expr) (params : List Rep) :
    coerceAll (es.take params.length) params=coerceAll es params := by
  induction es generalizing params with
  | nil => rw [List.take_nil]
  | cons e es ih =>
    cases params with
    | nil => rfl
    | cons p params => rw [List.length_cons,List.take_succ_cons,coerceAll,coerceAll,ih]

namespace Deferred

theorem materializeArgs_take (ds : List Deferred) (params : List Rep) :
    materializeArgs (ds.take params.length) params=materializeArgs ds params := by
  induction ds generalizing params with
  | nil => rw [List.take_nil]
  | cons d ds ih =>
    cases params with
    | nil => rfl
    | cons p params => rw [List.length_cons,List.take_succ_cons,materializeArgs,materializeArgs,ih]

theorem materialize_call_iff {m : Method} {ds : List Deferred} {t : TypedExpr} :
    (call m ds).materialize=.ok t ↔
      m.arity ≤ ds.length ∧ ∃ es, Deferred.Paired ds m.params es ∧ t=⟨.invoke m es,m.returns.type⟩ := by
  have rep (a : Deferred × Rep) (e : Expr)
      (h : ∃ t, a.1.materialize=.ok t ∧ t.expr.coerce a.2=.ok e) : e.rep=a.2 := by
    obtain ⟨t,-,hc⟩ := h
    exact (Expr.coerced_of_coerce hc).rep_eq
  rw [materialize]
  constructor
  · intro h
    obtain ⟨es,hes,h⟩ := Failure.bind_ok h
    obtain ⟨e,he,h⟩ := Failure.bind_ok h
    cases h
    have paired := materializeArgs_iff.mp hes
    obtain ⟨hl,rfl⟩ := (Method.invoke_paired rep paired).mp he
    exact ⟨hl,es,paired,rfl⟩
  · rintro ⟨hl,es,paired,rfl⟩
    rw [materializeArgs_iff.mpr paired]
    change (m.invoke es >>= fun e => pure (⟨e,m.returns.type⟩ : TypedExpr))=_
    rw [(Method.invoke_paired rep paired).mpr ⟨hl,rfl⟩]
    rfl

end Deferred

namespace Build

theorem invoke_iff {m : Method} {es : List Expr} {b : Builder} {e : Expr} :
    (invoke m es b).1=.ok e ↔ (m.routine.onReceiver → b.runtimes.contains m.routine.owner) ∧
      m.arity ≤ es.length ∧ ∃ es', Expr.Paired es m.params es' ∧ e=.invoke m es' := by
  have rep (a : Expr × Rep) (e : Expr) (h : a.1.coerce a.2=.ok e) : e.rep=a.2 := (Expr.coerced_of_coerce h).rep_eq
  rw [invoke_result]
  by_cases hr : (m.routine.onReceiver && !b.runtimes.contains m.routine.owner)=true
  · rw [if_pos hr]
    obtain ⟨receiver,absent⟩ : m.routine.onReceiver ∧ b.runtimes.contains m.routine.owner=false := by simpa using hr
    constructor
    · intro h
      cases h
    · rintro ⟨registered,-⟩
      rw [registered receiver] at absent
      cases absent
  · rw [if_neg hr]
    have registered : m.routine.onReceiver → b.runtimes.contains m.routine.owner := by simpa using hr
    constructor
    · intro h
      obtain ⟨es',hes,h⟩ := Failure.bind_ok h
      have paired := coerceAll_iff.mp hes
      obtain ⟨hl,rfl⟩ := (Method.invoke_paired rep paired).mp h
      exact ⟨registered,hl,es',paired,rfl⟩
    · rintro ⟨-,hl,es',paired,rfl⟩
      rw [coerceAll_iff.mpr paired]
      exact (Method.invoke_paired rep paired).mpr ⟨hl,rfl⟩

theorem invoke_take (m : Method) (es : List Expr) : invoke m (es.take m.arity)=invoke m es := by
  unfold invoke
  rw [Method.arity,coerceAll_take]

end Build

/-- A call is built of the leading arguments, one for each parameter and in their order, and fails if there are too
few or one of these does not go into the representation of its parameter. What comes after them does not matter. -/
theorem calls_take_leading (m : Method) :
    (∀ es : List Expr, Build.invoke m (es.take m.arity)=Build.invoke m es ∧ ∀ (b : Builder) (e : Expr),
      ((Build.invoke m es b).1=.ok e ↔ (m.routine.onReceiver → b.runtimes.contains m.routine.owner) ∧
        m.arity ≤ es.length ∧ ∃ es', Expr.Paired es m.params es' ∧ e=.invoke m es')) ∧
    ∀ ds : List Deferred, (Deferred.call m (ds.take m.arity)).materialize=(Deferred.call m ds).materialize ∧
      ∀ t : TypedExpr, ((Deferred.call m ds).materialize=.ok t ↔
        m.arity ≤ ds.length ∧ ∃ es, Deferred.Paired ds m.params es ∧ t=⟨.invoke m es,m.returns.type⟩) := by
  refine ⟨fun es => ⟨Build.invoke_take m es,fun b e => Build.invoke_iff⟩,
    fun ds => ⟨?_,fun t => Deferred.materialize_call_iff⟩⟩
  rw [Deferred.materialize,Deferred.materialize,Method.arity,Deferred.materializeArgs_take]

/-- A progression up to one, and a second argument that is lost. -/
theorem not_calls_counted :
    let upTo := Library.boxedMethod .rangeTo [.int64]
    upTo.arity≠2 ∧
      (∀ b : Builder, (Build.invoke upTo [.int 1,.int 2] b).1=.ok (.invoke upTo [.int 1])) ∧
      (Deferred.call upTo [.int 1,.int 2]).materialize=.ok ⟨.invoke upTo [.int 1],.unknown⟩ :=
  ⟨by decide,fun _ => rfl,rfl⟩

end CallLowering
