import CallLowering.Proofs.Deferred.Interpreted
import CallLowering.Proofs.Expr.Conversion
import CallLowering.Proofs.Library.Sound

namespace CallLowering

open CallLowering.Expr

namespace Deferred

variable {d : Deferred} {ds : List Deferred} {params : List Rep} {t : TypedExpr}

/-- Arguments, and the expressions that they are passed as. -/
inductive Passed : List Deferred → List Rep → List Expr → Prop
  | nil : Passed [] [] []
  | cons {d : Deferred} {ds : List Deferred} {p : Rep} {params : List Rep} {t : TypedExpr} {e : Expr}
      {es : List Expr} (h : d.materialize=.ok t) (hc : t.expr.coerce p=.ok e) (rest : Passed ds params es) :
      Passed (d::ds) (p::params) (e::es)

/-- Items, and what is put into the boxes of the list. -/
abbrev Boxed : List Deferred → List TypedExpr → Prop :=
  List.Forall₂ fun d t' => ∃ t, d.materialize=.ok t ∧ t.coerce .boxed=.ok t'

theorem passed_of_ok {es : List Expr} (hl : ds.length=params.length) (h : materializeArgs ds params=.ok es) :
    Passed ds params es := by
  induction ds generalizing params es with
  | nil =>
    have none : params=[] := List.length_eq_zero_iff.mp hl.symm
    rw [none] at h ⊢
    cases h
    exact .nil
  | cons d ds ih =>
    cases params with
    | nil => cases hl
    | cons p params =>
      rw [materializeArgs] at h
      obtain ⟨t,ht,h⟩ := Failure.bind_ok h
      obtain ⟨e,he,h⟩ := Failure.bind_ok h
      obtain ⟨es,hes,h⟩ := Failure.bind_ok h
      cases h
      exact .cons ht he (ih (Nat.succ.inj hl) hes)

theorem boxed_of_ok {ts : List TypedExpr} (h : materializeItems ds=.ok ts) : Boxed ds ts := by
  induction ds generalizing ts with
  | nil =>
    cases h
    exact .nil
  | cons d ds ih =>
    rw [materializeItems] at h
    obtain ⟨t,ht,h⟩ := Failure.bind_ok h
    obtain ⟨t',ht',h⟩ := Failure.bind_ok h
    obtain ⟨ts,hts,h⟩ := Failure.bind_ok h
    cases h
    exact .cons ⟨t,ht,ht'⟩ (ih hts)

theorem Passed.rep {es : List Expr} (h : Passed ds params es) : es.map Expr.rep=params := by
  induction h with
  | nil => rfl
  | cons h hc rest ih => rw [List.map_cons,(coerced_of_coerce hc).rep_eq,ih]

/-- What a call becomes. -/
theorem call_of_ok {m : Method} (hl : ds.length=m.params.length) (h : (call m ds).materialize=.ok t) :
    ∃ es, Passed ds m.params es ∧ t=⟨.invoke m es,m.returns.type⟩ := by
  rw [materialize] at h
  obtain ⟨es,hes,h⟩ := Failure.bind_ok h
  obtain ⟨e,he,h⟩ := Failure.bind_ok h
  cases h
  exact ⟨es,passed_of_ok hl hes,by rw [(Method.invoke_ok he).2]⟩

/-- What a list becomes. -/
theorem list_of_ok (h : (list ds).materialize=.ok t) : ∃ ts, Boxed ds ts ∧
    t=⟨.list (ts.map TypedExpr.expr),.list (commonType (ts.map TypedExpr.type))⟩ := by
  rw [materialize] at h
  obtain ⟨ts,hts,h⟩ := Failure.bind_ok h
  cases h
  exact ⟨ts,boxed_of_ok hts,rfl⟩

theorem coerce_typed {t t' : TypedExpr} {target : Rep} (h : t.coerce target=.ok t') :
    t.expr.coerce target=.ok t'.expr ∧ t'.type=t.type := by
  rw [TypedExpr.coerce] at h
  cases hc : t.expr.coerce target with
  | error error =>
    rw [hc] at h
    cases h
  | ok e =>
    rw [hc] at h
    cases h
    exact ⟨rfl,rfl⟩

theorem materialize_rep (h : d.materialize=.ok t) : t.expr.rep=d.rep := by
  cases d with
  | leaf e =>
    cases h
    rfl
  | constant slot =>
    cases h
    rfl
  | call m ds =>
    rw [materialize] at h
    obtain ⟨es,hes,h⟩ := Failure.bind_ok h
    obtain ⟨e,he,h⟩ := Failure.bind_ok h
    cases h
    rw [(Method.invoke_ok he).2]
    rfl
  | list ds =>
    obtain ⟨ts,-,rfl⟩ := list_of_ok h
    rfl

theorem Boxed.types {ts : List TypedExpr} (h : Boxed ds ts)
    (ih : ∀ d∈ds, ∀ t, d.materialize=.ok t → t.type=d.type) : ts.map TypedExpr.type=typesOf ds := by
  induction h with
  | nil => rfl
  | cons first rest ihs =>
    obtain ⟨t,ht,hc⟩ := first
    have tail := ihs fun d hd => ih d (by simp [hd])
    rw [List.map_cons,typesOf,(coerce_typed hc).2,ih _ (by simp) t ht,tail]

theorem materialize_type (h : d.materialize=.ok t) : t.type=d.type := by
  induction d generalizing t with
  | leaf e =>
    cases h
    rfl
  | constant slot =>
    cases h
    rfl
  | call m ds _ =>
    rw [materialize] at h
    obtain ⟨es,hes,h⟩ := Failure.bind_ok h
    obtain ⟨e,he,h⟩ := Failure.bind_ok h
    cases h
    rfl
  | list ds ih =>
    obtain ⟨ts,boxed,rfl⟩ := list_of_ok h
    rw [type,←boxed.types fun d hd t ht => ih d hd ht]

theorem clashes_call {m : Method} : (call m ds).Clashes ↔
    (∃ p∈ds.zip m.params, p.1.rep.Apart p.2) ∨ (list ds).Clashes := by
  simp only [Clashes,calls,List.mem_cons]
  constructor
  · rintro ⟨c,rfl|hc,clash⟩
    · exact .inl clash
    · exact .inr ⟨c,hc,clash⟩
  · rintro (clash|⟨c,hc,clash⟩)
    · exact ⟨_,.inl rfl,clash⟩
    · exact ⟨c,.inr hc,clash⟩

theorem clashes_cons : (list (d::ds)).Clashes ↔ d.Clashes ∨ (list ds).Clashes := by
  simp only [Clashes,calls,callsOf,List.mem_append]
  constructor
  · rintro ⟨c,hc|hc,clash⟩
    · exact .inl ⟨c,hc,clash⟩
    · exact .inr ⟨c,hc,clash⟩
  · rintro (⟨c,hc,clash⟩|⟨c,hc,clash⟩)
    · exact ⟨c,.inl hc,clash⟩
    · exact ⟨c,.inr hc,clash⟩

theorem not_clashes_nil : ¬(list []).Clashes := by simp [Clashes,calls,callsOf]

theorem Counted.of_call {m : Method} (h : (call m ds).Counted) :
    ds.length=m.params.length ∧ ∀ d∈ds, d.Counted := by
  refine ⟨h (m,ds) (by simp [calls]),fun d hd c hc => h c ?_⟩
  simp only [calls,List.mem_cons,mem_callsOf]
  exact .inr ⟨d,hd,hc⟩

theorem Counted.of_list (h : (list ds).Counted) : ∀ d∈ds, d.Counted :=
  fun d hd c hc => h c (by simpa [calls] using ⟨d,hd,hc⟩)

/-- How a computation of an expression, or of several, ends: well if nothing clashes, and with an internal error
if something does. -/
inductive Ends {α : Type} (clashes : Prop) : Except LowerError α → Prop
  | ok {a : α} (h : ¬clashes) : Ends clashes (.ok a)
  | error {message : String} (h : clashes) : Ends clashes (.error (.internal message))

namespace Ends

variable {α β : Type} {P Q : Prop} {x : Except LowerError α}

theorem congr (h : Ends P x) (hPQ : P ↔ Q) : Ends Q x := by
  cases h with
  | ok h => exact .ok fun hQ => h (hPQ.mpr hQ)
  | error h => exact .error (hPQ.mp h)

theorem bind {f : α → Except LowerError β} (h : Ends P x) (hf : ∀ a, x=.ok a → Ends Q (f a)) :
    Ends (P ∨ Q) (x >>= f) := by
  cases h with
  | @ok a h =>
    refine (hf a rfl).congr ?_
    simp [h]
  | error h => exact .error (.inl h)

end Ends

theorem coerce_ends (e : Expr) (target : Rep) : Ends (e.rep.Apart target) (e.coerce target) := by
  by_cases h : e.rep.Apart target
  · rw [coerce_of_apart h]
    exact .error h
  · obtain ⟨e',he'⟩ := exists_coerce h
    rw [he']
    exact .ok h

theorem materializeArgs_ends (hl : ds.length=params.length) (ih : ∀ d∈ds, Ends d.Clashes d.materialize) :
    Ends ((∃ p∈ds.zip params, p.1.rep.Apart p.2) ∨ (list ds).Clashes) (materializeArgs ds params) := by
  induction ds generalizing params with
  | nil => exact .ok (by simpa using not_clashes_nil)
  | cons d ds ihs =>
    cases params with
    | nil => cases hl
    | cons p params =>
      have first : Ends (d.Clashes ∨ d.rep.Apart p) (do (← d.materialize).expr.coerce p) :=
        (ih d (by simp)).bind fun t ht => materialize_rep ht ▸ coerce_ends t.expr p
      have rest := ihs (Nat.succ.inj hl) fun d hd => ih d (by simp [hd])
      have both := first.bind fun e _ => rest.bind fun es _ => Ends.ok (a := e::es) not_false
      rw [bind_assoc] at both
      refine both.congr ?_
      rw [clashes_cons,List.zip_cons_cons]
      simp only [List.mem_cons,exists_eq_or_imp,or_false,or_assoc,or_left_comm]

theorem materializeItems_ends (ih : ∀ d∈ds, Ends d.Clashes d.materialize) :
    Ends (list ds).Clashes (materializeItems ds) := by
  induction ds with
  | nil => exact .ok not_clashes_nil
  | cons d ds ihs =>
    have rest := ihs fun d hd => ih d (by simp [hd])
    have boxes (t : TypedExpr) : Ends False (t.coerce .boxed) := by
      obtain ⟨e',-,he'⟩ := t.expr.exists_coerce_boxed
      rw [TypedExpr.coerce,he']
      exact .ok not_false
    have all := (ih d (by simp)).bind fun t _ => (boxes t).bind fun t' _ => rest.bind fun ts _ =>
      Ends.ok (a := t'::ts) not_false
    exact all.congr (by rw [clashes_cons,false_or,or_false])

theorem materialize_ends (d : Deferred) (hc : d.Counted) : Ends d.Clashes d.materialize := by
  induction d with
  | leaf e => exact .ok (by simp [Clashes,calls])
  | constant slot => exact .ok (by simp [Clashes,calls])
  | call m ds ih =>
    obtain ⟨hl,counted⟩ := hc.of_call
    have args := materializeArgs_ends hl fun d hd => ih d hd (counted d hd)
    rw [materialize]
    refine (args.bind (Q := False) fun es hes => ?_).congr (by rw [clashes_call,or_false])
    rw [Method.invoke_of_rep (passed_of_ok hl hes).rep]
    exact .ok not_false
  | list ds ih =>
    have items := materializeItems_ends fun d hd => ih d hd (hc.of_list d hd)
    rw [materialize]
    exact (items.bind fun _ _ => Ends.ok not_false).congr (by rw [or_false])

section

variable {σ : Type} {host : Host σ} {args : List Slot}

/-- Arguments that mean what is passed. -/
theorem Passed.meanings {es : List Expr} (h : Passed ds params es)
    (ih : ∀ d∈ds, ∀ t, d.materialize=.ok t → t.expr.meaning host args Scope.empty=d.interpret host args ∧
      Run.Ensures (fun slot => slot.rep=d.rep) (fun _ => True) (d.interpret host args)) :
    Expr.meanings host args Scope.empty es=interpretArgs host args ds params := by
  induction h with
  | nil => rfl
  | @cons d ds p params t e es h hc rest ihs =>
    obtain ⟨means,rep⟩ := ih d (by simp) t h
    have same (hr : t.expr.rep=p) : Run.Ensures (fun slot => slot.rep=p) (fun _ => True)
        (t.expr.meaning host args Scope.empty) := by
      rw [means,←hr,materialize_rep h]
      exact rep
    rw [Expr.meanings,interpretArgs,(coerced_of_coerce hc).meaning Scope.empty same,means,bind_assoc,
      ihs fun d hd => ih d (by simp [hd])]

/-- Items that mean what the list holds. -/
theorem Boxed.meanings {ts : List TypedExpr} (h : Boxed ds ts)
    (ih : ∀ d∈ds, ∀ t, d.materialize=.ok t → t.expr.meaning host args Scope.empty=d.interpret host args ∧
      Run.Ensures (fun slot => slot.rep=d.rep) (fun _ => True) (d.interpret host args)) :
    (do return (← Expr.meanings host args Scope.empty (ts.map TypedExpr.expr)).map Slot.toValue)=
      interpretItems host args ds := by
  induction h with
  | nil => rfl
  | @cons d t' ds ts first rest ihs =>
    obtain ⟨t,h,hc⟩ := first
    obtain ⟨means,rep⟩ := ih d (by simp) t h
    have boxed : t'.expr.meaning host args Scope.empty=(do return (← d.interpret host args).box) := by
      rw [(coerced_of_coerce (coerce_typed hc).1).meaning Scope.empty fun hr => hr ▸ means ▸ materialize_rep h ▸ rep,
        means]
      simp only [Slot.convert_boxed]
      rfl
    rw [List.map_cons,Expr.meanings,interpretItems,boxed,←ihs fun d hd => ih d (by simp [hd])]
    simp only [bind_assoc,pure_bind]
    rfl

/-- The expression means what the description stands for. -/
theorem materialize_meaning (hd : d.WellFormed host args) (h : d.materialize=.ok t) :
    t.expr.meaning host args Scope.empty=d.interpret host args := by
  induction d generalizing t with
  | leaf e =>
    cases h
    rfl
  | constant slot =>
    cases h
    rfl
  | call m ds ih =>
    obtain ⟨es,passed,rfl⟩ := call_of_ok hd.counted.of_call.1 h
    rw [Expr.meaning,interpret,passed.meanings fun d hm t ht =>
      ⟨ih d hm (hd.of_call.of_list hm) ht,interpret_rep (hd.of_call.of_list hm)⟩]
  | list ds ih =>
    obtain ⟨ts,boxed,rfl⟩ := list_of_ok h
    rw [Expr.meaning,interpret,←boxed.meanings fun d hm t ht =>
      ⟨ih d hm (hd.of_list hm) ht,interpret_rep (hd.of_list hm)⟩]
    simp only [bind_assoc,pure_bind]

end

theorem Passed.exists_of_mem {es : List Expr} (h : Passed ds params es) {e : Expr} (he : e∈es) :
    ∃ d∈ds, ∃ t p, d.materialize=.ok t ∧ t.expr.coerce p=.ok e := by
  induction h with
  | nil => cases he
  | cons h hc rest ih =>
    obtain rfl|he := List.mem_cons.mp he
    · exact ⟨_,by simp,_,_,h,hc⟩
    · obtain ⟨d,hd,rest⟩ := ih he
      exact ⟨d,by simp [hd],rest⟩

theorem Boxed.exists_of_mem {ts : List TypedExpr} (h : Boxed ds ts) {e : TypedExpr} (he : e∈ts) :
    ∃ d∈ds, ∃ t, d.materialize=.ok t ∧ t.coerce .boxed=.ok e := by
  obtain ⟨i,hi,rfl⟩ := List.mem_iff_getElem.mp he
  exact ⟨_,List.getElem_mem _,h.get (h.length_eq ▸ hi) hi⟩

theorem materialize_closed (hc : d.Counted) (hl : ∀ e∈d.leaves, e.expr.isClosed []) (h : d.materialize=.ok t) :
    t.expr.isClosed [] := by
  induction d generalizing t with
  | leaf e =>
    cases h
    exact hl _ (by simp [leaves])
  | constant slot =>
    cases h
    rfl
  | call m ds ih =>
    obtain ⟨hlen,counted⟩ := hc.of_call
    obtain ⟨es,passed,rfl⟩ := call_of_ok hlen h
    simp only [isClosed,areClosed_iff]
    intro e he
    obtain ⟨d,hd,t,p,ht,coerced⟩ := passed.exists_of_mem he
    exact (coerced_of_coerce coerced).isClosed
      (ih d hd (counted d hd) (fun e he => hl e (by simpa [leaves] using ⟨d,hd,he⟩)) ht)
  | list ds ih =>
    obtain ⟨ts,boxed,rfl⟩ := list_of_ok h
    simp only [isClosed,areClosed_iff,List.mem_map]
    rintro _ ⟨e,he,rfl⟩
    obtain ⟨d,hd,t,ht,coerced⟩ := boxed.exists_of_mem he
    exact (coerced_of_coerce (coerce_typed coerced).1).isClosed
      (ih d hd (hc.of_list d hd) (fun e he => hl e (by simpa [leaves] using ⟨d,hd,he⟩)) ht)

theorem Passed.exists_of_arg {es : List Expr} (h : Passed ds params es) (hd : d∈ds) :
    ∃ t p, ∃ e∈es, d.materialize=.ok t ∧ t.expr.coerce p=.ok e := by
  induction h with
  | nil => cases hd
  | cons h hc rest ih =>
    obtain rfl|hd := List.mem_cons.mp hd
    · exact ⟨_,_,_,by simp,h,hc⟩
    · obtain ⟨t,p,e,he,rest⟩ := ih hd
      exact ⟨t,p,e,by simp [he],rest⟩

theorem Boxed.exists_of_item {ts : List TypedExpr} (h : Boxed ds ts) (hd : d∈ds) :
    ∃ t, ∃ e∈ts, d.materialize=.ok t ∧ t.coerce .boxed=.ok e := by
  obtain ⟨i,hi,rfl⟩ := List.mem_iff_getElem.mp hd
  obtain ⟨t,ht,hc⟩ := h.get hi (h.length_eq ▸ hi)
  exact ⟨t,_,List.getElem_mem _,ht,hc⟩

/-- A tree that is not itself a constant keeps its constants in another representation. -/
theorem constants_of_coerced {e e' : Expr} {target : Rep} (h : Coerced target e e') (hn : ∀ slot, e≠.const slot) :
    e'.constants=e.constants := by
  cases h with
  | folded h => exact absurd rfl (hn _)
  | _ => rfl

/-- Only an expression that is nothing but a constant may lose it. -/
theorem leaf_constants (hc : d.Counted) {e : TypedExpr} (he : e∈d.leaves) (hn : ∀ slot, e.expr≠.const slot)
    (h : d.materialize=.ok t) : (∀ slot, t.expr≠.const slot) ∧ e.expr.constants⊆t.expr.constants := by
  induction d generalizing t with
  | leaf e' =>
    cases h
    rw [List.mem_singleton.mp he] at hn ⊢
    exact ⟨hn,List.Subset.refl _⟩
  | constant slot => cases he
  | call m ds ih =>
    obtain ⟨hlen,counted⟩ := hc.of_call
    obtain ⟨es,passed,rfl⟩ := call_of_ok hlen h
    obtain ⟨d,hd,he⟩ := mem_leavesOf.mp he
    obtain ⟨t,p,e',he',ht,coerced⟩ := passed.exists_of_arg hd
    obtain ⟨more,inside⟩ := ih d hd (counted d hd) he ht
    refine ⟨nofun,fun k hk => mem_constantsOf.mpr ⟨e',he',?_⟩⟩
    rw [constants_of_coerced (coerced_of_coerce coerced) more]
    exact inside hk
  | list ds ih =>
    obtain ⟨ts,boxed,rfl⟩ := list_of_ok h
    obtain ⟨d,hd,he⟩ := mem_leavesOf.mp he
    obtain ⟨t,e',he',ht,coerced⟩ := boxed.exists_of_item hd
    obtain ⟨more,inside⟩ := ih d hd (hc.of_list d hd) he ht
    refine ⟨nofun,fun k hk => mem_constantsOf.mpr ⟨e'.expr,List.mem_map_of_mem he',?_⟩⟩
    rw [constants_of_coerced (coerced_of_coerce (coerce_typed coerced).1) more]
    exact inside hk

theorem leaf_evaluate {σ : Type} {host : Host σ} {args : List Slot} (hc : d.Counted) {e : TypedExpr}
    (he : e∈d.leaves) (hl : e.expr.isClosed []) (h : d.materialize=.ok t) (hk : Slot.Distinct t.expr.constants)
    {c : Chunk} (hemit : e.expr.emit=.ok c) :
    e.expr.evaluate host args=e.expr.meaning host args Scope.empty := by
  by_cases hn : ∀ slot, e.expr≠.const slot
  · have distinct : Slot.Distinct e.expr.constants := hk.mono (leaf_constants hc he hn h).2
    rw [evaluate_closed hemit hl,mapConstants_eq_self e.expr (pooled_eq_self hemit distinct)]
  · obtain ⟨slot,hs⟩ := not_forall_not.mp hn
    rw [hs,evaluate_const]
    rfl

/-- Where calls have as many arguments as their routines have parameters, a description has no expression just if
an argument that is bare can only be held apart from what its parameter asks for. Otherwise the expression is held
as the description says, and once it is compiled it computes what the description stands for, if routines keep their
word and no constant takes the place of another; then its value is of its type, if the values of the expressions in
the description are of theirs. -/
theorem materialize_interprets (hc : d.Counted) :
    ((∃ error, d.materialize=.error error) ↔ d.Clashes) ∧
    (∀ error, d.materialize=.error error → ∃ message, error=.internal message) ∧
    ∀ t, d.materialize=.ok t → t.expr.rep=d.rep ∧
      ∀ {σ : Type} (host : Host σ) (args : List Slot) (c : Chunk), t.expr.emit=.ok c →
        (∀ e∈d.leaves, e.expr.isTyped (args.map Slot.rep) []) → Slot.Distinct t.expr.constants →
        host.Keeps d.methods →
        t.expr.evaluate host args=d.interpret host args ∧
        (∀ e∈d.leaves, ∀ c, e.expr.emit=.ok c → e.expr.evaluate host args=e.expr.meaning host args Scope.empty) ∧
        ((∀ e∈d.leaves, Run.Ensures (fun slot => e.type.admits slot.toValue) (fun _ => True)
            (e.expr.meaning host args Scope.empty)) →
          Run.Ensures (fun slot => t.type.admits slot.toValue) (fun _ => True) (t.expr.evaluate host args)) := by
  have ends := d.materialize_ends hc
  refine ⟨?_,?_,fun t h => ⟨materialize_rep h,fun host args c hemit hl distinct hk => ?_⟩⟩
  · generalize d.materialize=x at ends
    cases ends with
    | ok clear => simp [clear]
    | error clash => simp [clash]
  · intro error h
    rw [h] at ends
    cases ends
    exact ⟨_,rfl⟩
  · have wellFormed : d.WellFormed host args := ⟨hc,hl,hk⟩
    have closed : ∀ e∈d.leaves, e.expr.isClosed [] := fun e he => isClosed_of_isTyped e.expr (hl e he)
    have evaluated : t.expr.evaluate host args=d.interpret host args := by
      rw [evaluate_closed hemit (materialize_closed hc closed h),
        mapConstants_eq_self t.expr (pooled_eq_self hemit distinct),materialize_meaning wellFormed h]
    refine ⟨evaluated,fun e he c hemit => leaf_evaluate hc he (closed e he) h distinct hemit,fun he => ?_⟩
    rw [evaluated,materialize_type h]
    exact d.interpret_admits wellFormed he

/-- The larger of an argument and of a constant that is rounded, beside a truth value. -/
def largerRounded : Deferred :=
  list [call ⟨Builtin.max.routine basicOwner [.boxed,.boxed] .boxed,false⟩ [leaf ⟨.arg 0 .int64,.int⟩,
    call ⟨Builtin.nativeCeil.routine mathOwner [.float64] .float64,true⟩ [constant (.int64 7)]],constant (.bool true)]

theorem materialize_interprets_largerRounded :
    let host := Instances.host fun _ _ _ => .error (.missingReceiver "Host")
    let args : List Slot := [.int64 5]
    ∃ t, largerRounded.materialize=.ok t ∧ t.type=.list .unknown ∧ t.expr.rep=.boxed ∧
      t.expr.evaluate host args=largerRounded.interpret host args ∧
      Run.Ensures (fun slot => t.type.admits slot.toValue) (fun _ => True) (t.expr.evaluate host args) := by
  intro host args
  have counted : largerRounded.Counted := by
    simp [Counted,largerRounded,calls,callsOf,Method.arity,Method.params,Builtin.routine]
  have typed : ∀ e∈largerRounded.leaves, e.expr.isTyped (args.map Slot.rep) [] := by
    simp [largerRounded,leaves,leavesOf,isTyped,args,Slot.rep]
  have keeps : host.Keeps largerRounded.methods := Instances.host_keeps _ (by decide)
  have admitted : ∀ e∈largerRounded.leaves, Run.Ensures (fun slot => e.type.admits slot.toValue) (fun _ => True)
      (e.expr.meaning host args Scope.empty) := by
    intro e he
    obtain rfl := List.mem_singleton.mp he
    exact .pure rfl
  let rounded : Expr := .invoke ⟨Builtin.nativeCeil.routine mathOwner [.float64] .float64,true⟩ [.float (.ofInt 7)]
  let larger : Expr := .invoke ⟨Builtin.max.routine basicOwner [.boxed,.boxed] .boxed,false⟩
    [.box (.arg 0 .int64),.box rounded]
  let t : TypedExpr := ⟨.list [larger,.const (.boxed (.bool true))],.list .unknown⟩
  have made : largerRounded.materialize=.ok t := rfl
  obtain ⟨c,hemit⟩ : ∃ c, t.expr.emit=.ok c := Emitter.emit_of_isCounted (by decide) (by decide)
  have distinct : Slot.Distinct t.expr.constants := by
    simp [Slot.Distinct,t,larger,rounded,float,constants,constantsOf,Slot.equals]
  obtain ⟨-,-,materialized⟩ := materialize_interprets counted
  obtain ⟨rep,interprets⟩ := materialized t made
  obtain ⟨evaluated,-,admits⟩ := interprets host args c hemit typed distinct keeps
  exact ⟨t,made,rfl,rep,evaluated,admits admitted⟩

/-- A routine that should draw a float but gives an integer, and routines that put all that they get into a list. -/
def drawnOrListed : Instances.Bodies := fun name _ slots =>
  .ok (if name="draw" then .int64 0 else .boxed (.list (slots.map Slot.toValue)))

/-- A routine that breaks its word is not converted to what it declares. And constants that are told apart may be
the same once they are in a box. -/
theorem not_materialize_interprets :
    let host := Instances.host drawnOrListed
    (let draw : Method := ⟨⟨"Host","draw",[],.float64,false,.foreign "draw"⟩,false⟩
      let wrap : Method := ⟨⟨"Host","wrap",[.float64],.boxed,false,.foreign "wrap"⟩,false⟩
      let d := call wrap [call draw []]
      ∃ t c, d.Counted ∧ d.leaves=[] ∧ d.materialize=.ok t ∧ t.expr.emit=.ok c ∧ Slot.Distinct t.expr.constants ∧
        t.expr.evaluate host [] .empty=(.ok (.boxed (.list [.int 0])),.empty) ∧
        d.interpret host [] .empty=(.ok (.boxed (.list [.float (.ofInt 0)])),.empty)) ∧
    (let pair : Method := ⟨⟨"Host","pair",[.boxed,.boxed],.boxed,false,.foreign "pair"⟩,false⟩
      let zero : Slot := .float64 ⟨0⟩
      let negative : Slot := .boxed (.float ⟨0x8000000000000000⟩)
      let d := call pair [constant zero,constant negative]
      ∃ t c, d.Counted ∧ d.leaves=[] ∧ host.Keeps d.methods ∧ d.materialize=.ok t ∧ t.expr.emit=.ok c ∧
        Slot.Distinct [zero,negative] ∧
        t.expr.evaluate host [] .empty=(.ok (.boxed (.list [.float ⟨0⟩,.float ⟨0⟩])),.empty) ∧
        d.interpret host [] .empty=
          (.ok (.boxed (.list [.float ⟨0⟩,.float ⟨0x8000000000000000⟩])),.empty)) := by
  intro host
  constructor
  · intro draw wrap d
    obtain ⟨c,hc⟩ : ∃ c, (Expr.invoke wrap [.invoke draw []]).emit=.ok c := ⟨_,by cbv⟩
    refine ⟨⟨.invoke wrap [.invoke draw []],.unknown⟩,c,?_,rfl,rfl,hc,?_,by cbv,rfl⟩
    · simp [Counted,d,wrap,draw,calls,callsOf,Method.arity,Method.params]
    · simp [Slot.Distinct,constants,constantsOf]
  · intro pair zero negative d
    let es : List Expr := [.const (.boxed (.float ⟨0⟩)),.const negative]
    obtain ⟨c,hc⟩ : ∃ c, (Expr.invoke pair es).emit=.ok c := ⟨_,by cbv⟩
    refine ⟨⟨.invoke pair es,.unknown⟩,c,?_,rfl,?_,rfl,hc,?_,by cbv,rfl⟩
    · simp [Counted,d,pair,calls,callsOf,Method.arity,Method.params]
    · intro m hm slots _ s slot t h
      obtain rfl : m=pair := by simpa [d,methods,calls,callsOf,leaves,leavesOf] using hm
      cases h
      rfl
    · simp [Slot.Distinct,zero,negative,Slot.equals]

end Deferred

end CallLowering
