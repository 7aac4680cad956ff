import CallLowering.Proofs.Lowering.Direct
import CallLowering.Proofs.SemanticType.Filling

namespace CallLowering

namespace TypedExpr

/-- Is the type of the expression kept, and not replaced by the declared one? -/
def Keeps (e : TypedExpr) (declared : SemanticType) : Prop :=
  declared.accepts e.type=true ∧ e.type.accepts declared=false

variable {e : TypedExpr} {declared : SemanticType}

theorem narrow_type (e : TypedExpr) (declared : SemanticType) :
    (e.Keeps declared ∧ (e.narrow declared).type=e.type) ∨
      (¬e.Keeps declared ∧ (e.narrow declared).type=declared) := by
  by_cases heq : e.type=declared
  · right
    refine ⟨?_,by rw [narrow,if_pos (.inl heq),heq]⟩
    rintro ⟨accepted,refused⟩
    rw [heq] at accepted refused
    cases accepted.symm.trans refused
  · by_cases hk : e.Keeps declared
    · left
      refine ⟨hk,?_⟩
      rw [narrow,if_pos (.inr ⟨hk.1,by simp [hk.2]⟩)]
    · right
      refine ⟨hk,?_⟩
      rw [narrow,if_neg]
      rintro (same|⟨accepted,refused⟩)
      · exact heq same
      · exact hk ⟨accepted,by simpa using refused⟩

theorem accepts_narrow (e : TypedExpr) (declared : SemanticType) :
    declared.accepts (e.narrow declared).type=true := by
  obtain ⟨⟨accepted,-⟩,same⟩|⟨-,same⟩ := e.narrow_type declared
  · rw [same]
    exact accepted
  · rw [same]
    exact declared.accepts_self

/-- Narrowing loses what the declared type states just where a type is kept that leaves it open. -/
theorem covers_narrow_iff (e : TypedExpr) (declared : SemanticType) :
    declared.Covers (e.narrow declared).type ↔ ¬(e.Keeps declared ∧ declared.opens e.type=true) := by
  obtain ⟨kept,same⟩|⟨replaced,same⟩ := e.narrow_type declared
  · rw [same,SemanticType.covers_iff kept.1]
    simp [kept]
  · rw [same]
    exact iff_of_true declared.covers_self fun h => replaced h.1

theorem covers_narrow (e : TypedExpr) (hm : declared.hasMap=false) : declared.Covers (e.narrow declared).type := by
  rw [covers_narrow_iff]
  rintro ⟨⟨accepted,refused⟩,opened⟩
  cases opened.symm.trans (SemanticType.not_opens hm accepted refused)

end TypedExpr

namespace Registry

/-- The expression that a function makes of a call: what its capability for bytecode gives, or what its
description of the call stands for if there is no such capability. -/
inductive Makes (r : Registry) (e : FunctionEntry) (site : CallSite) (es : List TypedExpr) : TypedExpr → Prop
  | bytecode {c : BytecodeLowering} {t : TypedExpr} {b : Builder} (found : e.capabilities.bytecode=some c)
      (made : c es ⟨site.function,r.config,e.runtimes,site.firstLocal⟩=(.ok t,b)) : Makes r e site es t
  | description {c : GenericLowering} {d : Deferred} {t : TypedExpr} (none : e.capabilities.bytecode=none)
      (found : e.capabilities.generic=some c)
      (described : c ⟨site.function,e.runtimes⟩ ⟨site.function,r.config⟩ (es.map .leaf)=.ok d)
      (made : d.materialize=.ok t) : Makes r e site es t

variable {r : Registry} {e : FunctionEntry} {site : CallSite} {returns : SemanticType} {log : DiagnosticLog}
  {es : List TypedExpr} {t : TypedExpr}

theorem require_ok {α : Type} {c : Option α} {backend : Backend} {x : α}
    (h : (liftM (e.require c backend) : ExceptT LowerError Id α).run=.ok x) : c=some x := by
  cases c with
  | none => cases h
  | some y =>
    cases h
    rfl

theorem dispatch_makes (h : (r.dispatch (.direct : Runner Id) e site returns (.bytecode es)).run=.ok (.expression t)) :
    ∃ made, r.Makes e site es made ∧ t=made.narrow returns := by
  cases hc : e.capabilities.bytecode with
  | some c =>
    obtain ⟨made,b,ht,rfl⟩ := dispatch_bytecode_ok hc h
    exact ⟨made,.bytecode hc ht,rfl⟩
  | none =>
    rw [dispatch,hc] at h
    obtain ⟨c,required,described⟩ := Failure.bind_id_ok h
    obtain ⟨d,hd,materialized⟩ := Failure.bind_id_ok described
    obtain ⟨made,hm,narrowed⟩ := Failure.bind_id_ok materialized
    cases narrowed
    exact ⟨made,.description hc (require_ok required) hd hm,rfl⟩

/-- A call that is lowered has a type that its declared type accepts. The type says as much as the declared one
unless the type of what the function made was kept although it leaves open what the declared type states, and
that happens to maps alone. -/
theorem lower_covers_iff (h : r.lower site (.bytecode es) log=(.ok (.expression t),log)) :
    ∃ e overload made, r.find? site.function=some e ∧ e.signature.select site.argTypes=.ok overload ∧
      r.Makes e site es made ∧ t=made.narrow overload.returns ∧
      overload.returns.accepts t.type=true ∧
      (overload.returns.Covers t.type ↔
        ¬(made.Keeps overload.returns ∧ overload.returns.opens made.type=true)) ∧
      (overload.returns.hasMap=false → overload.returns.Covers t.type) := by
  obtain ⟨e,overload,found,selected,dispatched⟩ := tryLower_ok (lower_ok h)
  obtain ⟨made,hm,rfl⟩ := dispatch_makes dispatched
  exact ⟨e,overload,made,found,selected,hm,rfl,made.accepts_narrow overload.returns,
    made.covers_narrow_iff overload.returns,made.covers_narrow⟩

/-- A function of no arguments that is declared to return one type and whose expressions have another. -/
def returning (declared type : SemanticType) : FunctionEntry :=
  ⟨⟨"f",[⟨[],declared⟩],.pure⟩,⟨some fun _ => pure ⟨.null,type⟩,none,none,none⟩,[]⟩

theorem lower_covers_iff_narrower :
    let r : Registry := ⟨[returning (.list .number) (.list .int)],.default⟩
    let site : CallSite := ⟨"f",[],⟨0,0,0⟩,0⟩
    r.lower site (.bytecode []) .empty=(.ok (.expression ⟨.null,.list .int⟩),.empty) ∧
      (SemanticType.list .number).Covers (.list .int) := by
  intro r site
  have lowered : r.lower site (.bytecode []) .empty=(.ok (.expression ⟨.null,.list .int⟩),.empty) := rfl
  refine ⟨lowered,?_⟩
  obtain ⟨e,overload,made,found,selected,-,-,-,-,plain⟩ := lower_covers_iff lowered
  cases found
  cases selected
  exact plain rfl

/-- A map of integers with keys that are left open is kept where the keys are declared to be strings. -/
theorem not_lower_covers : ¬∀ (r : Registry) (site : CallSite) (es : List TypedExpr) (t : TypedExpr)
    (log : DiagnosticLog) (e : FunctionEntry) (overload : Overload),
    r.lower site (.bytecode es) log=(.ok (.expression t),log) → r.find? site.function=some e →
    e.signature.select site.argTypes=.ok overload → overload.returns.Covers t.type := by
  intro h
  have covered : (SemanticType.map .string .number).Covers (.map .unknown .int) :=
    h ⟨[returning (.map .string .number) (.map .unknown .int)],.default⟩ ⟨"f",[],⟨0,0,0⟩,0⟩ []
      ⟨.null,.map .unknown .int⟩ .empty _ _ rfl rfl rfl
  cases SemanticType.opens_of_covers covered

end Registry

end CallLowering
