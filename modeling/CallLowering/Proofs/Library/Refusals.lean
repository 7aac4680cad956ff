import CallLowering.Proofs.Library.Settled

namespace CallLowering

namespace Library

/-- Is an argument a bare truth value, where the function counts with integers? -/
def TruthCounted (function : String) : Arguments → Prop
  | .bytecode es => function∈["range","randomInt"] ∧ ∃ e∈es.map TypedExpr.expr, e.rep=.bool
  | _ => False

section

variable {r : Registry} {site : CallSite} {returns : SemanticType} {args : Arguments} {runtimes : List String}

theorem Rounding.dispatch_settled {f : Rounding} (hn : Takes f.rounder.native [.float64])
    (hd : Takes f.rounder.dynamic [.boxed]) (hs : args.size=1) {truth : Prop} (ht : ¬truth) :
    Settled site.function args.backend truth
      (r.dispatch (.direct : Runner Id) ⟨f.signature,f.capabilities,runtimes⟩ site returns args).run := by
  cases args with
  | bytecode es =>
    obtain ⟨e,rfl⟩ := List.length_eq_one_iff.mp hs
    rw [Registry.dispatch_bytecode rfl]
    obtain ⟨t,-,done⟩ := f.exists_bytecode hn hd e _
    exact (Settled.of_ok ⟨t,done⟩ ht).map _
  | javaScript fs =>
    obtain ⟨a,rfl⟩ := List.length_eq_one_iff.mp hs
    exact .done ht
  | python fs =>
    obtain ⟨a,rfl⟩ := List.length_eq_one_iff.mp hs
    exact .done ht
  | genericCall ds =>
    obtain ⟨d,rfl⟩ := List.length_eq_one_iff.mp hs
    rw [Registry.dispatch_generic rfl]
    exact (Settled.of_ok ⟨_,hd.callStatic rfl _⟩ ht).map _

theorem NullCheck.dispatch_settled {f : NullCheck} (hm : Takes f.routine [.boxed])
    (hn : f.negated → site.function="isNonnull" ∧ f.name="isNonnull") (hs : args.size=1)
    (hl : site.firstLocal.toNat ≤ 65534) {truth : Prop} (ht : ¬truth) :
    Settled site.function args.backend truth
      (r.dispatch (.direct : Runner Id) ⟨f.signature,f.capabilities,runtimes⟩ site returns args).run := by
  cases args with
  | bytecode es =>
    obtain ⟨e,rfl⟩ := List.length_eq_one_iff.mp hs
    rw [Registry.dispatch_bytecode rfl]
    let b : Builder := ⟨site.function,r.config,runtimes,site.firstLocal⟩
    obtain ⟨t,-,done⟩ := f.exists_bytecode e (show b.nextLocal.toNat ≤ 65534 from hl)
    exact (Settled.of_ok ⟨t,done⟩ ht).map _
  | javaScript fs =>
    obtain ⟨a,rfl⟩ := List.length_eq_one_iff.mp hs
    exact .done ht
  | python fs =>
    obtain ⟨a,rfl⟩ := List.length_eq_one_iff.mp hs
    exact .done ht
  | genericCall ds =>
    obtain ⟨d,rfl⟩ := List.length_eq_one_iff.mp hs
    by_cases negated : f.negated=true
    · obtain ⟨hf,hname⟩ := hn negated
      have undescribed : f.capabilities.generic=none := if_pos negated
      rw [Registry.dispatch_undescribed undescribed,hf]
      change Settled _ _ _ (.error (.unsupportedBackend f.name .genericCall))
      rw [hname]
      exact .refused .undescribed
    · have described : f.capabilities.generic=some f.generic := if_neg negated
      rw [Registry.dispatch_generic described]
      exact (Settled.of_ok ⟨_,hm.callStatic rfl _⟩ ht).map _

theorem Extremum.dispatch_settled {f : Extremum} (hd : Takes f.dynamic [.boxed,.boxed]) (hs : args.size=2)
    (hl : site.firstLocal.toNat ≤ 65533) {truth : Prop} (ht : ¬truth) :
    Settled site.function args.backend truth
      (r.dispatch (.direct : Runner Id) ⟨f.signature,f.capabilities,runtimes⟩ site returns args).run := by
  cases args with
  | bytecode es =>
    obtain ⟨e,e',rfl⟩ := List.length_eq_two.mp hs
    rw [Registry.dispatch_bytecode rfl]
    let b : Builder := ⟨site.function,r.config,runtimes,site.firstLocal⟩
    obtain ⟨t,-,done⟩ := Extremum.exists_bytecode hd e e' (show b.nextLocal.toNat ≤ 65533 from hl)
    exact (Settled.of_ok ⟨t,done⟩ ht).map _
  | javaScript fs =>
    obtain ⟨a,a',rfl⟩ := List.length_eq_two.mp hs
    exact .done ht
  | python fs =>
    obtain ⟨a,a',rfl⟩ := List.length_eq_two.mp hs
    exact .done ht
  | genericCall ds =>
    obtain ⟨d,d',rfl⟩ := List.length_eq_two.mp hs
    rw [Registry.dispatch_generic rfl]
    exact (Settled.of_ok ⟨_,hd.callStatic rfl _⟩ ht).map _

theorem RangeFunction.dispatch_settled {f : RangeFunction} (hf : f.Usual) (hs : 1 ≤ args.size ∧ args.size ≤ 3) :
    Settled "range" args.backend (TruthCounted "range" args)
      (r.dispatch (.direct : Runner Id) ⟨signature,f.capabilities,runtimes⟩ site returns args).run := by
  cases args with
  | bytecode es =>
    rw [Registry.dispatch_bytecode rfl]
    have counted := f.bytecode_settled hf (by rwa [Arguments.size] at hs)
      ⟨site.function,r.config,runtimes,site.firstLocal⟩
    exact (counted.congr (by simp [TruthCounted])).map _
  | javaScript fs =>
    rw [Registry.dispatch_javaScript rfl]
    exact (javaScript_settled hs id _).map _
  | python fs =>
    rw [Registry.dispatch_python rfl]
    exact (python_settled hs id _).map _
  | genericCall ds =>
    rw [Registry.dispatch_generic rfl]
    exact (f.generic_settled hf hs id _ _).map _

theorem RandomInt.dispatch_settled {f : RandomInt} (hm : f.routine.routine.onReceiver=true)
    (hp : f.routine.params=[.int64]) (hr : runtimes.contains f.routine.routine.owner) (hs : args.size=1) :
    Settled "randomInt" args.backend (TruthCounted "randomInt" args)
      (r.dispatch (.direct : Runner Id) ⟨signature,f.capabilities,runtimes⟩ site returns args).run := by
  cases args with
  | bytecode es =>
    obtain ⟨e,rfl⟩ := List.length_eq_one_iff.mp hs
    rw [Registry.dispatch_bytecode rfl]
    have counted : Settled "randomInt" .bytecode (∃ d∈[e.expr], d.rep=.bool)
        (f.bytecode [e] ⟨site.function,r.config,runtimes,site.firstLocal⟩).1 := bytecode_settled hp hr e
    exact (counted.congr (by simp [TruthCounted])).map _
  | javaScript fs =>
    obtain ⟨a,rfl⟩ := List.length_eq_one_iff.mp hs
    rw [Registry.dispatch_javaScript rfl]
    exact ((Settled.done id).checked (checkBound_refusal .javaScript)).map _
  | python fs =>
    obtain ⟨a,rfl⟩ := List.length_eq_one_iff.mp hs
    rw [Registry.dispatch_python rfl]
    exact ((Settled.done id).checked (checkBound_refusal .python)).map _
  | genericCall ds =>
    obtain ⟨d,rfl⟩ := List.length_eq_one_iff.mp hs
    rw [Registry.dispatch_generic rfl]
    exact (f.generic_settled hm hp hr id _ d).map _

/-- What a function of the standard registry makes of a call with as many arguments as it takes. -/
theorem dispatch_settled {e : FunctionEntry} (he : e∈standardEntries) (hf : e.signature.name=site.function)
    (hs : args.size∈e.signature.arities) (hl : site.firstLocal.toNat ≤ 65533) :
    Settled site.function args.backend (TruthCounted site.function args)
      (r.dispatch (.direct : Runner Id) e site returns args).run := by
  have uncounted (h : site.function∉["range","randomInt"]) : ¬TruthCounted site.function args := by
    cases args with
    | bytecode es => exact fun counted => h counted.1
    | _ => exact id
  have single (h : args.size∈[1]) : args.size=1 := List.mem_singleton.mp h
  simp only [standardEntries,List.mem_cons,List.not_mem_nil,or_false] at he
  obtain rfl|rfl|rfl|rfl|rfl|rfl|rfl|rfl := he
  · exact Rounding.dispatch_settled ⟨rfl,rfl⟩ ⟨rfl,rfl⟩ (single hs) (uncounted (hf ▸ by decide))
  · exact Rounding.dispatch_settled ⟨rfl,rfl⟩ ⟨rfl,rfl⟩ (single hs) (uncounted (hf ▸ by decide))
  · have size : args.size∈[1,2,3] := hs
    simp only [List.mem_cons,List.not_mem_nil,or_false] at size
    exact hf ▸ RangeFunction.dispatch_settled ⟨⟨rfl,rfl⟩,⟨rfl,rfl⟩,⟨rfl,rfl⟩⟩ (by omega)
  · exact NullCheck.dispatch_settled ⟨rfl,rfl⟩ (fun h => absurd h (by decide)) (single hs) (by omega)
      (uncounted (hf ▸ by decide))
  · exact NullCheck.dispatch_settled ⟨rfl,rfl⟩ (fun _ => ⟨hf.symm,rfl⟩) (single hs) (by omega)
      (uncounted (hf ▸ by decide))
  · exact Extremum.dispatch_settled ⟨rfl,rfl⟩ (List.mem_singleton.mp hs) hl (uncounted (hf ▸ by decide))
  · exact Extremum.dispatch_settled ⟨rfl,rfl⟩ (List.mem_singleton.mp hs) hl (uncounted (hf ▸ by decide))
  · exact hf ▸ RandomInt.dispatch_settled rfl rfl rfl (single hs)

end

/-- Is an argument of unknown type a bare truth value, where the function counts with integers? -/
def UnknownTruthCounted (site : CallSite) : Arguments → Prop
  | .bytecode es => site.function∈["range","randomInt"] ∧
      ∃ p∈es.zip site.argTypes, p.1.rep=.bool ∧ p.2=.unknown
  | _ => False

/-- A parameter for numbers accepts a bare truth value only if its type is not known. -/
theorem exists_truth_iff {es : List TypedExpr} {types : List SemanticType}
    (hs : List.Forall₂ (fun e type => e.rep.suits type) es types)
    (ha : ∀ type∈types, SemanticType.number.accepts type) :
    (∃ e∈es.map TypedExpr.expr, e.rep=.bool) ↔ ∃ p∈es.zip types, p.1.rep=.bool ∧ p.2=.unknown := by
  induction hs with
  | nil => simp
  | @cons e type es types suits _ ih =>
    have first : e.expr.rep=.bool ↔ e.rep=.bool ∧ type=.unknown := by
      refine ⟨fun held => ⟨held,?_⟩,And.left⟩
      have accepted := ha type List.mem_cons_self
      rw [show e.rep=.bool from held] at suits
      cases type with
      | unknown => rfl
      | int | float | number => cases suits
      | _ => simp [SemanticType.accepts,SemanticType.isNumeric] at accepted
    simp only [List.map_cons,List.zip_cons_cons,List.exists_mem_cons_iff,first,
      ih fun type h => ha type (List.mem_cons_of_mem _ h)]

/-- The functions that count take numbers only. -/
theorem numbers_of_counting {e : FunctionEntry} (he : e∈standardEntries)
    (hf : e.signature.name∈["range","randomInt"]) :
    ∀ overload∈e.signature.overloads, ∀ p∈overload.params, p=.number := by
  simp only [standardEntries,List.mem_cons,List.not_mem_nil,or_false] at he
  obtain rfl|rfl|rfl|rfl|rfl|rfl|rfl|rfl := he <;> first | exact absurd hf (by decide) | decide

theorem accepts_of_numbers {params types : List SemanticType}
    (h : List.Forall₂ (fun p a => SemanticType.accepts p a) params types) (hn : ∀ p∈params, p=.number) :
    ∀ type∈types, SemanticType.number.accepts type := by
  induction h with
  | nil => simp
  | cons accepted _ ih =>
    rw [List.forall_mem_cons] at hn ⊢
    exact ⟨hn.1 ▸ accepted,ih hn.2⟩

theorem truthCounted_iff {e : FunctionEntry} {site : CallSite} {overload : Overload} {args : Arguments}
    (he : e∈standardEntries) (hf : e.signature.name=site.function)
    (ho : e.signature.select site.argTypes=.ok overload) (hs : args.Suit site.argTypes) :
    TruthCounted site.function args ↔ UnknownTruthCounted site args := by
  cases args with
  | bytecode es =>
    obtain ⟨found,accepted⟩ := Signature.select_ok ho
    refine and_congr_right fun counting => exists_truth_iff hs (accepts_of_numbers accepted ?_)
    exact numbers_of_counting he (hf ▸ counting) overload (List.mem_of_find?_eq_some found)
  | _ => exact Iff.rfl

/-- A call of a basic function that passed its check is lowered, or its author is told why not; except that a
bare truth value of unknown type is an internal error where integers are counted. -/
theorem lower_settled {config : Config} {r : Registry} (hr : build config RoutineTable.standard=.ok r)
    {site : CallSite} {e : FunctionEntry} (he : r.find? site.function=some e) {overload : Overload}
    (ho : e.signature.select site.argTypes=.ok overload) {args : Arguments} (hs : args.Suit site.argTypes)
    (hl : site.firstLocal.toNat ≤ 65533) (log : DiagnosticLog) :
    (∃ refusal, Refusal site.function args.backend refusal ∧ r.lower site args log=
      (.ok (.placeholder args.backend),log.report (.ofError refusal site.location))) ∨
    (¬UnknownTruthCounted site args ∧ ∃ a, r.lower site args log=(.ok a,log)) ∨
    (UnknownTruthCounted site args ∧
      r.lower site args log=(.error (.internal "cannot coerce bool to i64"),log)) := by
  cases (build_standard config).symm.trans hr
  have declared : e∈standardEntries := List.mem_of_find?_eq_some he
  have named : e.signature.name=site.function := by simpa using List.find?_some he
  have count := mem_arities_of_overload? (Signature.select_ok ho).1
  rw [←hs.count] at count
  have settled : Settled site.function args.backend (TruthCounted site.function args)
      (Registry.dispatch (.direct : Runner Id) ⟨standardEntries,config⟩ e site overload.returns args).run :=
    dispatch_settled declared named count hl
  rw [truthCounted_iff declared named ho hs] at settled
  generalize hx :
    (Registry.dispatch (.direct : Runner Id) ⟨standardEntries,config⟩ e site overload.returns args).run=x at settled
  cases settled with
  | refused h => exact .inl ⟨_,h,Registry.lower_refused he ho hs hx h.isUser.1 h.isUser.2⟩
  | done h => exact .inr (.inl ⟨h,_,Registry.lower_done he ho hs hx⟩)
  | givenUp h => exact .inr (.inr ⟨h,Registry.lower_givenUp he ho hs hx⟩)

/-- Two integers that are computed once each, with the last two locals that a call may count on. -/
theorem lower_settled_lastLocals :
    let chosen : Expr := .select (.arg 0 .bool) (.arg 1 .int64) (.int 0)
    let site : CallSite := ⟨"max",[.int,.unknown],⟨0,0,3⟩,65533⟩
    let args : Arguments := .bytecode [⟨chosen,.int⟩,⟨chosen,.unknown⟩]
    args.Suit site.argTypes ∧ site.firstLocal.toNat ≤ 65533 ∧
      ∃ a, Registry.lower ⟨standardEntries,.default⟩ site args .empty=(.ok a,.empty) := by
  intro chosen site args
  have suit : args.Suit site.argTypes := .cons rfl (.cons rfl .nil)
  have last : site.firstLocal.toNat ≤ 65533 := by decide
  have found : Registry.find? ⟨standardEntries,.default⟩ site.function=
      some ⟨standardMax.signature,standardMax.capabilities,[]⟩ := rfl
  have accepted : standardMax.signature.select site.argTypes=.ok ⟨[.number,.number],.number⟩ := rfl
  refine ⟨suit,last,?_⟩
  obtain ⟨_,refused,-⟩|⟨-,done⟩|⟨⟨counting,-⟩,-⟩ :=
    lower_settled (build_standard .default) found accepted suit last .empty
  · exact absurd refused.function_mem (by decide)
  · exact done
  · exact absurd counting (by decide)

/-- A call that passes its check, with an argument that suits its type, ends in an internal error. -/
theorem not_lower_ok : ¬∀ (site : CallSite) (args : Arguments) (e : FunctionEntry) (overload : Overload),
    Registry.find? ⟨standardEntries,.default⟩ site.function=some e →
    e.signature.select site.argTypes=.ok overload → args.Suit site.argTypes →
    site.firstLocal.toNat ≤ 65533 →
      ∃ a, (Registry.lower ⟨standardEntries,.default⟩ site args .empty).1=.ok a := by
  intro h
  let site : CallSite := ⟨"range",[.unknown],⟨0,0,3⟩,0⟩
  let args : Arguments := .bytecode [⟨.arg 0 .bool,.unknown⟩]
  have suit : args.Suit site.argTypes := .cons rfl .nil
  obtain ⟨a,done⟩ := h site args ⟨RangeFunction.signature,standardRange.capabilities,[]⟩
    ⟨[.number],.list .int⟩ rfl rfl suit (by decide)
  have givenUp : (Registry.lower ⟨standardEntries,.default⟩ site args .empty).1=
      .error (.internal "cannot coerce bool to i64") := rfl
  cases givenUp.symm.trans done

end Library

end CallLowering
