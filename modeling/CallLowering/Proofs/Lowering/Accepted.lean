import CallLowering.Proofs.Lowering.Direct

namespace CallLowering

/-- May a value of this type be held so? In a box everything may; a bare number or truth value has its own
type, or one that does not tell. -/
def Rep.suits : Rep → SemanticType → Bool
  | boxed,_ => true
  | _,.unknown => true
  | _,.any => true
  | bool,type => type==.bool
  | int64,type => type.isNumeric
  | float64,type => type.isNumeric

/-- Is there one argument for each type, and is it held as a value of the type may be? -/
def Arguments.Suit : Arguments → List SemanticType → Prop
  | bytecode es,types => List.Forall₂ (fun e type => e.rep.suits type) es types
  | args,types => args.size=types.length

theorem Arguments.Suit.count {args : Arguments} {types : List SemanticType} (h : args.Suit types) :
    args.size=types.length := by
  cases args with
  | bytecode es => exact List.Forall₂.length_eq h
  | _ => exact h

namespace Registry

/-- A capability without a state, and an artifact made of its result. -/
theorem run_map {α β : Type} (x : Except LowerError α) (f : α → β) :
    ((ExceptT.mk (pure x) : ExceptT LowerError Id α) >>= fun a => pure (f a)).run=x.map f := by
  cases x <;> rfl

variable {r : Registry} {e : FunctionEntry} {site : CallSite} {returns : SemanticType} {log : DiagnosticLog}

theorem dispatch_bytecode {c : BytecodeLowering} (hc : e.capabilities.bytecode=some c) (es : List TypedExpr) :
    (r.dispatch (.direct : Runner Id) e site returns (.bytecode es)).run=
      (c es ⟨site.function,r.config,e.runtimes,site.firstLocal⟩).1.map
        fun t => .expression (t.narrow returns) := by
  rw [dispatch,hc]
  exact run_map _ _

theorem dispatch_javaScript {c : TextLowering} (hc : e.capabilities.javaScript=some c) (fs : List Fragment) :
    (r.dispatch (.direct : Runner Id) e site returns (.javaScript fs)).run=
      (c.lower ⟨site.function,r.config⟩ fs).map
        fun f => .text f (c.imports ⟨site.function,r.config⟩ fs).eraseDups := by
  rw [dispatch,hc]
  exact run_map _ _

theorem dispatch_python {c : TextLowering} (hc : e.capabilities.python=some c) (fs : List Fragment) :
    (r.dispatch (.direct : Runner Id) e site returns (.python fs)).run=
      (c.lower ⟨site.function,r.config⟩ fs).map
        fun f => .text f (c.imports ⟨site.function,r.config⟩ fs).eraseDups := by
  rw [dispatch,hc]
  exact run_map _ _

theorem dispatch_generic {c : GenericLowering} (hc : e.capabilities.generic=some c) (ds : List Deferred) :
    (r.dispatch (.direct : Runner Id) e site returns (.genericCall ds)).run=
      (c ⟨site.function,e.runtimes⟩ ⟨site.function,r.config⟩ ds).map .deferred := by
  rw [dispatch,hc]
  exact run_map _ _

theorem dispatch_undescribed (hc : e.capabilities.generic=none) (ds : List Deferred) :
    (r.dispatch (.direct : Runner Id) e site returns (.genericCall ds)).run=
      .error (.unsupportedBackend e.signature.name .genericCall) := by
  rw [dispatch,hc]
  rfl

variable {args : Arguments} {overload : Overload}

theorem tryLower_accepted (he : r.find? site.function=some e) (ho : e.signature.select site.argTypes=.ok overload)
    (hs : args.Suit site.argTypes) : (r.tryLower (.direct : Runner Id) site args).run=
      (r.dispatch (.direct : Runner Id) e site overload.returns args).run.mapError afterCheck := by
  have found : r.resolve site.function=.ok e := by rw [resolve,he]
  rw [tryLower,if_neg (not_not.mpr hs.count.symm),found]
  change ((liftM (e.signature.select site.argTypes) : ExceptT LowerError Id Overload) >>= _).run=_
  rw [ho]
  rfl

theorem lower_done {a : Artifact} (he : r.find? site.function=some e)
    (ho : e.signature.select site.argTypes=.ok overload) (hs : args.Suit site.argTypes)
    (h : (r.dispatch (.direct : Runner Id) e site overload.returns args).run=.ok a) :
    r.lower site args log=(.ok a,log) := by
  rw [lower_eq,tryLower_accepted he ho hs,h]
  rfl

/-- An error of the author, other than a wrong arity, is reported. -/
theorem lower_refused {refusal : LowerError} (he : r.find? site.function=some e)
    (ho : e.signature.select site.argTypes=.ok overload) (hs : args.Suit site.argTypes)
    (h : (r.dispatch (.direct : Runner Id) e site overload.returns args).run=.error refusal)
    (hu : refusal.errorClass=.user) (ha : afterCheck refusal=refusal) :
    r.lower site args log=
      (.ok (.placeholder args.backend),log.report (.ofError refusal site.location)) := by
  rw [lower_eq,tryLower_accepted he ho hs,h]
  simp only [Except.mapError,ha,if_pos hu]

theorem lower_givenUp {message : String} (he : r.find? site.function=some e)
    (ho : e.signature.select site.argTypes=.ok overload) (hs : args.Suit site.argTypes)
    (h : (r.dispatch (.direct : Runner Id) e site overload.returns args).run=.error (.internal message)) :
    r.lower site args log=(.error (.internal message),log) := by
  rw [lower_eq,tryLower_accepted he ho hs,h]
  rfl

end Registry

end CallLowering
