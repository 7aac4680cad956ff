import CallLowering.Proofs.Lowering.Recorded
import CallLowering.Proofs.Signature.Dispatch

namespace CallLowering

variable {τ : Type} {r : Registry} {run : Runner (StateM τ)}

/-- Is it what calls are lowered to for this backend? -/
def Artifact.isFor : Artifact → Backend → Bool
  | expression _,.bytecode => true
  | text _ _,.javaScript => true
  | text _ _,.python => true
  | deferred _,.genericCall => true
  | _,_ => false

/-- Is it a call of a registered function, with one type for each argument, that has an overload for as many
arguments, which accepts them? -/
structure Registry.Accepts (r : Registry) (site : CallSite) (args : Arguments) : Prop where
  count : site.argTypes.length=args.size
  overload : ∃ e overload, r.find? site.function=some e ∧
    e.signature.overload? site.argTypes.length=some overload ∧
    List.Forall₂ (fun p a => SemanticType.accepts p a) overload.params site.argTypes

/-- What handing a call to a capability ends with. -/
structure Dispatched (backend : Backend) (answers : Answers) (result : Except LowerError Artifact) :
    Prop where
  once : answers.length ≤ 1
  kind : ∀ a, result=.ok a → a.isFor backend
  passed : ∀ e, some e∈answers → result=.error e

namespace Dispatched

variable {backend : Backend}

theorem refused (e : LowerError) : Dispatched backend [] (.error e) :=
  ⟨by simp,by simp,by simp⟩

theorem failed (e : LowerError) : Dispatched backend [some e] (.error e) :=
  ⟨by simp,by simp,by simp⟩

theorem done {result : Except LowerError Artifact} (h : ∀ a, result=.ok a → a.isFor backend) :
    Dispatched backend [none] result :=
  ⟨by simp,h,by simp⟩

end Dispatched

/-- A capability, and what is made of its result without another. -/
theorem Ends.dispatched {α : Type} {backend : Backend} (x : ExceptT LowerError (StateM τ) α)
    {f : α → ExceptT LowerError (Recorded τ) Artifact}
    (h : ∀ v, Ends (f v) fun more b => more=[] ∧ ∀ a, b=.ok a → a.isFor backend) :
    Ends (record x >>= f) (Dispatched backend) := by
  apply Ends.bind (Ends.recorded (P := fun more a => more=[failure? a]) x fun _ => rfl)
  · intro more v hmore
    rw [hmore]
    apply (h v).mono
    intro rest b hrest
    rw [hrest.1]
    exact .done hrest.2
  · intro more e hmore
    rw [hmore]
    exact .failed e

theorem Ends.required {α : Type} {e : FunctionEntry} {c : Option α} {backend backend' : Backend}
    {f : α → ExceptT LowerError (Recorded τ) Artifact} (h : ∀ c, Ends (f c) (Dispatched backend)) :
    Ends (liftM (e.require c backend') >>= f) (Dispatched backend) := by
  apply Ends.bind (Ends.lift (P := fun more _ => more=[]) rfl)
  · intro more c hmore
    rw [hmore]
    exact h c
  · intro more e hmore
    rw [hmore]
    exact .refused e

namespace Registry

theorem runText_dispatched {site : CallSite} (c : TextLowering) (args : List Fragment) {backend : Backend}
    (h : ∀ f names, (Artifact.text f names).isFor backend) :
    Ends (r.runText run.recorded site c args) (Dispatched backend) := by
  apply Ends.dispatched
  intro f t answers
  exact ⟨_,_,[],by rw [List.append_nil]; rfl,rfl,fun a ha => by cases ha; exact h _ _⟩

theorem dispatch_dispatched (e : FunctionEntry) (site : CallSite) (returns : SemanticType)
    (args : Arguments) : Ends (r.dispatch run.recorded e site returns args) (Dispatched args.backend) := by
  cases args with
  | bytecode args =>
    rw [dispatch]
    cases e.capabilities.bytecode with
    | some c =>
      apply Ends.dispatched
      exact fun v => .pure ⟨rfl,fun a ha => by cases ha; rfl⟩
    | none =>
      apply Ends.required
      intro c
      apply Ends.dispatched
      intro d
      apply Ends.bind (Ends.lift (P := fun more _ => more=[]) rfl)
      · intro more v hmore
        rw [hmore]
        exact .pure ⟨rfl,fun a ha => by cases ha; rfl⟩
      · intro more e hmore
        exact ⟨hmore,by simp⟩
  | javaScript args => exact Ends.required fun c => runText_dispatched c args fun _ _ => rfl
  | python args => exact Ends.required fun c => runText_dispatched c args fun _ _ => rfl
  | genericCall args =>
    apply Ends.required
    intro c
    apply Ends.dispatched
    exact fun d => .pure ⟨rfl,fun a ha => by cases ha; rfl⟩

/-- Capabilities that keep no state end a call as they do without a record. -/
theorem dispatch_direct (e : FunctionEntry) (site : CallSite) (returns : SemanticType) (args : Arguments) :
    Ends (r.dispatch (Runner.direct : Runner (StateM τ)).recorded e site returns args)
      fun _ a => a=r.dispatch (.direct : Runner Id) e site returns args := by
  have run {α : Type} (x : Except LowerError α) :
      Ends (record (τ := τ) (ExceptT.mk (pure x))) fun _ a => a=x := .recorded _ fun _ => rfl
  cases args with
  | bytecode args =>
    rw [dispatch,dispatch]
    cases e.capabilities.bytecode with
    | some c => exact .bind_eq (run _) fun v => .pure rfl
    | none =>
      exact .bind_eq (.lift rfl) fun c => .bind_eq (run _) fun d => .bind_eq (.lift rfl) fun v => .pure rfl
  | javaScript args =>
    exact .bind_eq (.lift rfl) fun c => .bind_eq (run _) fun f => .silent fun t _ => ⟨_,t,rfl,rfl⟩
  | python args =>
    exact .bind_eq (.lift rfl) fun c => .bind_eq (run _) fun f => .silent fun t _ => ⟨_,t,rfl,rfl⟩
  | genericCall args =>
    exact .bind_eq (.lift rfl) fun c => .bind_eq (run _) fun d => .pure rfl

structure Tried (r : Registry) (site : CallSite) (args : Arguments) (answers : Answers)
    (result : Except LowerError Artifact) : Prop where
  once : answers.length ≤ 1
  checked : answers≠[] → r.Accepts site args
  kind : ∀ a, result=.ok a → a.isFor args.backend
  passed : ∀ e, some e∈answers → result=.error (afterCheck e)

theorem Tried.refused {site : CallSite} {args : Arguments} (e : LowerError) :
    r.Tried site args [] (.error e) :=
  ⟨by simp,by simp,by simp,by simp⟩

theorem tryLower_tried (site : CallSite) (args : Arguments) :
    Ends (r.tryLower run.recorded site args) (r.Tried site args) := by
  rw [tryLower]
  by_cases hcount : site.argTypes.length=args.size
  · rw [if_neg (not_not.mpr hcount)]
    apply Ends.bind (Ends.lift (P := fun more a => more=[] ∧ a=r.resolve site.function) ⟨rfl,rfl⟩)
    · intro _ e found
      obtain ⟨rfl,he⟩ := found
      apply Ends.bind (Ends.lift (P := fun more a => more=[] ∧ a=e.signature.select site.argTypes) ⟨rfl,rfl⟩)
      · intro _ overload selected
        obtain ⟨rfl,ho⟩ := selected
        obtain ⟨ho,hargs⟩ := Signature.select_ok ho.symm
        have accepts : r.Accepts site args := ⟨hcount,e,overload,resolve_ok_iff.mp he.symm,ho,hargs⟩
        apply Ends.adapt
        apply (dispatch_dispatched e site overload.returns args).mono
        intro answers result h
        refine ⟨h.once,fun _ => accepts,?_,?_⟩
        · intro a ha
          cases result with
          | ok b => exact h.kind a (by cases ha; rfl)
          | error e => cases ha
        · intro e he
          rw [h.passed e he]
          rfl
      · intro _ e failed
        rw [failed.1]
        exact .refused e
    · intro _ e failed
      rw [failed.1]
      exact .refused e
  · rw [if_pos hcount]
    exact .silent fun t _ => ⟨_,t,rfl,.refused _⟩

theorem tryLower_direct (site : CallSite) (args : Arguments) :
    Ends (r.tryLower (Runner.direct : Runner (StateM τ)).recorded site args)
      fun _ a => a=r.tryLower (.direct : Runner Id) site args := by
  rw [tryLower,tryLower]
  by_cases hcount : site.argTypes.length=args.size
  · rw [if_neg (not_not.mpr hcount),if_neg (not_not.mpr hcount)]
    apply Ends.bind_eq (.lift rfl)
    intro e
    apply Ends.bind_eq (.lift rfl)
    intro overload
    apply Ends.adapt
    apply (dispatch_direct e site overload.returns args).mono
    intro _ a ha
    rw [ha]
    rfl
  · rw [if_pos hcount,if_pos hcount]
    exact .silent fun t _ => ⟨_,t,rfl,rfl⟩

end Registry

end CallLowering
