import CallLowering.Lowering
import CallLowering.Proofs.Failure

namespace CallLowering

variable {τ α β : Type}

/-- How the capabilities of a call ended: each with no error, or with one. -/
abbrev Answers : Type := List (Option LowerError)

/-- The state of capabilities, with a record beside it. -/
abbrev Recorded (τ : Type) : Type → Type := StateM (τ × Answers)

def failure? : Except LowerError α → Option LowerError
  | .ok _ => none
  | .error e => some e

/-- Runs a capability and writes down how it ended. -/
def record (x : ExceptT LowerError (StateM τ) α) : ExceptT LowerError (Recorded τ) α :=
  fun s => ((x s.1).1,((x s.1).2,s.2++[failure? (x s.1).1]))

def Runner.recorded (run : Runner (StateM τ)) : Runner (Recorded τ) where
  bytecode c args b := record (run.bytecode c args b)
  text c context args := record (run.text c context args)
  imports c context args := fun s => ((run.imports c context args s.1).1,((run.imports c context args s.1).2,s.2))
  generic c factory context args := record (run.generic c factory context args)

/-- What a call does, whatever state its capabilities are in: the capabilities it runs, how they end, and
with what the call ends. -/
def Ends (x : ExceptT LowerError (Recorded τ) α) (P : Answers → Except LowerError α → Prop) : Prop :=
  ∀ t answers, ∃ a t' more, x (t,answers)=(a,(t',answers++more)) ∧ P more a

namespace Ends

variable {P Q : Answers → Except LowerError α → Prop} {x : ExceptT LowerError (Recorded τ) α}

theorem mono (h : Ends x P) (hPQ : ∀ more a, P more a → Q more a) : Ends x Q := by
  intro t answers
  obtain ⟨a,t',more,hx,hp⟩ := h t answers
  exact ⟨a,t',more,hx,hPQ more a hp⟩

/-- A computation in which no capability runs. -/
theorem silent (hx : ∀ t answers, ∃ a t', x (t,answers)=(a,(t',answers)) ∧ P [] a) : Ends x P := by
  intro t answers
  obtain ⟨a,t',h,hp⟩ := hx t answers
  exact ⟨a,t',[],by rw [h,List.append_nil],hp⟩

theorem lift {a : Except LowerError α} (h : P [] a) :
    Ends (liftM a : ExceptT LowerError (Recorded τ) α) P :=
  silent fun t _ => ⟨a,t,by cases a <;> rfl,h⟩

theorem pure {a : α} (h : P [] (.ok a)) : Ends (pure a : ExceptT LowerError (Recorded τ) α) P :=
  silent fun t _ => ⟨.ok a,t,rfl,h⟩

theorem recorded (x : ExceptT LowerError (StateM τ) α) (h : ∀ t, P [failure? (x t).1] (x t).1) :
    Ends (record x) P :=
  fun t _ => ⟨(x t).1,(x t).2,[failure? (x t).1],rfl,h _⟩

theorem bind {R : Answers → Except LowerError β → Prop} {f : α → ExceptT LowerError (Recorded τ) β}
    (h : Ends x P) (hok : ∀ more v, P more (.ok v) → Ends (f v) fun rest b => R (more++rest) b)
    (herror : ∀ more e, P more (.error e) → R more (.error e)) : Ends (x >>= f) R := by
  intro t answers
  obtain ⟨a,u,more,hx,hp⟩ := h t answers
  cases a with
  | ok v =>
    obtain ⟨b,t',rest,hf,hr⟩ := hok more v hp u (answers++more)
    exact ⟨b,t',more++rest,by simp only [Failure.bind_apply,hx,hf,List.append_assoc],hr⟩
  | error e => exact ⟨.error e,u,more,by simp only [Failure.bind_apply,hx],herror more e hp⟩

/-- Changing the error of a computation changes no record. -/
theorem adapt {f : LowerError → LowerError} (h : Ends x fun more a => P more (a.mapError f)) :
    Ends (x.adapt f) P := by
  intro t answers
  obtain ⟨a,t',more,hx,hp⟩ := h t answers
  refine ⟨a.mapError f,t',more,?_,hp⟩
  have adapted : x.adapt f=(ExceptT.mk (Except.mapError f <$> x) : ExceptT LowerError (Recorded τ) α) := rfl
  simp only [adapted,ExceptT.mk,Functor.map,StateT.map,hx]
  rfl

/-- Two computations of which one keeps a state and a record, step by step. -/
theorem bind_eq {x : ExceptT LowerError Id α} {y : ExceptT LowerError (Recorded τ) α}
    {f : α → ExceptT LowerError Id β} {g : α → ExceptT LowerError (Recorded τ) β}
    (h : Ends y fun _ a => a=x) (hf : ∀ v, Ends (g v) fun _ b => b=f v) :
    Ends (y >>= g) fun _ b => b=(x >>= f) := by
  apply Ends.bind h
  · intro _ v hv
    rw [←hv]
    exact hf v
  · intro _ e he
    rw [←he]
    rfl

end Ends

end CallLowering
