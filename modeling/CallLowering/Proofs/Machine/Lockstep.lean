import CallLowering.Machine
import CallLowering.Proofs.Failure

namespace CallLowering

variable {σ α β γ δ : Type}

/-- Two endings that fit together: one fault, or related results, and one state of the host. -/
inductive Run.Ended (R : α → β → Prop) : Except Fault α × σ → Except Fault β × σ → Prop
  | ok {a b} (s : σ) (h : R a b) : Ended R (.ok a,s) (.ok b,s)
  | error (e : Fault) (s : σ) : Ended R (.error e,s) (.error e,s)

namespace Run

/-- From every state, both computations fault alike or give related results. -/
def Lockstep (R : α → β → Prop) (x : Run σ α) (y : Run σ β) : Prop := ∀ s, Ended R (x s) (y s)

/-- What follows a computation only matters on its results. -/
theorem bind_congr {x : Run σ α} {f g : α → Run σ β}
    (h : ∀ a s t, x s=(.ok a,t) → f a t=g a t) : (x >>= f)=(x >>= g) := by
  funext s
  rw [Failure.bind_apply,Failure.bind_apply]
  rcases hx : x s with ⟨e|a,t⟩
  · rfl
  · exact h a s t hx

namespace Lockstep

variable {R : α → β → Prop} {S : γ → δ → Prop} {x : Run σ α} {y : Run σ β}

theorem pure {a : α} {b : β} (h : R a b) : Lockstep R (pure a : Run σ α) (pure b : Run σ β) :=
  fun s => .ok s h

theorem throw (e : Fault) : Lockstep R (throw e : Run σ α) (throw e : Run σ β) :=
  fun s => .error e s

theorem refl (x : Run σ α) : Lockstep Eq x x := by
  intro s
  rcases x s with ⟨e|a,t⟩
  · exact .error e t
  · exact .ok t rfl

theorem mono {R' : α → β → Prop} (h : Lockstep R x y) (hR : ∀ a b, R a b → R' a b) :
    Lockstep R' x y := by
  intro s
  have hs := h s
  generalize x s=p at hs ⊢
  generalize y s=q at hs ⊢
  cases hs with
  | ok t hab => exact .ok t (hR _ _ hab)
  | error e t => exact .error e t

theorem bind {f : α → Run σ γ} {g : β → Run σ δ} (h : Lockstep R x y)
    (hf : ∀ a b, R a b → Lockstep S (f a) (g b)) : Lockstep S (x >>= f) (y >>= g) := by
  intro s
  have hs := h s
  rw [Failure.bind_apply,Failure.bind_apply]
  generalize x s=p at hs ⊢
  generalize y s=q at hs ⊢
  cases hs with
  | ok t hab => exact hf _ _ hab t
  | error e t => exact .error e t

theorem eq {y : Run σ α} (h : Lockstep Eq x y) : x=y := by
  funext s
  have hs := h s
  generalize x s=p at hs ⊢
  generalize y s=q at hs ⊢
  cases hs with
  | ok t hab => rw [hab]
  | error e t => rfl

end Lockstep

end Run

end CallLowering
