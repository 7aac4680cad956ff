import CallLowering.Proofs.Expr.Meaning
import CallLowering.Proofs.Expr.Typed

namespace CallLowering

variable {σ τ α β : Type} {part : σ → τ}

/-- Is this part of the state as it was before, however the computation ends? -/
def Run.Leaves (part : σ → τ) (x : Run σ α) : Prop := ∀ s, part (x s).2=part s

theorem Run.lift_ok {r : Except RoutineError α} {s t : σ} {a : α} (h : Run.lift r s=(.ok a,t)) :
    r=.ok a ∧ t=s := by
  cases r with
  | error e => cases h
  | ok a =>
    cases h
    exact ⟨rfl,rfl⟩

namespace Run.Leaves

theorem pure (a : α) : Leaves part (pure a : Run σ α) := fun _ => rfl

theorem throw (e : Fault) : Leaves part (throw e : Run σ α) := fun _ => rfl

theorem lift (r : Except RoutineError α) : Leaves part (Run.lift r : Run σ α) := by
  cases r with
  | ok a => exact pure a
  | error e => exact throw (.routine e)

theorem bind {x : Run σ α} {f : α → Run σ β} (h : Leaves part x) (hf : ∀ a, Leaves part (f a)) :
    Leaves part (x >>= f) := by
  intro s
  have hs := h s
  rw [Failure.bind_apply]
  rcases hx : x s with ⟨e|a,t⟩ <;> rw [hx] at hs
  · exact hs
  · exact (hf a t).trans hs

theorem arg (args : List Slot) (index : UInt16) : Leaves part (Run.argument args index : Run σ Slot) := by
  rw [Run.argument]
  split
  · exact pure _
  · exact throw _

theorem readLocal (index : UInt16) (slot : Option Slot) : Leaves part (Run.local index slot : Run σ Slot) := by
  cases slot with
  | some slot => exact pure slot
  | none => exact throw _

/-- A call leaves alone what the body of the routine leaves alone. -/
theorem call {host : Host σ} {r : Routine} {slots : List Slot}
    (h : ∀ s, part (host.enter r slots s).2=part s) : Leaves part (Run.call host r slots) := by
  intro s
  have entered := h s
  rw [Run.call,Host.call]
  by_cases hl : slots.length≠r.params.length
  · rw [if_pos hl]
  · rw [if_neg hl]
    by_cases hr : (r.onReceiver && !host.receives s r.owner)=true
    · rw [if_pos hr]
    · rw [if_neg hr]
      rcases he : host.enter r slots s with ⟨e|slot,t⟩ <;> rw [he] at entered <;> exact entered

theorem result {x : Run σ α} (h : Leaves part x) {s t : σ} {a : α} (hx : x s=(.ok a,t)) : part t=part s := by
  have hs := h s
  rwa [hx] at hs

/-- A computation that ends where the first of its steps does, because the rest leaves everything alone. -/
theorem state_eq {x : Run σ α} {f : α → Run σ β} {s t u : σ} {a : α} {b : β} (hx : x s=(.ok a,t))
    (h : (x >>= f) s=(.ok b,u)) (hf : Leaves id (f a)) : u=t := by
  rw [Failure.bind_apply,hx] at h
  exact hf.result h

end Run.Leaves

namespace Expr

open Run

variable {host : Host σ} {args : List Slot}

theorem meanings_leaves {es : List Expr} {scope : Scope}
    (h : ∀ e∈es, Leaves part (e.meaning host args scope)) : Leaves part (meanings host args scope es) := by
  induction es with
  | nil => exact .pure []
  | cons e es ih =>
    rw [meanings]
    apply (h e (by simp)).bind
    intro slot
    apply (ih fun e he => h e (by simp [he])).bind
    exact fun slots => .pure (slot::slots)

theorem meaning_leaves (e : Expr)
    (h : ∀ m∈e.methods, ∀ slots, Leaves part (Run.call host m.routine slots)) (scope : Scope) :
    Leaves part (e.meaning host args scope) := by
  induction e generalizing scope with
  | const slot => exact .pure slot
  | arg index rep => exact .arg args index
  | readLocal index rep => exact .readLocal index (scope index)
  | invoke m es ih =>
    simp only [methods,List.mem_cons,forall_eq_or_imp,mem_methodsOf] at h
    rw [meaning]
    apply (meanings_leaves fun e he => ih e he (fun m hm => h.2 m ⟨e,he,hm⟩) scope).bind
    exact h.1
  | list es ih =>
    simp only [methods,mem_methodsOf] at h
    rw [meaning]
    apply (meanings_leaves fun e he => ih e he (fun m hm => h m ⟨e,he,hm⟩) scope).bind
    exact fun slots => .pure _
  | convert e target ih => exact (ih h scope).bind fun slot => .lift _
  | box e ih => exact (ih h scope).bind fun slot => .pure _
  | unbox e target ih => exact (ih h scope).bind fun slot => .lift _
  | isNull e ih => exact (ih h scope).bind fun slot => .pure _
  | not e ih => exact (ih h scope).bind fun slot => (Leaves.lift _).bind fun b => .pure _
  | bind index value body ihv ihb =>
    simp only [methods,List.mem_append] at h
    apply (ihv (fun m hm => h m (.inl hm)) scope).bind
    exact fun slot => ihb (fun m hm => h m (.inr hm)) (scope.bind index slot)
  | select c t f ihc iht ihf =>
    simp only [methods,List.mem_append] at h
    apply (ihc (fun m hm => h m (.inl (.inl hm))) scope).bind
    intro slot
    apply (Leaves.lift _).bind
    intro b
    cases b with
    | true => exact iht (fun m hm => h m (.inl (.inr hm))) scope
    | false => exact ihf (fun m hm => h m (.inr hm)) scope
  | compare k lhs rhs ihl ihr =>
    simp only [methods,List.mem_append] at h
    apply (ihl (fun m hm => h m (.inl hm)) scope).bind
    intro a
    apply (ihr (fun m hm => h m (.inr hm)) scope).bind
    exact fun b => (Leaves.lift _).bind fun order => .pure _

end Expr

end CallLowering
