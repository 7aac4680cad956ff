import CallLowering.Proofs.Machine.Ensures
import CallLowering.Proofs.Machine.Locals

namespace CallLowering

namespace Expr

mutual

/-- The locals that a tree reads where it does not bind them itself. -/
def outside : Expr → List UInt16
  | const _ => []
  | arg _ _ => []
  | readLocal index _ => [index]
  | invoke _ es => outsideOf es
  | convert e _ => e.outside
  | box e => e.outside
  | unbox e _ => e.outside
  | list es => outsideOf es
  | bind index value body => value.outside++body.outside.filter fun i => i≠index
  | select c t f => c.outside++t.outside++f.outside
  | compare _ lhs rhs => lhs.outside++rhs.outside
  | isNull e => e.outside
  | not e => e.outside

def outsideOf : List Expr → List UInt16
  | [] => []
  | e::es => e.outside++outsideOf es

end

@[simp] theorem mem_outsideOf {index : UInt16} {es : List Expr} :
    index∈outsideOf es ↔ ∃ e∈es, index∈e.outside := by
  induction es with
  | nil => simp [outsideOf]
  | cons e es ih => simp [outsideOf,ih]

/-- Where nothing is bound, what is read is what is read from outside. -/
theorem isClosed_outside (e : Expr) (hb : e.bound=[]) {inside : List UInt16} (h : e.outside⊆inside) :
    e.isClosed inside := by
  have none {es : List Expr} (hb : boundIn es=[]) : ∀ e∈es, e.bound=[] := by
    intro e he
    apply List.eq_nil_iff_forall_not_mem.mpr
    intro i hi
    have hm : i∈boundIn es := mem_boundIn.mpr ⟨e,he,hi⟩
    rw [hb] at hm
    cases hm
  induction e generalizing inside with
  | const slot => rfl
  | arg index rep => rfl
  | readLocal index rep =>
    simp only [isClosed,decide_eq_true_eq]
    exact h (by simp [outside])
  | invoke m es ih =>
    simp only [isClosed,areClosed_iff]
    exact fun e he => ih e he (none hb e he) fun i hi => h (by simpa [outside] using ⟨e,he,hi⟩)
  | list es ih =>
    simp only [isClosed,areClosed_iff]
    exact fun e he => ih e he (none hb e he) fun i hi => h (by simpa [outside] using ⟨e,he,hi⟩)
  | convert e target ih => exact ih hb h
  | box e ih => exact ih hb h
  | unbox e target ih => exact ih hb h
  | isNull e ih => exact ih hb h
  | not e ih => exact ih hb h
  | bind index value body ihv ihb => cases hb
  | select c t f ihc iht ihf =>
    simp only [bound,List.append_eq_nil_iff] at hb
    simp only [isClosed,Bool.and_eq_true]
    refine ⟨⟨ihc hb.1.1 ?_,iht hb.1.2 ?_⟩,ihf hb.2 ?_⟩ <;> exact fun i hi => h (by simp [outside,hi])
  | compare k lhs rhs ihl ihr =>
    simp only [bound,List.append_eq_nil_iff] at hb
    simp only [isClosed,Bool.and_eq_true]
    refine ⟨ihl hb.1 ?_,ihr hb.2 ?_⟩ <;> exact fun i hi => h (by simp [outside,hi])

end Expr

/-- After a computation there are as many locals as before, and only these have changed. -/
structure Locals.Apart (bound : List UInt16) (before after : Locals) : Prop where
  size : after.size=before.size
  others : ∀ place : Nat, (∀ i∈bound, i.toNat≠place) → after[place]?=before[place]?

namespace Locals.Apart

variable {bound bound' : List UInt16} {locals after last : Locals}

theorem refl (bound : List UInt16) (locals : Locals) : Apart bound locals locals := ⟨rfl,fun _ _ => rfl⟩

theorem mono (h : Apart bound locals after) (hb : bound⊆bound') : Apart bound' locals after :=
  ⟨h.size,fun place hp => h.others place fun i hi => hp i (hb hi)⟩

theorem trans (h : Apart bound locals after) (h' : Apart bound after last) : Apart bound locals last :=
  ⟨h'.size.trans h.size,fun place hp => (h'.others place hp).trans (h.others place hp)⟩

theorem store (index : UInt16) (slot : Option Slot) :
    Apart [index] locals (locals.setIfInBounds index.toNat slot) := by
  refine ⟨Array.size_setIfInBounds,fun place hp => ?_⟩
  exact Array.getElem?_setIfInBounds_ne (hp index (by simp))

/-- Where nothing is bound nothing changes. -/
theorem eq (h : Apart [] locals after) : after=locals :=
  Array.ext_getElem? fun place => h.others place (by simp)

end Locals.Apart

variable {σ : Type} {host : Host σ} {args : List Slot} {pool : Slot → Slot}

namespace Expr

open Run Locals

/-- The locals after a computation, whatever its result is. -/
abbrev Frames {σ α : Type} (bound : List UInt16) (locals : Locals) (x : Run σ (α × Locals)) : Prop :=
  Ensures (fun r => Apart bound locals r.2) (fun _ => True) x

theorem Frames.map {α β : Type} {bound : List UInt16} {locals : Locals} {x : Run σ (α × Locals)}
    (h : Frames bound locals x) (f : α → Run σ β) : Frames bound locals (do let r ← x; return (← f r.1,r.2)) := by
  apply h.bind
  intro r apart
  exact (Ensures.any (f r.1)).bind fun _ _ => .pure apart

theorem executeAll_frames {es : List Expr} (ih : ∀ e∈es, ∀ locals : Locals,
      Frames e.bound locals (e.execute host args pool locals)) (locals : Locals) :
    Frames (boundIn es) locals (executeAll host args pool es locals) := by
  induction es generalizing locals with
  | nil => exact .pure (.refl _ _)
  | cons e es ihs =>
    rw [executeAll]
    apply (ih e (by simp) locals).bind
    intro r first
    apply (ihs (fun e he => ih e (by simp [he])) r.2).bind
    intro rs rest
    exact .pure ((first.mono (by simp [boundIn])).trans (rest.mono (by simp [boundIn])))

/-- Evaluation on the array changes only what the tree binds. -/
theorem execute_frames (e : Expr) (locals : Locals) :
    Frames e.bound locals (e.execute host args pool locals) := by
  have alone {bound : List UInt16} (locals : Locals) (x : Run σ Slot) :
      Frames bound locals (do return (← x,locals)) :=
    (Ensures.any x).bind fun _ _ => .pure (.refl _ _)
  induction e generalizing locals with
  | const slot => exact .pure (.refl _ _)
  | arg index rep => exact alone locals _
  | readLocal index rep => exact alone locals _
  | invoke m es ih => exact (executeAll_frames ih locals).map (Run.call host m.routine)
  | list es ih =>
    exact (executeAll_frames ih locals).map fun slots => return Slot.boxed (.list (slots.map Slot.toValue))
  | convert e target ih => exact (ih locals).map fun slot => Run.lift (slot.convert target)
  | box e ih => exact (ih locals).map fun slot => return slot.box
  | unbox e target ih => exact (ih locals).map fun slot => Run.lift (slot.unbox target)
  | isNull e ih => exact (ih locals).map fun slot => return Slot.bool slot.isNullish
  | not e ih =>
    have h := (ih locals).map fun slot => do return Slot.bool (!(← Run.lift slot.toBool))
    show Frames e.bound locals _
    simpa only [execute,bind_assoc,pure_bind] using h
  | bind index value body ihv ihb =>
    rw [execute]
    apply (ihv locals).bind
    intro r first
    have stored : Ensures (fun after => Apart [index] r.2 after) (fun _ => True)
        (r.2.store index r.1 : Run σ Locals) := by
      rw [Locals.store]
      split
      · exact .pure (.store index _)
      · exact .throw trivial
    apply stored.bind
    intro after second
    apply (ihb after).mono _ fun _ h => h
    intro r' third
    exact (first.mono (by simp [bound])).trans ((second.mono (by simp [bound])).trans (third.mono (by simp [bound])))
  | select c t f ihc iht ihf =>
    rw [execute]
    apply (ihc locals).bind
    intro r first
    apply (Ensures.any (Run.lift r.1.toBool)).bind
    intro b _
    have before : Apart (select c t f).bound locals r.2 := first.mono (by simp [bound])
    cases b with
    | true => exact (iht r.2).mono (fun _ h => before.trans (h.mono (by simp [bound]))) fun _ h => h
    | false => exact (ihf r.2).mono (fun _ h => before.trans (h.mono (by simp [bound]))) fun _ h => h
  | compare k lhs rhs ihl ihr =>
    rw [execute]
    apply (ihl locals).bind
    intro a first
    have before : Apart (compare k lhs rhs).bound locals a.2 := first.mono (by simp [bound])
    have h := (ihr a.2).map fun slot => do return Slot.bool (k.holds (← Run.lift (a.1.order slot)))
    have after := h.mono (fun _ h => before.trans (h.mono (by simp [bound]))) fun _ h => h
    simpa only [bind_assoc,pure_bind] using after

/-- Only what becomes of the constants of the tree matters. -/
theorem execute_pool {pool pool' : Slot → Slot} (e : Expr) (h : ∀ slot∈e.constants, pool slot=pool' slot) :
    e.execute host args pool=e.execute host args pool' := by
  have each {es : List Expr} (h : ∀ e∈es, e.execute host args pool=e.execute host args pool') :
      executeAll host args pool es=executeAll host args pool' es := by
    induction es with
    | nil => rfl
    | cons e es ih =>
      funext locals
      simp only [executeAll,h e (by simp),ih fun e he => h e (by simp [he])]
  induction e with
  | const slot =>
    funext locals
    rw [execute,execute,h slot (by simp [constants])]
  | arg index rep => rfl
  | readLocal index rep => rfl
  | invoke m es ih =>
    have all := each fun e he => ih e he fun k hk => h k (by simpa [constants] using ⟨e,he,hk⟩)
    funext locals
    simp only [execute,all]
  | list es ih =>
    have all := each fun e he => ih e he fun k hk => h k (by simpa [constants] using ⟨e,he,hk⟩)
    funext locals
    simp only [execute,all]
  | convert e target ih =>
    funext locals
    simp only [execute,ih h]
  | box e ih =>
    funext locals
    simp only [execute,ih h]
  | unbox e target ih =>
    funext locals
    simp only [execute,ih h]
  | isNull e ih =>
    funext locals
    simp only [execute,ih h]
  | not e ih =>
    funext locals
    simp only [execute,ih h]
  | bind index value body ihv ihb =>
    funext locals
    simp only [execute,ihv fun k hk => h k (by simp [constants,hk]),ihb fun k hk => h k (by simp [constants,hk])]
  | select c t f ihc iht ihf =>
    funext locals
    simp only [execute,ihc fun k hk => h k (by simp [constants,hk]),iht fun k hk => h k (by simp [constants,hk]),
      ihf fun k hk => h k (by simp [constants,hk])]
  | compare k lhs rhs ihl ihr =>
    funext locals
    simp only [execute,ihl fun k hk => h k (by simp [constants,hk]),ihr fun k hk => h k (by simp [constants,hk])]

end Expr

/-- What the locals hold. -/
def Locals.scope (locals : Locals) : Scope := fun i => locals[i.toNat]?.join

/-- A tree that binds nothing means what it means in the scope of the locals, and leaves them as they are. -/
theorem Expr.execute_unbound (e : Expr) (hb : e.bound=[]) (locals : Locals) :
    e.execute host args id locals=(do return (← e.meaning host args locals.scope,locals)) := by
  have closed : e.isClosed e.outside := e.isClosed_outside hb (List.Subset.refl _)
  have free : ∀ i∈e.bound, i∉e.outside ∧ i.toNat < locals.size := by simp [hb]
  have hold : locals.Hold e.outside locals.scope := fun _ _ => rfl
  have lock := e.execute_meaning host args id closed free rfl hold
  have frames : Frames [] locals (e.execute host args id locals) := hb ▸ e.execute_frames locals
  rw [mapConstants_id] at lock
  funext s
  have ended := lock s
  rw [Failure.bind_apply]
  rcases hx : e.execute host args id locals s with ⟨fault|r,t⟩
  · rw [hx] at ended
    generalize e.meaning host args locals.scope s=y at ended ⊢
    cases ended
    rfl
  · have same : r.2=locals := (frames.result hx).eq
    rw [hx] at ended
    generalize e.meaning host args locals.scope s=y at ended ⊢
    cases ended with
    | ok t kept =>
      rw [← kept.value,← same]
      rfl

end CallLowering
