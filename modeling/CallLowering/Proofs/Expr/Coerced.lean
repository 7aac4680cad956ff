import CallLowering.Expr.Builder
import CallLowering.Proofs.Expr.Closed
import CallLowering.Proofs.Failure
import Mathlib.Data.List.Forall2

namespace CallLowering

namespace Expr

variable {e e' : Expr} {target : Rep}

/-- What changing the representation of a tree makes of it: nothing, another constant, or one node around it. -/
inductive Coerced (target : Rep) : Expr → Expr → Prop
  | same {e : Expr} (h : e.rep=target) : Coerced target e e
  | folded {slot slot' : Slot} (h : slot.convert target=.ok slot') : Coerced target (const slot) (const slot')
  | boxed {e : Expr} (h : target=.boxed) : Coerced target e (box e)
  | unboxed {e : Expr} : Coerced target e (unbox e target)
  | converted {e : Expr} : Coerced target e (convert e target)

theorem coerced_of_coerce (h : e.coerce target=.ok e') : Coerced target e e' := by
  rw [coerce] at h
  split at h
  · next hrep =>
    cases h
    exact .same hrep
  · split at h
    · next folded hf =>
      cases h
      cases e with
      | const slot =>
        obtain ⟨slot',hs,rfl⟩ := Option.map_eq_some_iff.mp hf
        cases hc : slot.convert target with
        | error e =>
          rw [hc] at hs
          cases hs
        | ok s =>
          rw [hc] at hs
          cases hs
          exact .folded hc
      | _ => cases hf
    · split at h
      · next hb =>
        cases h
        exact .boxed hb
      · split at h
        · cases h
          exact .unboxed
        · split at h
          · cases h
            exact .converted
          · cases h

namespace Coerced

theorem isClosed (h : Coerced target e e') {inside : List UInt16} (he : e.isClosed inside) :
    e'.isClosed inside := by
  cases h with
  | folded h => rfl
  | _ => exact he

end Coerced

@[simp] theorem areCheap_iff (es : List Expr) : areCheap es ↔ ∀ e∈es, e.isCheap := by
  induction es with
  | nil => simp [areCheap]
  | cons e es ih => simp [areCheap,ih]

/-- Cheap trees bind no locals. -/
theorem bound_of_isCheap (e : Expr) (h : e.isCheap) : e.bound=[] := by
  induction e with
  | const slot => rfl
  | arg index rep => rfl
  | readLocal index rep => rfl
  | invoke m es ih =>
    simp only [isCheap,Bool.and_eq_true,areCheap_iff] at h
    rw [bound,List.eq_nil_iff_forall_not_mem]
    intro i hi
    obtain ⟨e,he,hi⟩ := mem_boundIn.mp hi
    rw [ih e he (h.2 e he)] at hi
    cases hi
  | convert e target ih => exact ih h
  | box e ih => exact ih h
  | unbox e target ih => exact ih h
  | list es ih => cases h
  | bind index value body ihv ihb => cases h
  | select c t f ihc iht ihf => cases h
  | compare k lhs rhs ihl ihr => cases h
  | isNull e ih => cases h
  | not e ih => cases h

end Expr

/-- Arguments and what they are passed as, each in the representation of some parameter. -/
abbrev Expr.AllCoerced (params : List Rep) : List Expr → List Expr → Prop :=
  List.Forall₂ fun e e' => ∃ p∈params, Expr.Coerced p e e'

theorem coerceAll_coerced {es es' : List Expr} {params : List Rep} (hl : es.length=params.length)
    (h : coerceAll es params=.ok es') : Expr.AllCoerced params es es' := by
  induction es generalizing params es' with
  | nil =>
    cases h
    exact .nil
  | cons e es ih =>
    cases params with
    | nil => cases hl
    | cons p params =>
      obtain ⟨e',he,h⟩ := Failure.bind_ok h
      obtain ⟨rest,hrest,h⟩ := Failure.bind_ok h
      cases h
      have tail := ih (Nat.succ.inj hl) hrest
      refine .cons ⟨p,List.mem_cons_self,Expr.coerced_of_coerce he⟩ (tail.imp ?_)
      rintro e e' ⟨p,hp,hc⟩
      exact ⟨p,List.mem_cons_of_mem _ hp,hc⟩

theorem Expr.AllCoerced.areClosed {params : List Rep} {es es' : List Expr} (h : Expr.AllCoerced params es es')
    (hc : ∀ e∈es, e.isClosed []) : ∀ e∈es', e.isClosed [] := by
  induction h with
  | nil => simp
  | @cons e e' es es' he _ ih =>
    obtain ⟨p,-,he⟩ := he
    intro d hd
    obtain rfl|hd := List.mem_cons.mp hd
    · exact he.isClosed (hc e (by simp))
    · exact ih (fun e he => hc e (by simp [he])) d hd

end CallLowering
