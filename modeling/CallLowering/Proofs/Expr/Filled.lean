import CallLowering.Proofs.Machine.Outside
import Mathlib.Data.List.Forall2

namespace CallLowering

/-- Some of the references in the first tree, with their slots in the second one. -/
inductive Expr.Filled (refs : List (Expr × Slot)) : Expr → Expr → Prop
  | ref {e : Expr} {slot : Slot} (h : (e,slot)∈refs) : Filled refs e (.const slot)
  | const (slot : Slot) : Filled refs (.const slot) (.const slot)
  | arg (index : UInt16) (rep : Rep) : Filled refs (.arg index rep) (.arg index rep)
  | readLocal (index : UInt16) (rep : Rep) : Filled refs (.readLocal index rep) (.readLocal index rep)
  | invoke {m : Method} {es es' : List Expr} (h : List.Forall₂ (Filled refs) es es') :
      Filled refs (.invoke m es) (.invoke m es')
  | convert {e e' : Expr} {target : Rep} (h : Filled refs e e') : Filled refs (.convert e target) (.convert e' target)
  | box {e e' : Expr} (h : Filled refs e e') : Filled refs (.box e) (.box e')
  | unbox {e e' : Expr} {target : Rep} (h : Filled refs e e') : Filled refs (.unbox e target) (.unbox e' target)
  | list {es es' : List Expr} (h : List.Forall₂ (Filled refs) es es') : Filled refs (.list es) (.list es')
  | bind {index : UInt16} {value value' body body' : Expr} (hv : Filled refs value value')
      (hb : Filled refs body body') : Filled refs (.bind index value body) (.bind index value' body')
  | select {c c' t t' f f' : Expr} (hc : Filled refs c c') (ht : Filled refs t t') (hf : Filled refs f f') :
      Filled refs (.select c t f) (.select c' t' f')
  | compare {k : Comparison} {lhs lhs' rhs rhs' : Expr} (hl : Filled refs lhs lhs') (hr : Filled refs rhs rhs') :
      Filled refs (.compare k lhs rhs) (.compare k lhs' rhs')
  | isNull {e e' : Expr} (h : Filled refs e e') : Filled refs (.isNull e) (.isNull e')
  | not {e e' : Expr} (h : Filled refs e e') : Filled refs (.not e) (.not e')

namespace Expr

variable {refs : List (Expr × Slot)}

/-- What is read from outside is read by a reference, if it is not read any more once these are filled in. -/
theorem outside_of_filled (e : Expr) {e' : Expr} (h : Filled refs e e') :
    ∀ i∈e.outside, i∈e'.outside ∨ i∈outsideOf (refs.map Prod.fst) := by
  have ref {e : Expr} {slot : Slot} (h : (e,slot)∈refs) :
      ∀ i∈e.outside, i∈(const slot).outside ∨ i∈outsideOf (refs.map Prod.fst) :=
    fun i hi => .inr (mem_outsideOf.mpr ⟨e,List.mem_map.mpr ⟨_,h,rfl⟩,hi⟩)
  have both {first first' second second' outer : List UInt16} (h : ∀ i∈first, i∈first' ∨ i∈outer)
      (h' : ∀ i∈second, i∈second' ∨ i∈outer) : ∀ i∈first++second, i∈first'++second' ∨ i∈outer := by
    intro i hi
    obtain hi|hi := List.mem_append.mp hi
    · exact (h i hi).imp_left (List.mem_append_left _)
    · exact (h' i hi).imp_left (List.mem_append_right _)
  have all {es es' : List Expr} (h : List.Forall₂ (Filled refs) es es')
      (ih : ∀ e∈es, ∀ {e'}, Filled refs e e' → ∀ i∈e.outside, i∈e'.outside ∨ i∈outsideOf (refs.map Prod.fst)) :
      ∀ i∈outsideOf es, i∈outsideOf es' ∨ i∈outsideOf (refs.map Prod.fst) := by
    induction h with
    | nil => simp [outsideOf]
    | cons h _ ihs => exact both (ih _ (by simp) h) (ihs fun e he => ih e (by simp [he]))
  induction e generalizing e' with
  | const slot => simp [outside]
  | arg index rep => simp [outside]
  | readLocal index rep =>
    cases h with
    | ref h => exact ref h
    | readLocal => exact fun i hi => .inl hi
  | invoke m es ih =>
    cases h with
    | ref h => exact ref h
    | invoke h => exact all h fun e he e' h => ih e he h
  | list es ih =>
    cases h with
    | ref h => exact ref h
    | list h => exact all h fun e he e' h => ih e he h
  | convert e target ih =>
    cases h with
    | ref h => exact ref h
    | convert h => exact fun i hi => ih h i hi
  | box e ih =>
    cases h with
    | ref h => exact ref h
    | box h => exact fun i hi => ih h i hi
  | unbox e target ih =>
    cases h with
    | ref h => exact ref h
    | unbox h => exact fun i hi => ih h i hi
  | isNull e ih =>
    cases h with
    | ref h => exact ref h
    | isNull h => exact fun i hi => ih h i hi
  | not e ih =>
    cases h with
    | ref h => exact ref h
    | not h => exact fun i hi => ih h i hi
  | bind index value body ihv ihb =>
    cases h with
    | ref h => exact ref h
    | bind hv hb =>
      refine both (ihv hv) fun i hi => ?_
      obtain ⟨inner,apart⟩ := List.mem_filter.mp hi
      exact (ihb hb i inner).imp_left fun kept => List.mem_filter.mpr ⟨kept,apart⟩
  | select c t f ihc iht ihf =>
    cases h with
    | ref h => exact ref h
    | select hc ht hf => exact both (both (ihc hc) (iht ht)) (ihf hf)
  | compare k lhs rhs ihl ihr =>
    cases h with
    | ref h => exact ref h
    | compare hl hr => exact both (ihl hl) (ihr hr)

end Expr

/-- Two arrays of locals that agree inside; in the first one each reference means its slot. -/
structure Locals.Tracks {σ : Type} (host : Host σ) (args : List Slot) (inside : List UInt16)
    (refs : List (Expr × Slot)) (locals locals' : Locals) : Prop where
  size : locals.size=locals'.size
  agree : ∀ i∈inside, locals[i.toNat]?=locals'[i.toNat]?
  means : ∀ r∈refs, r.1.meaning host args locals.scope=pure r.2

namespace Locals

theorem scope_store (locals : Locals) {index i : UInt16} (slot : Slot) (h : i≠index) :
    Locals.scope (locals.setIfInBounds index.toNat (some slot)) i=locals.scope i := by
  have apart : index.toNat≠i.toNat := fun eq => h (UInt16.toNat_inj.mp eq.symm)
  rw [Locals.scope,Locals.scope,Array.getElem?_setIfInBounds_ne apart]

namespace Tracks

variable {σ : Type} {host : Host σ} {args : List Slot} {inside inside' : List UInt16} {refs : List (Expr × Slot)}
  {locals locals' : Locals}

theorem mono (h : Tracks host args inside' refs locals locals') (hi : inside⊆inside') :
    Tracks host args inside refs locals locals' :=
  ⟨h.size,fun i hm => h.agree i (hi hm),h.means⟩

/-- Storing into a local that no reference reads does not change what these mean. -/
theorem means_store (h : ∀ r∈refs, r.1.meaning host args locals.scope=pure r.2) (hr : ∀ r∈refs, r.1.bound=[])
    {index : UInt16} (hi : ∀ r∈refs, index∉r.1.outside) (slot : Slot) :
    ∀ r∈refs, r.1.meaning host args (Locals.scope (locals.setIfInBounds index.toNat (some slot)))=pure r.2 := by
  intro r hm
  have closed : r.1.isClosed r.1.outside := r.1.isClosed_outside (hr r hm) (List.Subset.refl _)
  rw [← h r hm]
  apply Expr.meaning_congr host args r.1 closed
  exact fun i hout => scope_store locals slot fun eq => hi r hm (eq ▸ hout)

/-- The arrays also agree where the same slot is stored into both. -/
theorem store (h : Tracks host args inside refs locals locals') (hr : ∀ r∈refs, r.1.bound=[]) {index : UInt16}
    (hi : ∀ r∈refs, index∉r.1.outside) (slot : Slot) :
    Tracks host args (index::inside) refs (locals.setIfInBounds index.toNat (some slot))
      (locals'.setIfInBounds index.toNat (some slot)) := by
  refine ⟨by simpa using h.size,fun i hm => ?_,means_store h.means hr hi slot⟩
  rw [Array.getElem?_setIfInBounds,Array.getElem?_setIfInBounds,h.size]
  by_cases eq : i=index
  · simp [eq]
  · rw [h.agree i (List.mem_of_ne_of_mem eq hm)]

/-- One more tree that means its slot. -/
theorem append (h : Tracks host args inside refs locals locals') {e : Expr} {slot : Slot}
    (he : e.meaning host args locals.scope=pure slot) : Tracks host args inside (refs++[(e,slot)]) locals locals' :=
  ⟨h.size,h.agree,List.forall_mem_append.mpr ⟨h.means,List.forall_mem_singleton.mpr he⟩⟩

/-- A slot that is stored into the first array alone can be read from there. -/
theorem take (h : Tracks host args inside refs locals locals') (hr : ∀ r∈refs, r.1.bound=[]) {index : UInt16}
    (hn : index∉inside) (hi : ∀ r∈refs, index∉r.1.outside) (hlt : index.toNat < locals.size) (rep : Rep)
    (slot : Slot) : Tracks host args inside (refs++[(.readLocal index rep,slot)])
      (locals.setIfInBounds index.toNat (some slot)) locals' := by
  have stored : Tracks host args inside refs (locals.setIfInBounds index.toNat (some slot)) locals' := by
    refine ⟨by simpa using h.size,fun i hm => ?_,means_store h.means hr hi slot⟩
    have apart : index.toNat≠i.toNat := fun eq => hn (UInt16.toNat_inj.mp eq ▸ hm)
    rw [Array.getElem?_setIfInBounds_ne apart,h.agree i hm]
  apply stored.append
  rw [Expr.meaning,Locals.scope,Array.getElem?_setIfInBounds_self_of_lt hlt]
  rfl

end Tracks

end Locals

/-- The same result, with locals of which the first ones track the second ones. -/
abbrev Locals.Abreast {σ α : Type} (host : Host σ) (args : List Slot) (inside : List UInt16)
    (refs : List (Expr × Slot)) (x y : α × Locals) : Prop :=
  x.1=y.1 ∧ Tracks host args inside refs x.2 y.2

namespace Expr

open Locals Run.Lockstep

variable {σ : Type} {host : Host σ} {args : List Slot} {inside : List UInt16} {refs : List (Expr × Slot)}
  {locals locals' : Locals}

/-- A computation that has nothing to do with the locals. -/
theorem abreast_alongside {α : Type} (x : Run σ α) (h : Tracks host args inside refs locals locals') :
    Run.Lockstep (Abreast host args inside refs) (do return (← x,locals)) (do return (← x,locals')) :=
  (refl x).bind fun _ _ same => pure ⟨same,h⟩

theorem abreast_map {α β : Type} {x y : Run σ (α × Locals)} (h : Run.Lockstep (Abreast host args inside refs) x y)
    (f : α → Run σ β) : Run.Lockstep (Abreast host args inside refs)
      (do let r ← x; return (← f r.1,r.2)) (do let r ← y; return (← f r.1,r.2)) := by
  apply h.bind
  rintro ⟨a,after⟩ ⟨_,after'⟩ ⟨rfl,tracks⟩
  exact abreast_alongside (f a) tracks

theorem executeAll_abreast {es es' : List Expr} (h : List.Forall₂ (Filled refs) es es')
    (ih : ∀ e∈es, ∀ e'∈es', Filled refs e e' → ∀ locals locals', Tracks host args inside refs locals locals' →
      Run.Lockstep (Abreast host args inside refs) (e.execute host args id locals) (e'.execute host args id locals'))
    (ht : Tracks host args inside refs locals locals') :
    Run.Lockstep (Abreast host args inside refs) (executeAll host args id es locals)
      (executeAll host args id es' locals') := by
  induction h generalizing locals locals' with
  | nil => exact pure ⟨rfl,ht⟩
  | cons h _ ihs =>
    rw [executeAll,executeAll]
    apply (ih _ (by simp) _ (by simp) h _ _ ht).bind
    rintro ⟨a,after⟩ ⟨_,after'⟩ ⟨rfl,tracks⟩
    apply (ihs (fun e he e' he' => ih e (by simp [he]) e' (by simp [he'])) tracks).bind
    rintro ⟨as,last⟩ ⟨_,last'⟩ ⟨rfl,tracks⟩
    exact pure ⟨rfl,tracks⟩

/-- If the tree binds no local that a reference reads, and reads only from inside once the references are filled in,
both trees are evaluated in lockstep. -/
theorem execute_abreast (hr : ∀ r∈refs, r.1.bound=[]) (e : Expr) {e' : Expr} (h : Filled refs e e')
    (hb : ∀ i∈e.bound, ∀ r∈refs, i∉r.1.outside) (ho : e'.outside⊆inside)
    (ht : Tracks host args inside refs locals locals') : Run.Lockstep (Abreast host args inside refs)
      (e.execute host args id locals) (e'.execute host args id locals') := by
  have ref {e : Expr} {slot : Slot} {inside : List UInt16} {locals locals' : Locals} (h : (e,slot)∈refs)
      (ht : Tracks host args inside refs locals locals') : Run.Lockstep (Abreast host args inside refs)
        (e.execute host args id locals) ((const slot).execute host args id locals') := by
    rw [e.execute_unbound (hr _ h),ht.means _ h,pure_bind]
    exact pure ⟨rfl,ht⟩
  induction e generalizing e' inside locals locals' with
  | const slot =>
    cases h with
    | ref h => exact ref h ht
    | const => exact pure ⟨rfl,ht⟩
  | arg index rep =>
    cases h with
    | ref h => exact ref h ht
    | arg => exact abreast_alongside _ ht
  | readLocal index rep =>
    cases h with
    | ref h => exact ref h ht
    | readLocal =>
      have same := ht.agree index (ho (by simp [outside]))
      rw [execute,execute,load,load,same]
      exact abreast_alongside _ ht
  | invoke m es ih =>
    cases h with
    | ref h => exact ref h ht
    | invoke h =>
      apply abreast_map (executeAll_abreast h (fun e he e' he' h locals locals' ht => ih e he h ?_ ?_ ht) ht)
      · exact fun i hi => hb i (by simpa [bound] using ⟨e,he,hi⟩)
      · exact fun i hi => ho (by simpa [outside] using ⟨e',he',hi⟩)
  | list es ih =>
    cases h with
    | ref h => exact ref h ht
    | list h =>
      apply abreast_map (executeAll_abreast h (fun e he e' he' h locals locals' ht => ih e he h ?_ ?_ ht) ht)
        fun slots => return Slot.boxed (.list (slots.map Slot.toValue))
      · exact fun i hi => hb i (by simpa [bound] using ⟨e,he,hi⟩)
      · exact fun i hi => ho (by simpa [outside] using ⟨e',he',hi⟩)
  | convert e target ih =>
    cases h with
    | ref h => exact ref h ht
    | convert h => exact abreast_map (ih h hb ho ht) fun slot => Run.lift (slot.convert target)
  | box e ih =>
    cases h with
    | ref h => exact ref h ht
    | box h => exact abreast_map (ih h hb ho ht) fun slot => return slot.box
  | unbox e target ih =>
    cases h with
    | ref h => exact ref h ht
    | unbox h => exact abreast_map (ih h hb ho ht) fun slot => Run.lift (slot.unbox target)
  | isNull e ih =>
    cases h with
    | ref h => exact ref h ht
    | isNull h => exact abreast_map (ih h hb ho ht) fun slot => return Slot.bool slot.isNullish
  | not e ih =>
    cases h with
    | ref h => exact ref h ht
    | not h =>
      have both := abreast_map (ih h hb ho ht) fun slot => do return Slot.bool (!(← Run.lift slot.toBool))
      simpa only [execute,bind_assoc,pure_bind] using both
  | bind index value body ihv ihb =>
    cases h with
    | ref h => exact ref h ht
    | bind hv hbody =>
      rw [execute,execute]
      apply (ihv hv (fun i hi => hb i (by simp [bound,hi])) (fun i hi => ho (by simp [outside,hi])) ht).bind
      rintro ⟨slot,after⟩ ⟨_,after'⟩ ⟨rfl,tracks⟩
      have apart := hb index (by simp [bound])
      simp only [Locals.store,← tracks.size]
      by_cases hin : index.toNat < after.size
      · rw [if_pos hin,if_pos hin,pure_bind,pure_bind]
        have stored := tracks.store hr apart slot
        refine (ihb hbody (fun i hi => hb i (by simp [bound,hi])) (fun i hi => ?_) stored).mono fun _ _ both =>
          ⟨both.1,both.2.mono (List.subset_cons_self ..)⟩
        by_cases eq : i=index
        · simp [eq]
        · exact List.mem_cons_of_mem _ (ho (by simp [outside,hi,eq]))
      · rw [if_neg hin,if_neg hin]
        exact throw _
  | select c t f ihc iht ihf =>
    cases h with
    | ref h => exact ref h ht
    | select hc htrue hfalse =>
      rw [execute,execute]
      apply (ihc hc (fun i hi => hb i (by simp [bound,hi])) (fun i hi => ho (by simp [outside,hi])) ht).bind
      rintro ⟨slot,after⟩ ⟨_,after'⟩ ⟨rfl,tracks⟩
      apply (refl (Run.lift slot.toBool)).bind
      rintro b _ rfl
      cases b with
      | true =>
        exact iht htrue (fun i hi => hb i (by simp [bound,hi])) (fun i hi => ho (by simp [outside,hi])) tracks
      | false =>
        exact ihf hfalse (fun i hi => hb i (by simp [bound,hi])) (fun i hi => ho (by simp [outside,hi])) tracks
  | compare k lhs rhs ihl ihr =>
    cases h with
    | ref h => exact ref h ht
    | compare hl hrhs =>
      rw [execute,execute]
      apply (ihl hl (fun i hi => hb i (by simp [bound,hi])) (fun i hi => ho (by simp [outside,hi])) ht).bind
      rintro ⟨a,after⟩ ⟨_,after'⟩ ⟨rfl,tracks⟩
      have both := abreast_map (ihr hrhs (fun i hi => hb i (by simp [bound,hi]))
        (fun i hi => ho (by simp [outside,hi])) tracks) fun b => do
          return Slot.bool (k.holds (← Run.lift (a.order b)))
      simpa only [bind_assoc,pure_bind] using both

end Expr

end CallLowering
