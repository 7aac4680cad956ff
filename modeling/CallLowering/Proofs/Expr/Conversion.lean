import CallLowering.Proofs.Expr.Behind

namespace CallLowering

namespace Slot

/-- What a slot is converted to does not depend on whether it has been put into a box. -/
theorem convert_box {s : Slot} {target : Rep} (h : ¬s.rep.Apart target) : s.box.convert target=s.convert target := by
  cases s with
  | boxed v => rfl
  | bool b =>
    cases target with
    | bool => rfl
    | boxed => rfl
    | int64 => exact absurd (show Rep.Apart .bool .int64 by decide) h
    | float64 => exact absurd (show Rep.Apart .bool .float64 by decide) h
  | int64 n =>
    cases target with
    | bool => exact absurd (show Rep.Apart .int64 .bool by decide) h
    | _ => rfl
  | float64 x =>
    cases target with
    | bool => exact absurd (show Rep.Apart .float64 .bool by decide) h
    | _ => rfl

end Slot

namespace Expr

variable {σ : Type} {host : Host σ} {args : List Slot} {e e' : Expr} {target : Rep}

/-- A slot that already is in the representation that is asked for. -/
theorem bind_convert_self {x : Run σ Slot} (hx : Run.Ensures (fun slot => slot.rep=target) (fun _ => True) x) :
    (do Run.lift ((← x).convert target))=x := by
  have kept : ∀ slot : Slot, slot.rep=target → (Run.lift (slot.convert target) : Run σ Slot)=pure slot := by
    intro slot hs
    rw [←hs,slot.convert_self]
    rfl
  rw [hx.bind_congr kept,bind_pure]

/-- A tree that is left as it is must already mean slots in the representation that is asked for. -/
theorem Coerced.meaning (h : Coerced target e e') (scope : Scope) (hr : e.rep=target →
      Run.Ensures (fun slot => slot.rep=target) (fun _ => True) (e.meaning host args scope)) :
    e'.meaning host args scope=(do Run.lift ((← e.meaning host args scope).convert target)) := by
  cases h with
  | same h => exact (bind_convert_self (hr h)).symm
  | @folded slot slot' h =>
    rw [Expr.meaning,Expr.meaning,pure_bind,h]
    rfl
  | boxed h =>
    simp only [Expr.meaning,h,Slot.convert_boxed]
    rfl
  | unboxed => simp only [Expr.meaning,Slot.unbox_eq_convert]
  | converted => rw [Expr.meaning]

/-- The same of what the machine computes. -/
theorem Coerced.evaluate (h : Coerced target e e') (he : e.isClosed [])
    (hr : e.rep=target → Run.Ensures (fun slot => slot.rep=target) (fun _ => True) (e.evaluate host args)) :
    e'.evaluate host args=(do Run.lift ((← e.evaluate host args).convert target)) := by
  cases h with
  | same h => exact (bind_convert_self (hr h)).symm
  | @folded slot slot' h =>
    rw [evaluate_const,evaluate_const,pure_bind,h]
    rfl
  | boxed h =>
    simp only [evaluate_box he,h,Slot.convert_boxed]
    rfl
  | unboxed => simp only [evaluate_unbox he,Slot.unbox_eq_convert]
  | converted => exact evaluate_convert he target

/-- Both ways from a bare representation into another one: directly, and through a box. -/
theorem Boxed.evaluate_coerced {d d' : Expr} (hb : Boxed e d) (hd : d.rep=.boxed) (he : e.isClosed [])
    (hr : Run.Ensures (fun slot => slot.rep=e.rep) (fun _ => True) (e.evaluate host args))
    (ha : ¬e.rep.Apart target) (ht : target≠.boxed) (hs : e.rep≠.boxed) (h : Coerced target e e')
    (h' : Coerced target d d') : d'.evaluate host args=e'.evaluate host args := by
  have boxed : d.evaluate host args=(do return (← e.evaluate host args).box) := by
    cases hb with
    | already => exact absurd hd hs
    | constant => rw [evaluate_const,evaluate_const,pure_bind]
    | node => exact evaluate_box he
  rw [h'.evaluate (hb.isClosed he) fun h => absurd (h.symm.trans hd) ht,h.evaluate he fun h => h ▸ hr,boxed,bind_assoc]
  apply hr.bind_congr
  intro slot hslot
  rw [pure_bind,Slot.convert_box (hslot ▸ ha)]

/-- Bringing a tree into another representation fails just for bare truth values on one side. Otherwise the result
computes what conversion makes of the slot of the tree, and so does what comes out of a box that the tree is put
into; for what stays as it is, this asks that the routines keep their word. -/
theorem coerce_converts (host : Host σ) (he : e.isTyped (args.map Slot.rep) []) (target : Rep) :
    ((∃ error, e.coerce target=.error error) ↔ e.rep.Apart target) ∧
    ∀ e', e.coerce target=.ok e' → e'.rep=target ∧
      ((e.rep=target → host.Keeps e.methods) →
        e'.evaluate host args=(do Run.lift ((← e.evaluate host args).convert target))) ∧
      ∃ d d', e.coerce .boxed=.ok d ∧ d.coerce target=.ok d' ∧
        ((e.rep≠.boxed → target≠.boxed → host.Keeps e.methods) →
          d'.evaluate host args=e'.evaluate host args) := by
  refine ⟨coerce_error_iff,fun e' h => ?_⟩
  have closed : e.isClosed [] := isClosed_of_isTyped e he
  have coerced := coerced_of_coerce h
  refine ⟨coerced.rep_eq,fun hk => coerced.evaluate closed fun hr => hr ▸ evaluate_rep he (hk hr),?_⟩
  obtain ⟨d,boxed,hd⟩ := e.exists_coerce_boxed
  have rep : d.rep=.boxed := (coerced_of_coerce hd).rep_eq
  obtain ⟨d',hd'⟩ : ∃ d', d.coerce target=.ok d' := exists_coerce (by simp [rep])
  refine ⟨d,d',hd,hd',fun hk => ?_⟩
  by_cases hs : e.rep=.boxed
  · -- the tree is in a box already
    have same : d=e := by
      rw [coerce,if_pos hs] at hd
      cases hd
      rfl
    rw [same,h] at hd'
    cases hd'
    rfl
  · by_cases ht : target=.boxed
    · -- it stays in the box
      rw [ht] at h hd'
      rw [coerce,if_pos rep] at hd'
      cases hd'
      rw [h] at hd
      cases hd
      rfl
    · have apart : ¬e.rep.Apart target := fun ha => by
        rw [coerce_of_apart ha] at h
        cases h
      exact boxed.evaluate_coerced rep closed (evaluate_rep he (hk hs ht)) apart ht hs coerced (coerced_of_coerce hd')

/-- The number that is drawn or rounded, as a float. -/
theorem coerce_converts_drawnChoice :
    let host := Instances.host fun _ _ _ => .error (.missingReceiver "Host")
    let args : List Slot := [.boxed (.bool true),.float64 (.ofInt 3)]
    drawnChoice.isTyped (args.map Slot.rep) [] ∧ host.Keeps drawnChoice.methods ∧
      ∃ e', drawnChoice.coerce .float64=.ok e' ∧ e'.rep=.float64 ∧
        e'.evaluate host args=(do Run.lift ((← drawnChoice.evaluate host args).convert .float64)) ∧
        ∃ d d', drawnChoice.coerce .boxed=.ok d ∧ d.coerce .float64=.ok d' ∧
          d'.evaluate host args=e'.evaluate host args := by
  intro host args
  have typed : drawnChoice.isTyped (args.map Slot.rep) [] := by decide
  have keeps : host.Keeps drawnChoice.methods := Instances.host_keeps _ (by decide)
  have coerced : drawnChoice.coerce .float64=.ok (drawnChoice.convert .float64) := by cbv
  obtain ⟨rep,evaluated,d,d',hd,hd',through⟩ := (coerce_converts host typed .float64).2 _ coerced
  exact ⟨typed,keeps,_,coerced,rep,evaluated fun _ => keeps,d,d',hd,hd',through fun _ _ => keeps⟩

/-- A routine that breaks its word: it declares a float and answers with an integer. A call of it is left as it is
where a float is asked for, and only the way through a box makes the integer a float. -/
theorem coerce_not_converts :
    let host := Instances.host fun _ _ _ => .ok (.int64 0)
    let zero : Expr := .invoke ⟨⟨"Host","zero",[],.float64,false,.foreign "zero"⟩,false⟩ []
    zero.isTyped [] [] ∧ zero.coerce .float64=.ok zero ∧
      zero.evaluate host [] .empty=(.ok (.int64 0),.empty) ∧
      zero.evaluate host []≠(do Run.lift ((← zero.evaluate host []).convert .float64)) ∧
      ∃ d d', zero.coerce .boxed=.ok d ∧ d.coerce .float64=.ok d' ∧
        d'.evaluate host [] .empty=(.ok (.float64 (.ofInt 0)),.empty) ∧ d'.evaluate host []≠zero.evaluate host [] := by
  intro host zero
  have kept : zero.evaluate host [] .empty=(.ok (.int64 0),.empty) := by cbv
  have converted : (do Run.lift ((← zero.evaluate host []).convert .float64) : Run Instances Slot) .empty=
      (.ok (.float64 (.ofInt 0)),.empty) := by
    rw [Failure.bind_apply,kept]
    rfl
  have through : (zero.box.unbox .float64).evaluate host [] .empty=(.ok (.float64 (.ofInt 0)),.empty) := by
    rw [evaluate_unbox rfl,evaluate_box rfl,bind_assoc,Failure.bind_apply,kept]
    rfl
  refine ⟨by decide,rfl,kept,?_,_,_,rfl,rfl,through,?_⟩
  · intro same
    rw [same,converted] at kept
    cases kept
  · intro same
    rw [same,kept] at through
    cases through

end Expr

end CallLowering
