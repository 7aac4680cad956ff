import CallLowering.Proofs.Chunk.Emission
import CallLowering.Proofs.Chunk.Pooling
import CallLowering.Proofs.Expr.Passed
import CallLowering.Proofs.Machine.Safety

namespace CallLowering

variable {σ : Type} {host : Host σ} {args : List Slot}

namespace Run

variable {α β : Type} {P : α → Prop} {F : Fault → Prop} {x : Run σ α}

/-- What follows a computation only matters on its results. -/
theorem Ensures.bind_congr {f g : α → Run σ β} (h : Ensures P F x) (hf : ∀ a, P a → f a=g a) :
    (x >>= f)=(x >>= g) := by
  funext s
  rw [Failure.bind_apply,Failure.bind_apply]
  rcases hx : x s with ⟨e|a,t⟩
  · rfl
  · exact congrFun (hf a (h.result hx)) t

end Run

theorem Emitter.exists_pushInvoke {s : Emitter} (h : s.methods.size < 2^32) (m : Method) (count : UInt16) :
    ∃ s', s.pushInvoke m count=.ok s' := by
  unfold Emitter.pushInvoke
  split
  · next n hn =>
    have place := (Array.findIdx?_eq_some_iff_getElem.mp hn).1
    rw [operand32_of_lt (by omega)]
    exact ⟨_,rfl⟩
  · rw [operand32_of_lt h]
    exact ⟨_,rfl⟩

theorem Emitter.exists_pushConst (s : Emitter) (h : s.constants.size < 2^32) (slot : Slot) :
    ∃ s', s.pushConst slot=.ok s' := by
  unfold Emitter.pushConst
  split
  · next n hn =>
    have place := (Array.findIdx?_eq_some_iff_getElem.mp hn).1
    rw [operand32_of_lt (by omega)]
    exact ⟨_,rfl⟩
  · rw [operand32_of_lt h]
    exact ⟨_,rfl⟩

namespace Expr

/-- Can the code of a tree be followed by a call of any method? There is an end to the numbers of methods. -/
def TakesCall (e : Expr) : Prop := ∀ c, e.emit=.ok c → c.methods.size < 2^32

/-- Can the code of a tree be followed by any constant? -/
def TakesConst (e : Expr) : Prop := ∀ c, e.emit=.ok c → c.constants.size < 2^32

theorem emit_error {e : Expr} {error : LowerError} (h : Emitter.empty.emit e=.error error) :
    e.emit=.error error := by
  rw [emit,h]
  rfl

variable {e e' : Expr}

/-- The second tree has the code of the first, and then whatever `add` adds. -/
structure Behind (add : Emitter → Except LowerError Emitter) (e e' : Expr) : Prop where
  emitted : Emitter.empty.emit e'=Emitter.empty.emit e >>= add
  added : ∀ s, Emitter.empty.emit e=.ok s → ∃ s', add s=.ok s'
  constants : e.constants <+: e'.constants

/-- Constants that come later do not take the places of earlier ones. -/
theorem shared_of_prefix (h : e.constants <+: e'.constants) {slot : Slot} (hs : slot∈e.constants) :
    e'.shared slot=e.shared slot := by
  obtain ⟨later,happ⟩ := h
  rw [shared,shared,←happ,List.find?_append]
  cases hf : e.constants.find? fun k => k.equals slot with
  | some k => rfl
  | none =>
    have alone : slot.equals slot=false := by simpa using List.find?_eq_none.mp hf slot hs
    have apart : ∀ k∈later, ¬k.equals slot := fun k _ hk => by
      rw [Slot.equals_self hk] at alone
      cases alone
    rw [Option.none_or,List.find?_eq_none.mpr apart]

theorem Behind.evaluate {add : Emitter → Except LowerError Emitter} {f : Slot → Run σ Slot}
    (h : Behind add e e') (he : e.isClosed []) (he' : e'.isClosed [])
    (hm : (e'.mapConstants e'.shared).meaning host args Scope.empty=
      (e.mapConstants e'.shared).meaning host args Scope.empty >>= f) :
    e'.evaluate host args=e.evaluate host args >>= f := by
  cases hs : Emitter.empty.emit e with
  | error error =>
    have failed : Emitter.empty.emit e'=.error error := by rw [h.emitted,hs]; rfl
    rw [Expr.evaluate,Expr.evaluate,emit_error hs,emit_error failed]
    rfl
  | ok s =>
    obtain ⟨s',hs'⟩ := h.added s hs
    have emitted : Emitter.empty.emit e'=.ok s' := by rw [h.emitted,hs]; exact hs'
    have hc : e.emit=.ok ⟨s.code,s.constants,s.methods,s.maxLocals,e.rep⟩ := by rw [emit,hs]; rfl
    have hc' : e'.emit=.ok ⟨s'.code,s'.constants,s'.methods,s'.maxLocals,e'.rep⟩ := by rw [emit,emitted]; rfl
    rw [evaluate_closed hc' he',evaluate_closed hc he,funext (pooled_eq_shared hc'),funext (pooled_eq_shared hc),hm,
      e.mapConstants_congr fun slot => shared_of_prefix h.constants]

theorem evaluate_convert (he : e.isClosed []) (target : Rep) : (convert e target).evaluate host args=
    (do Run.lift ((← e.evaluate host args).convert target)) := by
  have behind : Behind (fun s => .ok (s.push (.convert target))) e (convert e target) :=
    ⟨rfl,fun s _ => ⟨_,rfl⟩,List.prefix_rfl⟩
  exact behind.evaluate he he rfl

theorem evaluate_box (he : e.isClosed []) : (box e).evaluate host args=
    (do return (← e.evaluate host args).box) := by
  have behind : Behind (fun s => .ok (s.push .box)) e (box e) := ⟨rfl,fun s _ => ⟨_,rfl⟩,List.prefix_rfl⟩
  exact behind.evaluate he he rfl

theorem evaluate_unbox (he : e.isClosed []) (target : Rep) : (unbox e target).evaluate host args=
    (do Run.lift ((← e.evaluate host args).unbox target)) := by
  have behind : Behind (fun s => .ok (s.push (.unbox target))) e (unbox e target) :=
    ⟨rfl,fun s _ => ⟨_,rfl⟩,List.prefix_rfl⟩
  exact behind.evaluate he he rfl

theorem evaluate_isNull (he : e.isClosed []) : (isNull e).evaluate host args=
    (do return .bool (← e.evaluate host args).isNullish) := by
  have behind : Behind (fun s => .ok (s.push .isNull)) e (isNull e) := ⟨rfl,fun s _ => ⟨_,rfl⟩,List.prefix_rfl⟩
  exact behind.evaluate he he rfl

theorem evaluate_not (he : e.isClosed []) : (not e).evaluate host args=
    (do return .bool (!(← Run.lift (← e.evaluate host args).toBool))) := by
  have behind : Behind (fun s => .ok (s.push .not)) e (not e) := ⟨rfl,fun s _ => ⟨_,rfl⟩,List.prefix_rfl⟩
  exact behind.evaluate he he rfl

/-- A call with one argument. -/
theorem evaluate_call (he : e.isClosed []) (hc : e.TakesCall) (m : Method) :
    (invoke m [e]).evaluate host args=(do Run.call host m.routine [← e.evaluate host args]) := by
  have emitted : Emitter.empty.emit (invoke m [e])=
      Emitter.empty.emit e >>= fun s => s.pushInvoke m 1 := by
    rw [Emitter.emit,Emitter.emitAll]
    cases Emitter.empty.emit e <;> rfl
  have added : ∀ s, Emitter.empty.emit e=.ok s → ∃ s', s.pushInvoke m 1=.ok s' := by
    intro s hs
    have room := hc ⟨s.code,s.constants,s.methods,s.maxLocals,e.rep⟩ (by rw [emit,hs]; rfl)
    exact Emitter.exists_pushInvoke room m 1
  have behind : Behind (fun s => s.pushInvoke m 1) e (invoke m [e]) :=
    ⟨emitted,added,by simp [constants,constantsOf]⟩
  apply behind.evaluate he (by simpa [isClosed] using he)
  simp only [mapConstants,mapConstantsOf,meaning,meanings,bind_assoc,pure_bind]

/-- A truth value in the pool is the one that is asked for. -/
theorem shared_bool (e : Expr) (b : Bool) : e.shared (.bool b)=.bool b := by
  rw [shared]
  cases hf : e.constants.find? fun k => k.equals (.bool b) with
  | none => rfl
  | some k =>
    have found : k.equals (.bool b) := by simpa using List.find?_some hf
    cases k with
    | bool b' =>
      have same : b'=b := by simpa [Slot.equals] using found
      rw [same]
      rfl
    | _ => cases found

/-- A tree that is computed for its effects only, before a truth value. -/
theorem evaluate_bind_bool (he : e.isClosed []) (hc : e.TakesConst) {index : UInt16} (hi : index.toNat ≤ 65534)
    (b : Bool) : (bind index e (bool b)).evaluate host args=(do
      let _ ← e.evaluate host args
      return .bool b) := by
  have emitted : Emitter.empty.emit (bind index e (bool b))=
      Emitter.empty.emit e >>= fun s => (s.pushStore index).pushConst (.bool b) := by
    rw [Emitter.emit]
    rfl
  have added : ∀ s, Emitter.empty.emit e=.ok s → ∃ s', (s.pushStore index).pushConst (.bool b)=.ok s' := by
    intro s hs
    have room := hc ⟨s.code,s.constants,s.methods,s.maxLocals,e.rep⟩ (by rw [emit,hs]; rfl)
    exact (s.pushStore index).exists_pushConst room (.bool b)
  have behind : Behind (fun s => (s.pushStore index).pushConst (.bool b)) e (bind index e (bool b)) :=
    ⟨emitted,added,List.prefix_append ..⟩
  have closed : (bind index e (bool b)).isClosed [] := by
    simp only [isClosed,Bool.and_eq_true,decide_eq_true_eq]
    exact ⟨⟨hi,he⟩,rfl⟩
  apply behind.evaluate he closed
  rw [mapConstants,meaning]
  congr 1
  funext slot
  rw [bool,mapConstants,shared_bool,meaning]

theorem evaluate_const (slot : Slot) : (const slot).evaluate host args=pure slot := by
  have counted : (const slot).isCounted := rfl
  obtain ⟨c,hc⟩ := Emitter.emit_of_isCounted counted (by simp [codeSize])
  have kept : c.pooled slot=slot := pooled_eq_self hc (by simp [constants]) slot (by simp [constants])
  rw [evaluate_closed hc rfl,mapConstants,kept]
  rfl

/-- A tree whose constants all have their own places in the pool is run for its meaning. -/
theorem evaluate_of_isCounted (hc : e.isCounted) (hs : e.codeSize < 2^32) (he : e.isClosed [])
    (hk : Slot.Distinct e.constants) : e.evaluate host args=e.meaning host args Scope.empty := by
  obtain ⟨c,hc⟩ := Emitter.emit_of_isCounted hc hs
  rw [evaluate_closed hc he,mapConstants_eq_self e (pooled_eq_self hc hk)]

theorem evaluate_of_not_isCounted (h : ¬e.isCounted) : Run.Gives (e.evaluate host args) none := by
  cases hc : e.emit with
  | ok c =>
    obtain ⟨s,hs,-⟩ := emit_ok hc
    exact absurd (Emitter.isCounted_of_emit e hs) h
  | error error =>
    rw [evaluate_refused hc]
    exact .none rfl

/-- There are no more constants and no more methods than instructions. -/
theorem small_of_emit {c : Chunk} (hc : e.emit=.ok c) (h : e.codeSize < 2^32) :
    c.constants.size < 2^32 ∧ c.methods.size < 2^32 := by
  obtain ⟨s,hs,rfl⟩ := emit_ok hc
  have counted : e.isCounted := Emitter.isCounted_of_emit e hs
  obtain ⟨s',hs',small⟩ := Emitter.Small.emit e counted Emitter.empty_small (by simpa [Emitter.empty] using h)
  cases hs.symm.trans hs'
  have size : s.code.size=e.codeSize := by simpa [Emitter.empty] using (Emitter.emit_emits e hs).size
  have constants := small.constants
  have methods := small.methods
  constructor
  · show s.constants.size < 2^32
    omega
  · show s.methods.size < 2^32
    omega

theorem TakesConst.of_codeSize (h : e.codeSize < 2^32) : e.TakesConst := fun _ hc => (small_of_emit hc h).1

namespace TakesCall

theorem of_codeSize (h : e.codeSize < 2^32) : e.TakesCall := fun _ hc => (small_of_emit hc h).2

theorem box (h : e.TakesCall) : (Expr.box e).TakesCall := by
  intro c hc
  obtain ⟨s,hs,rfl⟩ := emit_ok hc
  obtain ⟨s',hs',pushed⟩ := Failure.bind_ok hs
  cases pushed
  exact h ⟨s'.code,s'.constants,s'.methods,s'.maxLocals,e.rep⟩ (by rw [Expr.emit,hs']; rfl)

end TakesCall

/-- The value that a tree computes. -/
def value (e : Expr) (host : Host σ) (args : List Slot) : Run σ Value := do
  return (← e.evaluate host args).toValue

namespace Boxed

theorem isClosed (h : Boxed e e') (he : e.isClosed []) : e'.isClosed [] := by
  cases h with
  | constant => rfl
  | _ => exact he

theorem takesCall (h : Boxed e e') (he : e.TakesCall) : e'.TakesCall := by
  cases h with
  | already => exact he
  | constant => exact .of_codeSize (by simp [codeSize])
  | node => exact he.box

theorem isCounted_iff (h : Boxed e e') : e'.isCounted ↔ e.isCounted := by
  cases h <;> rfl

theorem codeSize_le (h : Boxed e e') : e.codeSize ≤ e'.codeSize := by
  cases h with
  | already => exact Nat.le_refl _
  | constant => exact Nat.le_refl _
  | node => exact Nat.le_add_right _ 1

/-- What only looks at the value of a tree does not see the box. -/
theorem meaning_bind (h : Boxed e e') {α : Type} {f : Slot → Run σ α}
    (hf : ∀ slot slot', slot.toValue=slot'.toValue → f slot=f slot') (scope : Scope) :
    (e'.meaning host args scope >>= f)=(e.meaning host args scope >>= f) := by
  cases h with
  | already => rfl
  | @constant slot => exact hf _ _ rfl
  | node =>
    rw [meaning,bind_assoc]
    simp only [pure_bind]
    congr 1
    funext slot
    exact hf _ _ rfl

/-- A tree in a box has the value that it had before. -/
theorem value (h : Boxed e e') (he : e.isClosed []) : e'.value host args=e.value host args := by
  cases h with
  | already => rfl
  | constant =>
    rw [Expr.value,Expr.value,evaluate_const,evaluate_const]
    rfl
  | node =>
    rw [Expr.value,Expr.value,evaluate_box he,bind_assoc]
    rfl

end Boxed

/-- A well typed tree has a slot in its representation, if it has one. -/
theorem evaluate_rep (he : e.isTyped (args.map Slot.rep) []) (hk : host.Keeps e.methods) :
    Run.Ensures (fun slot => slot.rep=e.rep) (fun _ => True) (e.evaluate host args) := by
  apply Run.Ensures.of_results
  intro s slot t hx
  cases hc : e.emit with
  | error error =>
    rw [evaluate_refused hc] at hx
    cases hx
  | ok c =>
    rw [evaluate_closed hc (isClosed_of_isTyped e he)] at hx
    exact (meaning_endsIn c.rep_pooled hk e he (by simp) .empty (fun _ h => h) s).result hx

end Expr

end CallLowering
