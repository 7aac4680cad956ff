import CallLowering.Machine
import CallLowering.Proofs.Failure

namespace CallLowering.Run

variable {σ α β : Type}

/-- Started in this state of the host, it ends with a result that satisfies `P` or a fault that satisfies `F`. -/
def EndsIn (P : α → Prop) (F : Fault → Prop) (x : Run σ α) (s : σ) : Prop :=
  match x s with
  | (.ok a,_) => P a
  | (.error e,_) => F e

namespace EndsIn

variable {P : α → Prop} {Q : β → Prop} {F : Fault → Prop} {x : Run σ α} {s : σ}

theorem of_cases (hok : ∀ a t, x s=(.ok a,t) → P a) (herror : ∀ e t, x s=(.error e,t) → F e) :
    EndsIn P F x s := by
  unfold EndsIn
  rcases hx : x s with ⟨e|a,t⟩
  · exact herror e t hx
  · exact hok a t hx

theorem result (h : EndsIn P F x s) {t : σ} {a : α} (hx : x s=(.ok a,t)) : P a := by
  rw [EndsIn,hx] at h
  exact h

theorem fault (h : EndsIn P F x s) {t : σ} {e : Fault} (hx : x s=(.error e,t)) : F e := by
  rw [EndsIn,hx] at h
  exact h

theorem mono {P' : α → Prop} {F' : Fault → Prop} (h : EndsIn P F x s) (hP : ∀ a, P a → P' a)
    (hF : ∀ e, F e → F' e) : EndsIn P' F' x s :=
  of_cases (fun a _ hx => hP a (h.result hx)) fun e _ hx => hF e (h.fault hx)

theorem pure {a : α} (h : P a) : EndsIn P F (pure a : Run σ α) s := h

theorem lift {r : Except RoutineError α} (hok : ∀ a, r=.ok a → P a)
    (herror : ∀ e, r=.error e → F (.routine e)) : EndsIn P F (Run.lift r : Run σ α) s := by
  cases r with
  | ok a => exact hok a rfl
  | error e => exact herror e rfl

/-- What follows starts in the state that the first computation leaves. -/
theorem bind {f : α → Run σ β} (h : EndsIn P F x s)
    (hf : ∀ a t, x s=(.ok a,t) → P a → EndsIn Q F (f a) t) : EndsIn Q F (x >>= f) s := by
  rw [EndsIn,Failure.bind_apply]
  rcases hx : x s with ⟨e|a,t⟩
  · exact h.fault hx
  · exact hf a t hx (h.result hx)

end EndsIn

/-- Every result satisfies `P`, every fault `F`. -/
def Ensures (P : α → Prop) (F : Fault → Prop) (x : Run σ α) : Prop :=
  ∀ s, match x s with
    | (.ok a,_) => P a
    | (.error e,_) => F e

namespace Ensures

variable {P : α → Prop} {Q : β → Prop} {F : Fault → Prop} {x : Run σ α}

theorem endsIn (h : Ensures P F x) (s : σ) : EndsIn P F x s := h s

theorem result (h : Ensures P F x) {s t : σ} {a : α} (hx : x s=(.ok a,t)) : P a := (h.endsIn s).result hx

theorem fault (h : Ensures P F x) {s t : σ} {e : Fault} (hx : x s=(.error e,t)) : F e := (h.endsIn s).fault hx

theorem pure {a : α} (h : P a) : Ensures P F (pure a : Run σ α) := fun _ => h

theorem throw {e : Fault} (h : F e) : Ensures P F (throw e : Run σ α) := fun _ => h

theorem lift {r : Except RoutineError α} (hok : ∀ a, r=.ok a → P a)
    (herror : ∀ e, r=.error e → F (.routine e)) : Ensures P F (Run.lift r : Run σ α) :=
  fun _ => EndsIn.lift hok herror

theorem mono {P' : α → Prop} {F' : Fault → Prop} (h : Ensures P F x) (hP : ∀ a, P a → P' a)
    (hF : ∀ e, F e → F' e) : Ensures P' F' x := fun s => (h.endsIn s).mono hP hF

theorem bind {f : α → Run σ β} (h : Ensures P F x) (hf : ∀ a, P a → Ensures Q F (f a)) :
    Ensures Q F (x >>= f) := fun s => (h.endsIn s).bind fun a t _ ha => hf a ha t

/-- It is enough to look at results, if nothing is asked of faults. -/
theorem of_results (h : ∀ s a t, x s=(.ok a,t) → P a) : Ensures P (fun _ => True) x :=
  fun s => EndsIn.of_cases (h s) fun _ _ _ => trivial

/-- Nothing is asked at all. -/
theorem any (x : Run σ α) : Ensures (fun _ => True) (fun _ => True) x := of_results fun _ _ _ _ => trivial

end Ensures

/-- A call that gives a slot has entered the body of its routine. -/
theorem call_ok {host : Host σ} {r : Routine} {slots : List Slot} {s t : σ} {slot : Slot}
    (h : call host r slots s=(.ok slot,t)) :
    slots.length=r.params.length ∧ (r.onReceiver → host.receives s r.owner) ∧
      host.enter r slots s=(.ok slot,t) := by
  rw [call,Host.call] at h
  by_cases hl : slots.length≠r.params.length
  · rw [if_pos hl] at h
    cases h
  · rw [if_neg hl] at h
    by_cases hr : (r.onReceiver && !host.receives s r.owner)=true
    · rw [if_pos hr] at h
      cases h
    · rw [if_neg hr] at h
      rcases he : host.enter r slots s with ⟨e|v,u⟩ <;> rw [he] at h
      · cases h
      · cases h
        exact ⟨Decidable.of_not_not hl,by simpa using hr,rfl⟩

/-- A call with the right number of arguments faults for want of a receiver, or because the body does. -/
theorem call_error {host : Host σ} {r : Routine} {slots : List Slot} {s t : σ} {fault : Fault}
    (hl : slots.length=r.params.length) (h : call host r slots s=(.error fault,t)) :
    r.onReceiver ∧ host.receives s r.owner=false ∧ fault=.routine (.missingReceiver r.owner) ∨
      (r.onReceiver → host.receives s r.owner) ∧
        ∃ error u, fault=.routine error ∧ host.enter r slots s=(.error error,u) := by
  rw [call,Host.call,if_neg (Decidable.not_not.mpr hl)] at h
  by_cases hr : (r.onReceiver && !host.receives s r.owner)=true
  · rw [if_pos hr] at h
    cases h
    simp only [Bool.and_eq_true,Bool.not_eq_true'] at hr
    exact .inl ⟨hr.1,hr.2,rfl⟩
  · rw [if_neg hr] at h
    rcases he : host.enter r slots s with ⟨error|slot,u⟩ <;> rw [he] at h
    · cases h
      exact .inr ⟨by simpa using hr,error,_,rfl,rfl⟩
    · cases h

/-- A body that is there for a call with the right number of arguments answers it. -/
theorem call_of_enter {host : Host σ} {r : Routine} {slots : List Slot} {s t : σ} {slot : Slot}
    (hl : slots.length=r.params.length) (hr : r.onReceiver → host.receives s r.owner)
    (he : host.enter r slots s=(.ok slot,t)) : call host r slots s=(.ok slot,t) := by
  have here : ¬(r.onReceiver && !host.receives s r.owner)=true := by simpa using hr
  rw [call,Host.call,if_neg (Decidable.not_not.mpr hl),if_neg here,he]

end CallLowering.Run
