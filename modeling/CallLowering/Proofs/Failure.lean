namespace CallLowering.Failure

variable {ε σ α β γ δ : Type}

theorem bind_ok {x : Except ε α} {f : α → Except ε β} {b : β} (h : (x >>= f)=.ok b) :
    ∃ a, x=.ok a ∧ f a=.ok b := by
  cases x with
  | error e => cases h
  | ok a => exact ⟨a,rfl,h⟩

/-- What only makes something of a result does not fail. -/
theorem bind_pure_error {x : Except ε α} {f : α → β} {e : ε} :
    (x >>= fun a => pure (f a))=.error e ↔ x=.error e := by
  cases x with
  | error e' => exact ⟨fun h => congrArg _ (Except.error.inj h),fun h => congrArg _ (Except.error.inj h)⟩
  | ok a => exact ⟨nofun,nofun⟩

/-- What follows a computation only matters on its results. -/
theorem bind_congr {x : Except ε α} {f g : α → Except ε β} (h : ∀ a, x=.ok a → f a=g a) :
    (x >>= f)=(x >>= g) := by
  cases x with
  | error e => rfl
  | ok a => exact h a rfl

/-- Computations whose results have the same image, followed by ones that only depend on it. -/
theorem bind_congr_of_map {x y : Except ε α} {f g : α → Except ε β} {c : α → γ}
    (h : x.map c=y.map c) (hf : ∀ a b, c a=c b → f a=g b) : (x >>= f)=(y >>= g) := by
  cases x with
  | error e =>
    cases y with
    | error e' =>
      cases h
      rfl
    | ok b => cases h
  | ok a =>
    cases y with
    | error e => cases h
    | ok b => exact hf a b (Except.ok.inj h)

theorem map_bind_congr {x y : Except ε α} {f g : α → Except ε β} {c : α → γ} {d : β → δ}
    (h : x.map c=y.map c) (hf : ∀ a b, c a=c b → (f a).map d=(g b).map d) :
    (x >>= f).map d=(y >>= g).map d := by
  have map_bind (x : Except ε α) (f : α → Except ε β) :
      (x >>= f).map d=(x >>= fun a => (f a).map d) := by cases x <;> rfl
  rw [map_bind,map_bind]
  exact bind_congr_of_map h hf

theorem bind_apply (x : ExceptT ε (StateM σ) α) (f : α → ExceptT ε (StateM σ) β) (s : σ) :
    (x >>= f) s=match x s with
      | (.ok a,t) => f a t
      | (.error e,t) => (.error e,t) := by
  simp only [Bind.bind,ExceptT.bind,ExceptT.mk,StateT.bind]
  rcases x s with ⟨a|a,t⟩ <;> rfl

theorem bind_state_ok {x : ExceptT ε (StateM σ) α} {f : α → ExceptT ε (StateM σ) β} {s t : σ} {b : β}
    (h : (x >>= f) s=(.ok b,t)) : ∃ a u, x s=(.ok a,u) ∧ f a u=(.ok b,t) := by
  rw [bind_apply] at h
  rcases hx : x s with ⟨e|a,u⟩ <;> rw [hx] at h
  · cases h
  · exact ⟨a,u,rfl,h⟩

theorem bind_id_ok {x : ExceptT ε Id α} {f : α → ExceptT ε Id β} {b : β} (h : (x >>= f).run=.ok b) :
    ∃ a, x.run=.ok a ∧ (f a).run=.ok b := by
  cases hx : x.run with
  | error e =>
    have none : (x >>= f).run=.error e := by
      rw [ExceptT.run_bind,hx]
      rfl
    cases none.symm.trans h
  | ok a =>
    refine ⟨a,rfl,?_⟩
    rw [ExceptT.run_bind,hx] at h
    exact h

theorem lift_ok {x : Except ε α} {s t : σ} {a : α}
    (h : (liftM x : ExceptT ε (StateM σ) α) s=(.ok a,t)) : x=.ok a ∧ s=t := by
  cases x with
  | error e => cases h
  | ok b =>
    cases h
    exact ⟨rfl,rfl⟩

theorem bind_lift_ok {x : Except ε α} {f : α → ExceptT ε (StateM σ) β} {s t : σ} {b : β}
    (h : ((liftM x : ExceptT ε (StateM σ) α) >>= f) s=(.ok b,t)) : ∃ a, x=.ok a ∧ f a s=(.ok b,t) := by
  obtain ⟨a,u,hx,hf⟩ := bind_state_ok h
  obtain ⟨heq,rfl⟩ := lift_ok hx
  exact ⟨a,heq,hf⟩

theorem bind_get {f : σ → ExceptT ε (StateM σ) β} {s t : σ} {r : Except ε β}
    (h : ((get : ExceptT ε (StateM σ) σ) >>= f) s=(r,t)) : f s s=(r,t) := h

end CallLowering.Failure
