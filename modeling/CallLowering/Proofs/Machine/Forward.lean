import CallLowering.Proofs.Machine.Lockstep

namespace CallLowering

variable {σ : Type} {host : Host σ} {c : Chunk} {args : List Slot}

/-- The place that an instruction may jump to. -/
def Instr.target? : Instr → Option UInt32
  | .jump target => some target
  | .jumpIfFalse target => some target
  | _ => none

/-- Does every jump lead to a later place? -/
def Instr.Forward (code : Array Instr) : Prop :=
  ∀ (place : Nat) (i : Instr) (target : UInt32),
    code[place]?=some i → i.target?=some target → place < target.toNat

namespace Machine

theorem mapTop_place {m m' : Machine} {f : Slot → Except RoutineError Slot} {s t : σ}
    (h : m.mapTop f s=(.ok m',t)) : m'.place=m.place+1 := by
  unfold mapTop at h
  cases hm : m.stack with
  | nil => simp only [hm] at h; cases h
  | cons slot rest =>
    simp only [hm] at h
    obtain ⟨slot,u,-,hr⟩ := Failure.bind_state_ok h
    cases hr
    rfl

/-- An instruction leads to the next place, or to the one that it names. -/
theorem step_place {m m' : Machine} {i : Instr} {s t : σ} (h : m.step host c args i s=(.ok m',t)) :
    m'.place=m.place+1 ∨ ∃ target, i.target?=some target ∧ m'.place=target.toNat := by
  cases i with
  | const index =>
    simp only [step] at h
    cases hc : c.constants[index.toNat]? <;> simp only [hc] at h <;> cases h
    exact .inl rfl
  | loadArg index =>
    simp only [step] at h
    cases ha : args[index.toNat]? <;> simp only [ha] at h <;> cases h
    exact .inl rfl
  | loadLocal index =>
    simp only [step] at h
    rcases hl : m.locals[index.toNat]? with _|_|slot <;> simp only [hl] at h <;> cases h
    exact .inl rfl
  | storeLocal index =>
    simp only [step] at h
    cases hm : m.stack <;> simp only [hm] at h
    · cases h
    · by_cases hlt : index.toNat < m.locals.size
      · rw [if_pos hlt] at h
        cases h
        exact .inl rfl
      · rw [if_neg hlt] at h
        cases h
  | invoke method count =>
    simp only [step] at h
    cases hc : c.methods[method.toNat]? <;> simp only [hc] at h
    · cases h
    · cases ht : m.take? count.toNat <;> simp only [ht] at h
      · cases h
      · obtain ⟨slot,u,-,hr⟩ := Failure.bind_state_ok h
        cases hr
        exact .inl rfl
  | convert target => exact .inl (mapTop_place h)
  | box => exact .inl (mapTop_place h)
  | unbox target => exact .inl (mapTop_place h)
  | isNull => exact .inl (mapTop_place h)
  | not => exact .inl (mapTop_place h)
  | newList count =>
    simp only [step] at h
    cases ht : m.take? count.toNat <;> simp only [ht] at h <;> cases h
    exact .inl rfl
  | jump target =>
    cases h
    exact .inr ⟨target,rfl,rfl⟩
  | jumpIfFalse target =>
    simp only [step] at h
    cases hm : m.stack <;> simp only [hm] at h
    · cases h
    · obtain ⟨b,u,-,hr⟩ := Failure.bind_state_ok h
      cases b <;> cases hr
      · exact .inr ⟨target,rfl,rfl⟩
      · exact .inl rfl
  | compare k =>
    simp only [step] at h
    rcases hm : m.stack with _|⟨rhs,_|⟨lhs,rest⟩⟩ <;> simp only [hm] at h
    · cases h
    · cases h
    · obtain ⟨b,u,-,hr⟩ := Failure.bind_state_ok h
      cases hr
      exact .inl rfl

theorem step_forward (hf : Instr.Forward c.code) {m m' : Machine} {i : Instr} {s t : σ}
    (hi : c.code[m.place]?=some i) (h : m.step host c args i s=(.ok m',t)) : m.place < m'.place := by
  rcases step_place h with hp|⟨target,ht,hp⟩
  · omega
  · rw [hp]
    exact hf _ _ _ hi ht

/-- Steps beyond the end of the code change nothing. -/
theorem run_eq_of_forward (hf : Instr.Forward c.code) (steps more : Nat) (m : Machine)
    (h : c.code.size ≤ m.place+steps) :
    m.run host c args (steps+more)=m.run host c args steps := by
  induction steps generalizing m with
  | zero =>
    have none : c.code[m.place]?=none := Array.getElem?_eq_none (by omega)
    cases more with
    | zero => rfl
    | succ more =>
      have hn : ¬m.place < c.code.size := by omega
      simp only [run,none,if_neg hn]
  | succ steps ih =>
    rw [Nat.succ_add,run,run]
    cases hi : c.code[m.place]? with
    | none => rfl
    | some i =>
      funext s
      simp only [Failure.bind_apply]
      rcases hs : m.step host c args i s with ⟨e|m',t⟩
      · rfl
      · have hp := step_forward hf hi hs
        exact congrFun (ih m' (by omega)) t

def resume (host : Host σ) (c : Chunk) (args : List Slot) (m : Machine) : Run σ Slot :=
  m.run host c args (c.code.size-m.place)

theorem resume_end {m : Machine} (h : c.code.size ≤ m.place) : m.resume host c args=m.finish := by
  rw [resume,Nat.sub_eq_zero_of_le h,run,if_neg (by omega)]

theorem resume_step (hf : Instr.Forward c.code) {m : Machine} {i : Instr}
    (hi : c.code[m.place]?=some i) :
    m.resume host c args=(do (← m.step host c args i).resume host c args) := by
  have hlt : m.place < c.code.size := (Array.getElem?_eq_some_iff.mp hi).1
  have hsteps : c.code.size-m.place=(c.code.size-m.place-1)+1 := by omega
  rw [resume,hsteps]
  simp only [run,hi]
  funext s
  simp only [Failure.bind_apply]
  rcases hs : m.step host c args i s with ⟨e|m',t⟩
  · rfl
  · have hp := step_forward hf hi hs
    have more : c.code.size-m.place-1=(c.code.size-m'.place)+((c.code.size-m.place-1)-
        (c.code.size-m'.place)) := by omega
    rw [more]
    exact congrFun (run_eq_of_forward hf _ _ m' (by omega)) t

end Machine

end CallLowering
