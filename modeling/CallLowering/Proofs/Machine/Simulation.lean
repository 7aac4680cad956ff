import CallLowering.Proofs.Chunk.Layout
import CallLowering.Proofs.Machine.Locals

namespace CallLowering

variable {σ : Type} {host : Host σ} {c : Chunk} {args : List Slot}

namespace Machine

theorem take?_append (place : Nat) (slots stack : List Slot) (locals : Locals) :
    take? ⟨place,slots.reverse++stack,locals⟩ slots.length=some (slots,stack) := by
  have hlen : ¬(slots.reverse++stack).length < slots.length := by simp
  have hall : slots.reverse.take slots.length=slots.reverse := List.take_of_length_le (by simp)
  have hnone : slots.reverse.drop slots.length=[] := List.drop_of_length_le (by simp)
  rw [take?,if_neg hlen,List.take_append_of_le_length (by simp),
    List.drop_append_of_le_length (by simp),hall,hnone]
  simp

theorem resume_mapTop (hf : Instr.Forward c.code) {place : Nat} {i : Instr}
    {f : Slot → Except RoutineError Slot} (hi : c.code[place]?=some i)
    (hstep : ∀ m : Machine, m.step host c args i=m.mapTop f) (slot : Slot) (stack : List Slot)
    (locals : Locals) :
    resume host c args ⟨place,slot::stack,locals⟩=(do
      let top ← Run.lift (f slot)
      resume host c args ⟨place+1,top::stack,locals⟩) := by
  rw [resume_step hf hi,hstep]
  simp only [mapTop,bind_assoc,pure_bind,next]

end Machine

namespace Expr

theorem executeAll_length {pool : Slot → Slot} {es : List Expr} {locals : Locals}
    {r : List Slot × Locals} {s t : σ} (h : executeAll host args pool es locals s=(.ok r,t)) :
    r.1.length=es.length := by
  induction es generalizing locals r s with
  | nil =>
    cases h
    rfl
  | cons e es ih =>
    rw [executeAll] at h
    obtain ⟨v,u,-,h⟩ := Failure.bind_state_ok h
    obtain ⟨vs,w,hvs,h⟩ := Failure.bind_state_ok h
    cases h
    rw [List.length_cons,List.length_cons,ih hvs]

open Machine

/-- Trees whose code stands one behind the other: the last value ends up on top. -/
theorem resume_executeAll {es : List Expr} {place : Nat} (h : c.ContainsAll place es)
    (ih : ∀ e∈es, ∀ (p : Nat) (stack : List Slot) (locals : Locals), c.Contains p e →
      resume host c args ⟨p,stack,locals⟩=(do
        let r ← e.execute host args c.pooled locals
        resume host c args ⟨p+e.codeSize,r.1::stack,r.2⟩))
    (stack : List Slot) (locals : Locals) :
    resume host c args ⟨place,stack,locals⟩=(do
      let r ← executeAll host args c.pooled es locals
      resume host c args ⟨place+codeSizes es,r.1.reverse++stack,r.2⟩) := by
  induction es generalizing place stack locals with
  | nil => simp [executeAll,codeSizes]
  | cons e es ihs =>
    rw [ih e (by simp) place stack locals h.1]
    simp only [executeAll,bind_assoc,pure_bind,codeSizes]
    congr 1
    funext r
    rw [ihs h.2 (fun e he => ih e (by simp [he]))]
    simp [Nat.add_assoc]

/-- A machine goes over the code of a tree as evaluation goes over the tree. -/
theorem resume_execute (hf : Instr.Forward c.code) (e : Expr) {place : Nat} (h : c.Contains place e)
    (stack : List Slot) (locals : Locals) :
    resume host c args ⟨place,stack,locals⟩=(do
      let r ← e.execute host args c.pooled locals
      resume host c args ⟨place+e.codeSize,r.1::stack,r.2⟩) := by
  induction e generalizing place stack locals with
  | const slot =>
    obtain ⟨n,hi,hk⟩ := h
    rw [resume_step hf hi]
    simp only [step,hk,execute,pure_bind,next,codeSize]
  | arg index rep =>
    rw [resume_step hf (show c.code[place]?=some (.loadArg index) from h)]
    simp only [step,execute,Run.argument]
    cases args[index.toNat]? with
    | none => rfl
    | some slot => rfl
  | readLocal index rep =>
    rw [resume_step hf (show c.code[place]?=some (.loadLocal index) from h)]
    simp only [step,execute,Locals.load]
    rcases locals[index.toNat]? with _|_|slot
    · rfl
    · rfl
    · rfl
  | invoke m es ih =>
    obtain ⟨hes,n,k,hi,hm,hk⟩ := h
    rw [resume_executeAll hes fun e he p stack locals hp => ih e he hp stack locals]
    simp only [execute,bind_assoc,pure_bind]
    apply Run.bind_congr
    intro r s t hr
    have hlen : k.toNat=r.1.length := hk.trans (executeAll_length hr).symm
    rw [resume_step hf hi]
    simp only [step,hm,hlen,take?_append,bind_assoc,pure_bind,next,codeSize,Nat.add_assoc]
  | list es ih =>
    obtain ⟨hes,k,hi,hk⟩ := h
    rw [resume_executeAll hes fun e he p stack locals hp => ih e he hp stack locals]
    simp only [execute,bind_assoc,pure_bind]
    apply Run.bind_congr
    intro r s t hr
    have hlen : k.toNat=r.1.length := hk.trans (executeAll_length hr).symm
    rw [resume_step hf hi]
    simp only [step,hlen,take?_append,pure_bind,next,codeSize,Nat.add_assoc]
  | convert e target ih =>
    rw [ih h.1]
    simp only [execute,bind_assoc,pure_bind]
    congr 1
    funext r
    exact resume_mapTop hf h.2 (fun _ => rfl) ..
  | box e ih =>
    rw [ih h.1]
    simp only [execute,bind_assoc,pure_bind]
    congr 1
    funext r
    exact resume_mapTop hf h.2 (fun _ => rfl) ..
  | unbox e target ih =>
    rw [ih h.1]
    simp only [execute,bind_assoc,pure_bind]
    congr 1
    funext r
    exact resume_mapTop hf h.2 (fun _ => rfl) ..
  | isNull e ih =>
    rw [ih h.1]
    simp only [execute,bind_assoc,pure_bind]
    congr 1
    funext r
    exact resume_mapTop hf h.2 (fun _ => rfl) ..
  | not e ih =>
    rw [ih h.1]
    simp only [execute,bind_assoc,pure_bind]
    congr 1
    funext r
    rw [resume_mapTop hf h.2 (fun _ => rfl)]
    cases r.1.toBool <;> rfl
  | bind index value body ihv ihb =>
    obtain ⟨hv,hi,hb⟩ := h
    rw [ihv hv]
    simp only [execute,bind_assoc]
    congr 1
    funext r
    rw [resume_step hf hi]
    simp only [step,Locals.store]
    by_cases hlt : index.toNat < r.2.size
    · simp only [if_pos hlt,pure_bind,next]
      rw [ihb hb]
      simp only [codeSize,Nat.add_assoc]
    · rw [if_neg hlt,if_neg hlt]
      rfl
  | select e t f ihe iht ihf =>
    obtain ⟨he,⟨otherwise,hi,ho⟩,ht,⟨done,hj,hd⟩,hf'⟩ := h
    rw [ihe he]
    simp only [execute,bind_assoc]
    congr 1
    funext r
    rw [resume_step hf hi]
    simp only [step,bind_assoc]
    congr 1
    funext b
    cases b with
    | true =>
      -- the first branch ends in a jump over the second
      simp only [if_true,pure_bind,next]
      rw [iht ht]
      congr 1
      funext v
      rw [resume_step hf hj]
      simp only [step,pure_bind,hd,codeSize,Nat.add_assoc]
    | false =>
      simp only [Bool.false_eq_true,if_false,pure_bind,ho]
      rw [ihf hf']
      simp only [codeSize,Nat.add_assoc]
  | compare k lhs rhs ihl ihr =>
    rw [ihl h.1]
    simp only [execute,bind_assoc,pure_bind]
    congr 1
    funext a
    rw [ihr h.2.1]
    congr 1
    funext b
    rw [resume_step hf h.2.2]
    simp only [step,bind_assoc,pure_bind,next,codeSize,Nat.add_assoc]

theorem emit_ok {e : Expr} (h : e.emit=.ok c) :
    ∃ s, Emitter.empty.emit e=.ok s ∧ c=⟨s.code,s.constants,s.methods,s.maxLocals,e.rep⟩ := by
  obtain ⟨s,hs,hc⟩ := Failure.bind_ok h
  cases hc
  exact ⟨s,hs,rfl⟩

end Expr

/-- The code of a tree and nothing else, with room for the locals that the tree binds. -/
structure Chunk.Realizes (c : Chunk) (e : Expr) : Prop where
  forward : Instr.Forward c.code
  size : c.code.size=e.codeSize
  contains : c.Contains 0 e
  room : ∀ i∈e.bound, i.toNat ≤ 65534 → i.toNat < c.maxLocals.toNat

theorem Expr.emit_realizes {e : Expr} (h : e.emit=.ok c) : c.Realizes e := by
  obtain ⟨s,hs,rfl⟩ := emit_ok h
  have emits := Emitter.emit_emits e hs
  have within : s.Within (Chunk.parts ⟨s.code,s.constants,s.methods,s.maxLocals,e.rep⟩) :=
    ⟨.refl _,.refl _,.refl _,UInt16.le_refl _⟩
  exact {
    forward := emits.forward (by simp [Instr.Forward,Emitter.empty])
    size := by simpa [Emitter.empty] using emits.size
    contains := Chunk.emit_contains e hs within
    room := emits.room
  }

namespace Chunk.Realizes

open Machine

/-- The run of a chunk is evaluation on the array of its locals. -/
theorem run_execute {e : Expr} (h : c.Realizes e) :
    c.run host args c.code.size=(do
      return (← e.execute host args c.pooled (Array.replicate c.maxLocals.toNat none)).1) := by
  refine (e.resume_execute h.forward h.contains [] (Array.replicate c.maxLocals.toNat none)).trans ?_
  congr 1
  funext r
  rw [Nat.zero_add]
  rw [resume_end (Nat.le_of_eq h.size)]
  rfl

/-- The run of a chunk of a closed tree gives the meaning of the tree with the constants of the pool. -/
theorem run_closed {e : Expr} (h : c.Realizes e) (hs : e.isClosed []) :
    c.run host args c.code.size=(e.mapConstants c.pooled).meaning host args Scope.empty := by
  have room : ∀ i∈e.bound, i∉([] : List UInt16) ∧ i.toNat < c.maxLocals.toNat :=
    fun i hi => ⟨List.not_mem_nil,h.room i hi (e.bound_le hs i hi)⟩
  have hold : Locals.Hold (Array.replicate c.maxLocals.toNat none) [] Scope.empty := by simp [Locals.Hold]
  have kept := e.execute_meaning host args c.pooled hs room Array.size_replicate hold
  rw [h.run_execute]
  apply Run.Lockstep.eq
  simpa only [bind_pure] using kept.bind (f := fun r => return r.1) (g := fun slot => return slot)
    (fun r slot hr => Run.Lockstep.pure hr.value)

end Chunk.Realizes

namespace Expr

theorem evaluate_refused {e : Expr} {error : LowerError} (h : e.emit=.error error) :
    e.evaluate host args=throw (.lower error) := by
  rw [evaluate,h]

theorem evaluate_closed {e : Expr} (h : e.emit=.ok c) (hs : e.isClosed []) :
    e.evaluate host args=(e.mapConstants c.pooled).meaning host args Scope.empty := by
  rw [evaluate,h]
  exact (emit_realizes h).run_closed hs

theorem evaluate_pooled {e : Expr} (h : e.emit=.ok c) (hs : e.isScoped []) :
    e.evaluate host args=(e.mapConstants c.pooled).meaning host args Scope.empty :=
  evaluate_closed h (isClosed_of_isScoped e hs)

/-- If constants that are equal are the same, each has its own place in the pool. -/
theorem pooled_eq_self {e : Expr} (h : e.emit=.ok c)
    (hk : ∀ a∈e.constants, ∀ b∈e.constants, a.equals b → a=b) : ∀ slot∈e.constants, c.pooled slot=slot := by
  intro slot hslot
  obtain ⟨s,hs,rfl⟩ := emit_ok h
  rw [Chunk.pooled]
  cases hf : s.constants.find? fun k => k.equals slot with
  | none => rfl
  | some k =>
    have pool : k∈e.constants := by
      have := (Emitter.emit_emits e hs).pool k (Array.mem_of_find?_eq_some hf)
      simpa [Emitter.empty] using this
    exact hk k pool slot hslot (by simpa using Array.find?_some hf)

/-- Compiling a tree and running the chunk gives what the tree means: the same slot or fault, and the same
state of the host, whatever the host does with a call and in whichever state it is. A host that keeps a record
of its calls therefore has the same record. -/
theorem evaluate_eq_meaning {σ : Type} (host : Host σ) (args : List Slot) {e : Expr} {c : Chunk}
    (h : e.emit=.ok c) (hs : e.isScoped [])
    (hk : ∀ a∈e.constants, ∀ b∈e.constants, a.equals b → a=b) :
    e.evaluate host args=e.meaning host args Scope.empty := by
  rw [evaluate_pooled h hs,mapConstants_eq_self e (pooled_eq_self h hk)]

/-- A host that writes down its calls and answers with how many there were before. -/
def countingHost : Host (List (Routine × List Slot)) where
  receives _ _ := true
  enter r args calls := (.ok (.int64 (.ofNat calls.length)),(r,args)::calls)

/-- A binding of a call, read in the condition and in a branch that calls again. -/
def callTwice : Expr :=
  let m : Method := ⟨⟨"Host","next",[.int64],.int64,true,.foreign "next"⟩,false⟩
  bind 0 (invoke m [arg 0 .int64]) (select (compare .lt (readLocal 0 .int64) (int 5))
    (invoke m [readLocal 0 .int64]) (int 7))

theorem evaluate_eq_meaning_callTwice :
    callTwice.isScoped [] ∧ callTwice.evaluate countingHost [.int64 3]=
      callTwice.meaning countingHost [.int64 3] Scope.empty := by
  obtain ⟨c,hc⟩ : ∃ c, callTwice.emit=.ok c := ⟨_,by cbv⟩
  have inner : callTwice.isScoped [] := by decide
  have distinct : ∀ a∈callTwice.constants, ∀ b∈callTwice.constants, a.equals b → a=b := by
    simp [callTwice,constants,constantsOf,int,Slot.equals]
  exact ⟨inner,evaluate_eq_meaning countingHost [.int64 3] hc inner distinct⟩

end Expr

end CallLowering
