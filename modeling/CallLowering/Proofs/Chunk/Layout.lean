import CallLowering.Proofs.Expr.Scope
import CallLowering.Proofs.Machine.Forward
import CallLowering.Proofs.Value.Equality
import Mathlib.Tactic.Tauto

namespace CallLowering

/-- Is the first array the beginning of the second? -/
def Emitter.Begins {α : Type} (a b : Array α) : Prop := ∀ (n : Nat) (x : α), a[n]?=some x → b[n]?=some x

namespace Emitter.Begins

variable {α : Type} {a b c : Array α}

theorem refl (a : Array α) : Begins a a := fun _ _ h => h

theorem trans (h : Begins a b) (h' : Begins b c) : Begins a c := fun n x hx => h' n x (h n x hx)

theorem push (a : Array α) (x : α) : Begins a (a.push x) := by
  intro n y hy
  have hn : n < a.size := (Array.getElem?_eq_some_iff.mp hy).1
  rw [Array.getElem?_push,if_neg (by omega)]
  exact hy

end Emitter.Begins

/-- The constant that a chunk loads for one of its tree: the first in the pool that equals it. -/
def Chunk.pooled (c : Chunk) (slot : Slot) : Slot :=
  (c.constants.find? fun k => k.equals slot).getD slot

mutual

/-- Does the code of a tree stand at this place? -/
def Chunk.Contains (c : Chunk) : Nat → Expr → Prop
  | p,.const slot => ∃ n : UInt32,
      c.code[p]?=some (.const n) ∧ c.constants[n.toNat]?=some (c.pooled slot)
  | p,.arg index _ => c.code[p]?=some (.loadArg index)
  | p,.readLocal index _ => c.code[p]?=some (.loadLocal index)
  | p,.invoke m es => c.ContainsAll p es ∧ ∃ (n : UInt32) (k : UInt16),
      c.code[p+Expr.codeSizes es]?=some (.invoke n k) ∧ c.methods[n.toNat]?=some m ∧ k.toNat=es.length
  | p,.convert e target => c.Contains p e ∧ c.code[p+e.codeSize]?=some (.convert target)
  | p,.box e => c.Contains p e ∧ c.code[p+e.codeSize]?=some .box
  | p,.unbox e target => c.Contains p e ∧ c.code[p+e.codeSize]?=some (.unbox target)
  | p,.list es => c.ContainsAll p es ∧ ∃ k : UInt16,
      c.code[p+Expr.codeSizes es]?=some (.newList k) ∧ k.toNat=es.length
  | p,.bind index value body => c.Contains p value ∧
      c.code[p+value.codeSize]?=some (.storeLocal index) ∧ c.Contains (p+value.codeSize+1) body
  | p,.select e t f => c.Contains p e ∧ (∃ otherwise : UInt32,
      c.code[p+e.codeSize]?=some (.jumpIfFalse otherwise) ∧
        otherwise.toNat=p+e.codeSize+1+t.codeSize+1) ∧
      c.Contains (p+e.codeSize+1) t ∧ (∃ done : UInt32,
      c.code[p+e.codeSize+1+t.codeSize]?=some (.jump done) ∧
        done.toNat=p+e.codeSize+1+t.codeSize+1+f.codeSize) ∧
      c.Contains (p+e.codeSize+1+t.codeSize+1) f
  | p,.compare k lhs rhs => c.Contains p lhs ∧ c.Contains (p+lhs.codeSize) rhs ∧
      c.code[p+lhs.codeSize+rhs.codeSize]?=some (.compare k)
  | p,.isNull e => c.Contains p e ∧ c.code[p+e.codeSize]?=some .isNull
  | p,.not e => c.Contains p e ∧ c.code[p+e.codeSize]?=some .not

def Chunk.ContainsAll (c : Chunk) : Nat → List Expr → Prop
  | _,[] => True
  | p,e::es => c.Contains p e ∧ c.ContainsAll (p+e.codeSize) es

end

namespace Emitter

/-- Is what was emitted first still there, and is there room for as many locals? -/
structure Within (s s' : Emitter) : Prop where
  code : Begins s.code s'.code
  constants : Begins s.constants s'.constants
  methods : Begins s.methods s'.methods
  maxLocals : s.maxLocals ≤ s'.maxLocals

theorem Within.trans {s s' s'' : Emitter} (h : s.Within s') (h' : s'.Within s'') : s.Within s'' :=
  ⟨h.code.trans h'.code,h.constants.trans h'.constants,h.methods.trans h'.methods,
    UInt16.le_trans h.maxLocals h'.maxLocals⟩

/-- What emitting one or more trees has done: their code stands behind the code before it, and the pool has
at most got their constants. -/
structure Emits (s s' : Emitter) (size : Nat) (bound : List UInt16) (added : List Slot) : Prop where
  within : s.Within s'
  size : s'.code.size=s.code.size+size
  forward : Instr.Forward s.code → Instr.Forward s'.code
  room : ∀ i∈bound, i.toNat ≤ 65534 → i.toNat < s'.maxLocals.toNat
  pool : ∀ k∈s'.constants, k∈s.constants ∨ k∈added

theorem Emits.nil (s : Emitter) : s.Emits s 0 [] [] :=
  ⟨⟨.refl _,.refl _,.refl _,UInt16.le_refl _⟩,rfl,id,by simp,fun _ => .inl⟩

theorem Emits.append {s s' s'' : Emitter} {n n' : Nat} {bound bound' : List UInt16}
    {added added' : List Slot} (h : s.Emits s' n bound added) (h' : s'.Emits s'' n' bound' added') :
    s.Emits s'' (n+n') (bound++bound') (added++added') := by
  refine ⟨h.within.trans h'.within,by rw [h'.size,h.size]; omega,h'.forward ∘ h.forward,?_,?_⟩
  · intro i hi hn
    rcases List.mem_append.mp hi with hi|hi
    · exact Nat.lt_of_lt_of_le (h.room i hi hn) (UInt16.le_iff_toNat_le.mp h'.within.maxLocals)
    · exact h'.room i hi hn
  · intro k hk
    rcases h'.pool k hk with hk|hk
    · exact (h.pool k hk).imp_right fun hk => List.mem_append_left _ hk
    · exact .inr (List.mem_append_right _ hk)

theorem forward_push {code : Array Instr} (hf : Instr.Forward code) {i : Instr}
    (hi : ∀ target, i.target?=some target → code.size < target.toNat) :
    Instr.Forward (code.push i) := by
  intro place j target hj ht
  rw [Array.getElem?_push] at hj
  split at hj
  · cases hj
    have := hi target ht
    omega
  · exact hf place j target hj ht

theorem within_push (s : Emitter) (i : Instr) : s.Within (s.push i) :=
  ⟨.push _ _,.refl _,.refl _,UInt16.le_refl _⟩

/-- Adding an instruction that leads forward, and what it needs in the pools. -/
theorem emits_push (s : Emitter) {s' : Emitter} (i : Instr) {added : List Slot}
    (hc : s'.code=s.code.push i) (hk : Begins s.constants s'.constants)
    (hp : ∀ k∈s'.constants, k∈s.constants ∨ k∈added) (hm : Begins s.methods s'.methods)
    (hl : s'.maxLocals=s.maxLocals)
    (hi : ∀ target, i.target?=some target → s.code.size < target.toNat) : s.Emits s' 1 [] added :=
  ⟨⟨hc ▸ .push _ _,hk,hm,hl ▸ UInt16.le_refl _⟩,by rw [hc,Array.size_push],
    fun hf => hc ▸ forward_push hf hi,by simp,hp⟩

theorem emits_push_only (s : Emitter) (i : Instr)
    (hi : ∀ target, i.target?=some target → s.code.size < target.toNat) : s.Emits (s.push i) 1 [] [] :=
  emits_push s i rfl (.refl _) (fun _ => .inl) (.refl _) rfl hi

theorem emits_push_plain (s : Emitter) (i : Instr) (hi : i.target?=none) :
    s.Emits (s.push i) 1 [] [] :=
  emits_push_only s i (by simp [hi])

theorem operand16_ok {n : Nat} {message : String} {k : UInt16} (h : operand16 n message=.ok k) :
    k.toNat=n := by
  unfold operand16 at h
  split at h
  · cases h
    exact UInt16.toNat_ofNat_of_lt' ‹_›
  · cases h

theorem operand32_ok {n : Nat} {message : String} {k : UInt32} (h : operand32 n message=.ok k) :
    k.toNat=n ∧ k=.ofNat n := by
  unfold operand32 at h
  split at h
  · cases h
    exact ⟨UInt32.toNat_ofNat_of_lt' ‹_›,rfl⟩
  · cases h

theorem pushConst_emits {s s' : Emitter} {slot : Slot} (h : s.pushConst slot=.ok s') :
    s.Emits s' 1 [] [slot] := by
  unfold pushConst at h
  split at h
  · obtain ⟨n,-,hs⟩ := Failure.bind_ok h
    cases hs
    exact emits_push s (.const n) rfl (.refl _) (fun _ => .inl) (.refl _) rfl
      (by simp [Instr.target?])
  · obtain ⟨n,-,hs⟩ := Failure.bind_ok h
    cases hs
    exact emits_push s (.const n) rfl (.push _ _) (fun k hk => by simpa using hk) (.refl _) rfl
      (by simp [Instr.target?])

theorem pushInvoke_emits {s s' : Emitter} {m : Method} {count : UInt16}
    (h : s.pushInvoke m count=.ok s') : s.Emits s' 1 [] [] := by
  unfold pushInvoke at h
  split at h
  · obtain ⟨n,-,hs⟩ := Failure.bind_ok h
    cases hs
    exact emits_push_plain s _ rfl
  · obtain ⟨n,-,hs⟩ := Failure.bind_ok h
    cases hs
    exact emits_push s (.invoke n count) rfl (.refl _) (fun _ => .inl) (.push _ _) rfl
      (by simp [Instr.target?])

theorem pushStore_emits (s : Emitter) (index : UInt16) :
    s.Emits (s.pushStore index) 1 [index] [] := by
  have hp := emits_push_plain s (.storeLocal index) rfl
  refine ⟨⟨hp.within.code,.refl _,.refl _,?_⟩,hp.size,hp.forward,?_,hp.pool⟩
  · simp only [pushStore]
    generalize (if index.toNat+1 < 0x10000 then index+1 else index)=needed
    split
    · exact UInt16.le_of_lt ‹_›
    · exact UInt16.le_refl _
  · intro i hi hn
    rw [List.mem_singleton.mp hi] at hn ⊢
    simp only [pushStore]
    rw [if_pos (show index.toNat+1 < 0x10000 by omega)]
    have hsucc : (index+1).toNat=index.toNat+1 := by
      rw [UInt16.toNat_add]
      exact Nat.mod_eq_of_lt (by simp only [UInt16.toNat_one]; omega)
    split
    · omega
    · next hge =>
      rw [UInt16.lt_iff_toNat_lt] at hge
      omega

/-- What emitting a list does, if this is what emitting each of its trees does. -/
theorem emitAll_emits {es : List Expr}
    (ih : ∀ e∈es, ∀ s s' : Emitter, s.emit e=.ok s' → s.Emits s' e.codeSize e.bound e.constants)
    {s s' : Emitter} (h : s.emitAll es=.ok s') :
    s.Emits s' (Expr.codeSizes es) (Expr.boundIn es) (Expr.constantsOf es) := by
  induction es generalizing s with
  | nil =>
    cases h
    exact .nil _
  | cons e es ihs =>
    rw [emitAll] at h
    split at h
    · next s₁ h₁ =>
      exact (ih e (by simp) _ s₁ h₁).append (ihs (fun e he => ih e (by simp [he])) h)
    · cases h

theorem emit_emits (e : Expr) {s s' : Emitter} (h : s.emit e=.ok s') :
    s.Emits s' e.codeSize e.bound e.constants := by
  induction e generalizing s s' with
  | const slot => exact pushConst_emits (by simpa only [emit] using h)
  | arg index rep =>
    cases h
    exact emits_push_plain s _ rfl
  | readLocal index rep =>
    cases h
    exact emits_push_plain s _ rfl
  | invoke m es ih =>
    rw [emit] at h
    obtain ⟨s₁,h₁,h⟩ := Failure.bind_ok h
    obtain ⟨k,-,h⟩ := Failure.bind_ok h
    simpa [Expr.codeSize,Expr.bound,Expr.constants] using
      (emitAll_emits (fun e he s s' => ih e he) h₁).append (pushInvoke_emits h)
  | list es ih =>
    rw [emit] at h
    obtain ⟨s₁,h₁,h⟩ := Failure.bind_ok h
    obtain ⟨k,-,h⟩ := Failure.bind_ok h
    cases h
    simpa [Expr.codeSize,Expr.bound,Expr.constants] using
      (emitAll_emits (fun e he s s' => ih e he) h₁).append (emits_push_plain s₁ (.newList k) rfl)
  | convert e target ih =>
    obtain ⟨s₁,h₁,h⟩ := Failure.bind_ok h
    cases h
    simpa [Expr.codeSize,Expr.bound,Expr.constants] using
      (ih h₁).append (emits_push_plain s₁ (.convert target) rfl)
  | box e ih =>
    obtain ⟨s₁,h₁,h⟩ := Failure.bind_ok h
    cases h
    simpa [Expr.codeSize,Expr.bound,Expr.constants] using (ih h₁).append (emits_push_plain s₁ .box rfl)
  | unbox e target ih =>
    obtain ⟨s₁,h₁,h⟩ := Failure.bind_ok h
    cases h
    simpa [Expr.codeSize,Expr.bound,Expr.constants] using
      (ih h₁).append (emits_push_plain s₁ (.unbox target) rfl)
  | isNull e ih =>
    obtain ⟨s₁,h₁,h⟩ := Failure.bind_ok h
    cases h
    simpa [Expr.codeSize,Expr.bound,Expr.constants] using (ih h₁).append (emits_push_plain s₁ .isNull rfl)
  | not e ih =>
    obtain ⟨s₁,h₁,h⟩ := Failure.bind_ok h
    cases h
    simpa [Expr.codeSize,Expr.bound,Expr.constants] using (ih h₁).append (emits_push_plain s₁ .not rfl)
  | bind index value body ihv ihb =>
    rw [emit] at h
    obtain ⟨s₁,h₁,h⟩ := Failure.bind_ok h
    have all := ((ihv h₁).append (pushStore_emits s₁ index)).append (ihb h)
    refine ⟨all.within,all.size,all.forward,fun i hi => all.room i ?_,
      by simpa [Expr.constants] using all.pool⟩
    simp only [Expr.bound,List.mem_cons,List.mem_append] at hi ⊢
    tauto
  | select c t f ihc iht ihf =>
    rw [emit] at h
    split at h
    · cases h
    obtain ⟨s₁,h₁,h⟩ := Failure.bind_ok h
    obtain ⟨s₂,h₂,h⟩ := Failure.bind_ok h
    obtain ⟨otherwise,ho,h⟩ := Failure.bind_ok h
    obtain ⟨s₃,h₃,h⟩ := Failure.bind_ok h
    obtain ⟨done,hd,h⟩ := Failure.bind_ok h
    cases h
    -- the numbers of both targets fit, so they are the places that were meant
    obtain ⟨hon,rfl⟩ := operand32_ok ho
    obtain ⟨hdn,rfl⟩ := operand32_ok hd
    have jump := emits_push_only s₁ (.jumpIfFalse (.ofNat (s₁.code.size+1+t.codeSize+1)))
      (by intro _ h; cases h; omega)
    have body := iht h₂
    have skip := emits_push_only s₂ (.jump (.ofNat (s₁.code.size+1+t.codeSize+1+f.codeSize))) (by
      intro _ h
      cases h
      have := body.size
      have := jump.size
      omega)
    have all := ((((ihc h₁).append jump).append body).append skip).append (ihf h₃)
    simpa [Expr.codeSize,Expr.bound,Expr.constants] using all
  | compare k lhs rhs ihl ihr =>
    rw [emit] at h
    obtain ⟨s₁,h₁,h⟩ := Failure.bind_ok h
    obtain ⟨s₂,h₂,h⟩ := Failure.bind_ok h
    cases h
    simpa [Expr.codeSize,Expr.bound,Expr.constants] using
      ((ihl h₁).append (ihr h₂)).append (emits_push_plain s₂ (.compare k) rfl)

end Emitter

namespace Chunk

def parts (c : Chunk) : Emitter := ⟨c.code,c.constants,c.methods,c.maxLocals⟩

variable {c : Chunk} {s s' : Emitter}

theorem pooled_of_first {slot k : Slot} {n : Nat} (hk : c.constants[n]?=some k) (he : k.equals slot)
    (hf : ∀ (j : Nat) (x : Slot), j < n → c.constants[j]?=some x → ¬x.equals slot) :
    c.pooled slot=k := by
  obtain ⟨hn,hk⟩ := Array.getElem?_eq_some_iff.mp hk
  have hfind : c.constants.find? (fun k => k.equals slot)=some k := by
    rw [Array.find?_eq_some_iff_getElem]
    refine ⟨he,n,hn,hk,?_⟩
    intro j hj
    simpa using hf j _ hj (Array.getElem?_eq_getElem (Nat.lt_trans hj hn))
  rw [pooled,hfind]
  rfl

/-- A constant is loaded from the place where its equal was first, be it its own. -/
theorem pushConst_contains {slot : Slot} (h : s.pushConst slot=.ok s') (hc : s'.Within c.parts) :
    c.Contains s.code.size (.const slot) := by
  unfold Emitter.pushConst at h
  split at h
  · next n hn =>
    obtain ⟨k,hk,hs⟩ := Failure.bind_ok h
    cases hs
    obtain ⟨hlt,heq,hfirst⟩ := Array.findIdx?_eq_some_iff_getElem.mp hn
    have hat : c.constants[n]?=some s.constants[n] :=
      hc.constants n _ (Array.getElem?_eq_getElem hlt)
    refine ⟨k,hc.code _ _ Array.getElem?_push_size,?_⟩
    rw [(Emitter.operand32_ok hk).1,hat,pooled_of_first hat heq]
    intro j x hj hx
    have hxs : s.constants[j]=x := by
      have := hc.constants j _ (Array.getElem?_eq_getElem (Nat.lt_trans hj hlt))
      rw [show c.parts.constants=c.constants from rfl,hx] at this
      exact (Option.some.inj this).symm
    exact hxs ▸ hfirst j hj
  · next hn =>
    obtain ⟨k,hk,hs⟩ := Failure.bind_ok h
    cases hs
    have hat : c.constants[s.constants.size]?=some slot := hc.constants _ _ Array.getElem?_push_size
    refine ⟨k,hc.code _ _ Array.getElem?_push_size,?_⟩
    rw [(Emitter.operand32_ok hk).1,hat]
    by_cases hself : slot.equals slot
    · rw [pooled_of_first hat hself]
      intro j x hj hx
      have hxs : s.constants[j]=x := by
        have := hc.constants j s.constants[j] (by rw [Array.getElem?_push_lt hj])
        rw [show c.parts.constants=c.constants from rfl,hx] at this
        exact (Option.some.inj this).symm
      have := Array.findIdx?_eq_none_iff.mp hn s.constants[j] (Array.getElem_mem hj)
      rw [hxs] at this
      simpa using this
    · -- nothing in the pool equals what differs from itself
      have hfind : c.constants.find? (fun k => k.equals slot)=none :=
        Array.find?_eq_none.mpr fun k _ hk => hself (Slot.equals_self hk)
      rw [pooled,hfind]
      rfl

theorem pushInvoke_contains {m : Method} {count : UInt16} (h : s.pushInvoke m count=.ok s')
    (hc : s'.Within c.parts) :
    ∃ n : UInt32, c.code[s.code.size]?=some (.invoke n count) ∧ c.methods[n.toNat]?=some m := by
  unfold Emitter.pushInvoke at h
  split at h
  · next n hn =>
    obtain ⟨k,hk,hs⟩ := Failure.bind_ok h
    cases hs
    obtain ⟨hlt,heq,-⟩ := Array.findIdx?_eq_some_iff_getElem.mp hn
    refine ⟨k,hc.code _ _ Array.getElem?_push_size,?_⟩
    rw [(Emitter.operand32_ok hk).1,←eq_of_beq heq]
    exact hc.methods n _ (Array.getElem?_eq_getElem hlt)
  · obtain ⟨k,hk,hs⟩ := Failure.bind_ok h
    cases hs
    refine ⟨k,hc.code _ _ Array.getElem?_push_size,?_⟩
    rw [(Emitter.operand32_ok hk).1]
    exact hc.methods _ _ Array.getElem?_push_size

theorem emitAll_contains {es : List Expr}
    (ih : ∀ e∈es, ∀ s s' : Emitter, s.emit e=.ok s' → s'.Within c.parts → c.Contains s.code.size e)
    (h : s.emitAll es=.ok s') (hc : s'.Within c.parts) : c.ContainsAll s.code.size es := by
  induction es generalizing s with
  | nil => trivial
  | cons e es ihs =>
    rw [Emitter.emitAll] at h
    split at h
    · next s₁ h₁ =>
      have head := Emitter.emit_emits e h₁
      have tail := Emitter.emitAll_emits (fun e _ s s' => Emitter.emit_emits e) h
      refine ⟨ih e (by simp) _ s₁ h₁ (tail.within.trans hc),?_⟩
      rw [←head.size]
      exact ihs (fun e he => ih e (by simp [he])) h
    · cases h

theorem emit_push_contains {e : Expr} {i : Instr} (h : s.emit e=.ok s')
    (ih : s'.Within c.parts → c.Contains s.code.size e) (hc : (s'.push i).Within c.parts) :
    c.Contains s.code.size e ∧ c.code[s.code.size+e.codeSize]?=some i := by
  refine ⟨ih ((Emitter.within_push s' i).trans hc),?_⟩
  rw [←(Emitter.emit_emits e h).size]
  exact hc.code _ _ Array.getElem?_push_size

/-- The code of a tree stands where it was emitted, in every chunk that begins so. -/
theorem emit_contains (e : Expr) (h : s.emit e=.ok s') (hc : s'.Within c.parts) :
    c.Contains s.code.size e := by
  induction e generalizing s s' with
  | const slot => exact pushConst_contains (by simpa only [Emitter.emit] using h) hc
  | arg index rep =>
    cases h
    exact hc.code _ _ Array.getElem?_push_size
  | readLocal index rep =>
    cases h
    exact hc.code _ _ Array.getElem?_push_size
  | invoke m es ih =>
    rw [Emitter.emit] at h
    obtain ⟨s₁,h₁,h⟩ := Failure.bind_ok h
    obtain ⟨k,hk,h⟩ := Failure.bind_ok h
    have all := Emitter.emitAll_emits (fun e _ s s' => Emitter.emit_emits e) h₁
    obtain ⟨n,hn,hm⟩ := pushInvoke_contains h hc
    refine ⟨emitAll_contains (fun e he s s' => ih e he) h₁
      ((Emitter.pushInvoke_emits h).within.trans hc),n,k,?_,hm,Emitter.operand16_ok hk⟩
    rw [←all.size]
    exact hn
  | list es ih =>
    rw [Emitter.emit] at h
    obtain ⟨s₁,h₁,h⟩ := Failure.bind_ok h
    obtain ⟨k,hk,h⟩ := Failure.bind_ok h
    cases h
    have all := Emitter.emitAll_emits (fun e _ s s' => Emitter.emit_emits e) h₁
    refine ⟨emitAll_contains (fun e he s s' => ih e he) h₁
      ((Emitter.within_push s₁ _).trans hc),k,?_,Emitter.operand16_ok hk⟩
    rw [←all.size]
    exact hc.code _ _ Array.getElem?_push_size
  | convert e target ih =>
    obtain ⟨s₁,h₁,h⟩ := Failure.bind_ok h
    cases h
    exact emit_push_contains h₁ (ih h₁) hc
  | box e ih =>
    obtain ⟨s₁,h₁,h⟩ := Failure.bind_ok h
    cases h
    exact emit_push_contains h₁ (ih h₁) hc
  | unbox e target ih =>
    obtain ⟨s₁,h₁,h⟩ := Failure.bind_ok h
    cases h
    exact emit_push_contains h₁ (ih h₁) hc
  | isNull e ih =>
    obtain ⟨s₁,h₁,h⟩ := Failure.bind_ok h
    cases h
    exact emit_push_contains h₁ (ih h₁) hc
  | not e ih =>
    obtain ⟨s₁,h₁,h⟩ := Failure.bind_ok h
    cases h
    exact emit_push_contains h₁ (ih h₁) hc
  | bind index value body ihv ihb =>
    rw [Emitter.emit] at h
    obtain ⟨s₁,h₁,h⟩ := Failure.bind_ok h
    have store := Emitter.pushStore_emits s₁ index
    have rest := (Emitter.emit_emits body h).within.trans hc
    have hbody := ihb h hc
    refine ⟨ihv h₁ (store.within.trans rest),?_,?_⟩
    · rw [←(Emitter.emit_emits value h₁).size]
      exact rest.code _ _ Array.getElem?_push_size
    · rw [←(Emitter.emit_emits value h₁).size,←store.size]
      exact hbody
  | select e t f ihe iht ihf =>
    rw [Emitter.emit] at h
    split at h
    · cases h
    obtain ⟨s₁,h₁,h⟩ := Failure.bind_ok h
    obtain ⟨s₂,h₂,h⟩ := Failure.bind_ok h
    obtain ⟨otherwise,ho,h⟩ := Failure.bind_ok h
    obtain ⟨s₃,h₃,h⟩ := Failure.bind_ok h
    obtain ⟨done,hd,h⟩ := Failure.bind_ok h
    cases h
    obtain ⟨hon,rfl⟩ := Emitter.operand32_ok ho
    obtain ⟨hdn,rfl⟩ := Emitter.operand32_ok hd
    have jump := Emitter.within_push s₁ (.jumpIfFalse (.ofNat (s₁.code.size+1+t.codeSize+1)))
    have skip := Emitter.within_push s₂
      (.jump (.ofNat (s₁.code.size+1+t.codeSize+1+f.codeSize)))
    have hsize := (Emitter.emit_emits e h₁).size
    have tsize := (Emitter.emit_emits t h₂).size
    simp only [Emitter.push,Array.size_push] at tsize
    have last := (Emitter.emit_emits f h₃).within.trans hc
    have body := (Emitter.emit_emits t h₂).within.trans (skip.trans last)
    rw [Chunk.Contains,←hsize,←tsize]
    refine ⟨ihe h₁ (jump.trans body),⟨_,?_,hon.trans (by omega)⟩,?_,⟨_,?_,hdn.trans (by omega)⟩,?_⟩
    · exact body.code _ _ Array.getElem?_push_size
    · simpa [Emitter.push] using iht h₂ (skip.trans last)
    · exact last.code _ _ Array.getElem?_push_size
    · simpa [Emitter.push] using ihf h₃ hc
  | compare k lhs rhs ihl ihr =>
    rw [Emitter.emit] at h
    obtain ⟨s₁,h₁,h⟩ := Failure.bind_ok h
    obtain ⟨s₂,h₂,h⟩ := Failure.bind_ok h
    cases h
    have right := Emitter.emit_emits rhs h₂
    have compare := (Emitter.within_push s₂ (.compare k)).trans hc
    refine ⟨ihl h₁ (right.within.trans compare),?_,?_⟩
    · rw [←(Emitter.emit_emits lhs h₁).size]
      exact ihr h₂ compare
    · rw [←(Emitter.emit_emits lhs h₁).size,←right.size]
      exact hc.code _ _ Array.getElem?_push_size

end Chunk

end CallLowering
