import CallLowering.Proofs.Machine.Simulation

namespace CallLowering

/-- Does an instruction name entries of the pools of a chunk, store into a local of this kind only and jump no
further than to this place? -/
def Instr.Names (c : Chunk) (stored : UInt16 → Prop) (last : Nat) : Instr → Prop
  | .const index => index.toNat < c.constants.size
  | .invoke method _ => method.toNat < c.methods.size
  | .storeLocal index => stored index
  | .jump target => target.toNat ≤ last
  | .jumpIfFalse target => target.toNat ≤ last
  | _ => True

theorem Instr.Names.target {c : Chunk} {stored : UInt16 → Prop} {last : Nat} {i : Instr} {target : UInt32}
    (h : i.Names c stored last) (ht : i.target?=some target) : target.toNat ≤ last := by
  cases i with
  | jump t =>
    cases ht
    exact h
  | jumpIfFalse t =>
    cases ht
    exact h
  | _ => cases ht

theorem Instr.Names.mono {c : Chunk} {stored stored' : UInt16 → Prop} {last : Nat} {i : Instr}
    (h : i.Names c stored last) (hs : ∀ index, i=.storeLocal index → stored index → stored' index) :
    i.Names c stored' last := by
  cases i with
  | storeLocal index => exact hs index rfl h
  | _ => exact h

namespace Chunk

/-- Are all numbers in the instruction in range: of the pools, of the locals and of the code? -/
def InRange (c : Chunk) (i : Instr) : Prop :=
  i.Names c (fun index => index.toNat < c.maxLocals.toNat) c.code.size

/-- Does every instruction from one place up to another name such things? -/
def NamesIn (c : Chunk) (stored : UInt16 → Prop) (last p q : Nat) : Prop :=
  ∀ n i, p ≤ n → n < q → c.code[n]?=some i → i.Names c stored last

variable {c : Chunk} {stored : UInt16 → Prop} {last : Nat}

theorem NamesIn.append {p q r : Nat} (h : c.NamesIn stored last p q) (h' : c.NamesIn stored last q r) :
    c.NamesIn stored last p r := by
  intro n i hp hr hi
  by_cases hn : n < q
  · exact h n i hp hn hi
  · exact h' n i (by omega) hr hi

theorem NamesIn.one {p : Nat} {i : Instr} (hi : c.code[p]?=some i) (h : i.Names c stored last) :
    c.NamesIn stored last p (p+1) := by
  intro n j hp hn hj
  obtain rfl : n=p := by omega
  exact Option.some.inj (hi.symm.trans hj) ▸ h

/-- An instruction behind others. -/
theorem NamesIn.push {p q : Nat} {i : Instr} (h : c.NamesIn stored last p q) (hi : c.code[q]?=some i)
    (hn : i.Names c stored last) : c.NamesIn stored last p (q+1) := h.append (.one hi hn)

theorem namesIn_of_containsAll {es : List Expr} {p : Nat}
    (ih : ∀ e∈es, ∀ p, c.Contains p e → (∀ index∈e.bound, stored index) → p+e.codeSize ≤ last →
      c.NamesIn stored last p (p+e.codeSize))
    (h : c.ContainsAll p es) (hb : ∀ e∈es, ∀ index∈e.bound, stored index)
    (hl : p+Expr.codeSizes es ≤ last) : c.NamesIn stored last p (p+Expr.codeSizes es) := by
  induction es generalizing p with
  | nil => exact fun n i hp hn => absurd hn (by simp only [Expr.codeSizes]; omega)
  | cons e es ihs =>
    rw [Expr.codeSizes] at hl ⊢
    have head := ih e (by simp) p h.1 (hb e (by simp)) (by omega)
    have tail := ihs (fun e he => ih e (by simp [he])) h.2 (fun e he => hb e (by simp [he])) (by omega)
    exact Nat.add_assoc .. ▸ head.append tail

/-- The code of a tree stores into the locals that the tree binds and jumps no further than to its end. -/
theorem namesIn_of_contains (e : Expr) {p : Nat} (h : c.Contains p e) (hb : ∀ index∈e.bound, stored index)
    (hl : p+e.codeSize ≤ last) : c.NamesIn stored last p (p+e.codeSize) := by
  induction e generalizing p with
  | const slot =>
    obtain ⟨n,hi,hk⟩ := h
    exact .one hi (Array.getElem?_eq_some_iff.mp hk).1
  | arg index rep => exact .one h trivial
  | readLocal index rep => exact .one h trivial
  | invoke m es ih =>
    obtain ⟨hes,n,k,hi,hm,-⟩ := h
    rw [Expr.codeSize] at hl
    have args := namesIn_of_containsAll (fun e he p => ih e he) hes
      (fun e he index hi => hb index (by simpa [Expr.bound] using ⟨e,he,hi⟩)) (by omega)
    exact args.push hi (Array.getElem?_eq_some_iff.mp hm).1
  | list es ih =>
    obtain ⟨hes,k,hi,-⟩ := h
    rw [Expr.codeSize] at hl
    have items := namesIn_of_containsAll (fun e he p => ih e he) hes
      (fun e he index hi => hb index (by simpa [Expr.bound] using ⟨e,he,hi⟩)) (by omega)
    exact items.push hi trivial
  | convert e target ih => exact (ih h.1 hb (by rw [Expr.codeSize] at hl; omega)).push h.2 trivial
  | box e ih => exact (ih h.1 hb (by rw [Expr.codeSize] at hl; omega)).push h.2 trivial
  | unbox e target ih => exact (ih h.1 hb (by rw [Expr.codeSize] at hl; omega)).push h.2 trivial
  | isNull e ih => exact (ih h.1 hb (by rw [Expr.codeSize] at hl; omega)).push h.2 trivial
  | not e ih => exact (ih h.1 hb (by rw [Expr.codeSize] at hl; omega)).push h.2 trivial
  | bind index value body ihv ihb =>
    obtain ⟨hv,hi,hbody⟩ := h
    rw [Expr.codeSize] at hl
    have before := ihv hv (fun i h => hb i (by simp [Expr.bound,h])) (by omega)
    have after := ihb hbody (fun i h => hb i (by simp [Expr.bound,h])) (by omega)
    have whole := (before.push hi (hb index (by simp [Expr.bound]))).append after
    simpa only [Expr.codeSize,Nat.add_assoc] using whole
  | select e t f ihe iht ihf =>
    obtain ⟨he,⟨otherwise,hi,ho⟩,ht,⟨done,hj,hd⟩,hf⟩ := h
    rw [Expr.codeSize] at hl
    have condition := ihe he (fun i h => hb i (by simp [Expr.bound,h])) (by omega)
    have whenTrue := iht ht (fun i h => hb i (by simp [Expr.bound,h])) (by omega)
    have whenFalse := ihf hf (fun i h => hb i (by simp [Expr.bound,h])) (by omega)
    have choice := (condition.push hi (show otherwise.toNat ≤ last by omega)).append whenTrue
    have whole := (choice.push hj (show done.toNat ≤ last by omega)).append whenFalse
    simpa only [Expr.codeSize,Nat.add_assoc] using whole
  | compare k lhs rhs ihl ihr =>
    obtain ⟨hlhs,hrhs,hi⟩ := h
    rw [Expr.codeSize] at hl
    have left := ihl hlhs (fun i h => hb i (by simp [Expr.bound,h])) (by omega)
    have right := ihr hrhs (fun i h => hb i (by simp [Expr.bound,h])) (by omega)
    have whole := (left.append right).push hi trivial
    simpa only [Expr.codeSize,Nat.add_assoc] using whole

variable {e : Expr}

/-- Every instruction of a chunk of a tree stores into a local that the tree binds. -/
theorem Realizes.names (h : c.Realizes e) {place : Nat} {i : Instr} (hi : c.code[place]?=some i) :
    i.Names c (fun index => index∈e.bound) c.code.size := by
  have hlt : place < c.code.size := (Array.getElem?_eq_some_iff.mp hi).1
  have all : c.NamesIn (fun index => index∈e.bound) e.codeSize 0 (0+e.codeSize) :=
    namesIn_of_contains e h.contains (fun _ hi => hi) (Nat.le_of_eq (Nat.zero_add e.codeSize))
  rw [Nat.zero_add,←h.size] at all
  exact all place i (Nat.zero_le place) hlt hi

/-- Jumps lead forward, and no further than to the end of the code. -/
theorem Realizes.target (h : c.Realizes e) {place : Nat} {i : Instr} {target : UInt32}
    (hi : c.code[place]?=some i) (ht : i.target?=some target) :
    place < target.toNat ∧ target.toNat ≤ c.code.size :=
  ⟨h.forward place i target hi ht,(h.names hi).target ht⟩

/-- Only the local with the largest number has no place: the number of locals does not go beyond it. -/
theorem Realizes.inRange_iff (h : c.Realizes e) {place : Nat} {i : Instr} (hi : c.code[place]?=some i) :
    c.InRange i ↔ i≠.storeLocal 65535 := by
  constructor
  · rintro hr rfl
    have beyond : 65535 < c.maxLocals.toNat := hr
    have := c.maxLocals.toNat_lt
    omega
  · intro hne
    apply (h.names hi).mono
    rintro index rfl hb
    apply h.room index hb
    have hlt := index.toNat_lt
    have : index.toNat≠65535 := fun eq => hne (congrArg Instr.storeLocal (UInt16.toNat_inj.mp eq))
    omega

end Chunk

end CallLowering
