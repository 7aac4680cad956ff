import CallLowering.Proofs.Chunk.Layout
import CallLowering.Proofs.Expr.Plain

namespace CallLowering

namespace Expr

mutual

/-- Can the operands of every node be counted, and do the branches of every choice have one representation? -/
def isCounted : Expr → Bool
  | const _ => true
  | arg _ _ => true
  | readLocal _ _ => true
  | invoke _ es => decide (es.length < 0x10000) && areCounted es
  | convert e _ => e.isCounted
  | box e => e.isCounted
  | unbox e _ => e.isCounted
  | list es => decide (es.length < 0x10000) && areCounted es
  | bind _ value body => value.isCounted && body.isCounted
  | select c t f => decide (t.rep=f.rep) && c.isCounted && t.isCounted && f.isCounted
  | compare _ lhs rhs => lhs.isCounted && rhs.isCounted
  | isNull e => e.isCounted
  | not e => e.isCounted

def areCounted : List Expr → Bool
  | [] => true
  | e::es => e.isCounted && areCounted es

end

@[simp] theorem areCounted_iff (es : List Expr) : areCounted es ↔ ∀ e∈es, e.isCounted := by
  induction es with
  | nil => simp [areCounted]
  | cons e es ih => simp [areCounted,ih]

theorem isCounted_of_isPlain (e : Expr) (h : e.isPlain) : e.isCounted := by
  induction e with
  | invoke m es ih =>
    simp only [isPlain,isCounted,Bool.and_eq_true,decide_eq_true_eq,arePlain_iff,areCounted_iff] at h ⊢
    exact ⟨h.1.2,fun e he => ih e he (h.2 e he)⟩
  | list es ih =>
    simp only [isPlain,isCounted,Bool.and_eq_true,decide_eq_true_eq,arePlain_iff,areCounted_iff] at h ⊢
    exact ⟨h.1,fun e he => ih e he (h.2 e he)⟩
  | bind index value body ihv ihb =>
    simp only [isPlain,isCounted,Bool.and_eq_true] at h ⊢
    exact ⟨ihv h.1,ihb h.2⟩
  | select c t f ihc iht ihf =>
    simp only [isPlain,isCounted,Bool.and_eq_true,decide_eq_true_eq] at h ⊢
    exact ⟨⟨⟨h.1.1.1,ihc h.1.1.2⟩,iht h.1.2⟩,ihf h.2⟩
  | compare k lhs rhs ihl ihr =>
    simp only [isPlain,isCounted,Bool.and_eq_true] at h ⊢
    exact ⟨ihl h.1,ihr h.2⟩
  | convert e target ih => exact ih h
  | box e ih => exact ih h
  | unbox e target ih => exact ih h
  | isNull e ih => exact ih h
  | not e ih => exact ih h
  | _ => rfl

end Expr

namespace Emitter

theorem isCounted_of_emitAll {es : List Expr}
    (ih : ∀ e∈es, ∀ s s' : Emitter, s.emit e=.ok s' → e.isCounted) {s s' : Emitter}
    (h : s.emitAll es=.ok s') : ∀ e∈es, e.isCounted := by
  induction es generalizing s with
  | nil => simp
  | cons e es ihs =>
    rw [emitAll] at h
    split at h
    · next s₁ h₁ =>
      have rest := ihs (fun e he => ih e (by simp [he])) h
      simpa using ⟨ih e (by simp) s s₁ h₁,rest⟩
    · cases h

/-- What is emitted can be counted. -/
theorem isCounted_of_emit (e : Expr) {s s' : Emitter} (h : s.emit e=.ok s') : e.isCounted := by
  -- one instruction behind a tree
  have behind {e : Expr} {s s' : Emitter} {i : Instr}
      (h : (do return (← s.emit e).push i : Except LowerError Emitter)=.ok s') : ∃ s₁, s.emit e=.ok s₁ := by
    obtain ⟨s₁,h₁,-⟩ := Failure.bind_ok h
    exact ⟨s₁,h₁⟩
  have fits {n : Nat} {message : String} {k : UInt16} (h : operand16 n message=.ok k) : n < 0x10000 := by
    rw [operand16] at h
    split at h
    · assumption
    · cases h
  induction e generalizing s s' with
  | const slot => rfl
  | arg index rep => rfl
  | readLocal index rep => rfl
  | invoke m es ih =>
    rw [emit] at h
    obtain ⟨s₁,h₁,h⟩ := Failure.bind_ok h
    obtain ⟨n,hn,-⟩ := Failure.bind_ok h
    simp only [Expr.isCounted,Bool.and_eq_true,decide_eq_true_eq,Expr.areCounted_iff]
    exact ⟨fits hn,isCounted_of_emitAll (fun e he s s' => ih e he) h₁⟩
  | list es ih =>
    rw [emit] at h
    obtain ⟨s₁,h₁,h⟩ := Failure.bind_ok h
    obtain ⟨n,hn,-⟩ := Failure.bind_ok h
    simp only [Expr.isCounted,Bool.and_eq_true,decide_eq_true_eq,Expr.areCounted_iff]
    exact ⟨fits hn,isCounted_of_emitAll (fun e he s s' => ih e he) h₁⟩
  | convert e target ih => exact (behind h).elim fun _ => ih
  | box e ih => exact (behind h).elim fun _ => ih
  | unbox e target ih => exact (behind h).elim fun _ => ih
  | isNull e ih => exact (behind h).elim fun _ => ih
  | not e ih => exact (behind h).elim fun _ => ih
  | bind index value body ihv ihb =>
    rw [emit] at h
    obtain ⟨s₁,h₁,h₂⟩ := Failure.bind_ok h
    simp only [Expr.isCounted,Bool.and_eq_true]
    exact ⟨ihv h₁,ihb h₂⟩
  | select c t f ihc iht ihf =>
    rw [emit] at h
    split at h
    · cases h
    · next same =>
      obtain ⟨s₁,h₁,h⟩ := Failure.bind_ok h
      obtain ⟨s₂,h₂,h⟩ := Failure.bind_ok h
      obtain ⟨-,-,h⟩ := Failure.bind_ok h
      obtain ⟨s₃,h₃,-⟩ := Failure.bind_ok h
      simp only [Expr.isCounted,Bool.and_eq_true,decide_eq_true_eq]
      exact ⟨⟨⟨Decidable.of_not_not same,ihc h₁⟩,iht h₂⟩,ihf h₃⟩
  | compare k lhs rhs ihl ihr =>
    rw [emit] at h
    obtain ⟨s₁,h₁,h⟩ := Failure.bind_ok h
    simp only [Expr.isCounted,Bool.and_eq_true]
    exact ⟨ihl h₁,(behind h).elim fun _ => ihr⟩

/-- The pools are no larger than the code: each instruction adds at most one entry. -/
structure Small (s : Emitter) : Prop where
  constants : s.constants.size ≤ s.code.size
  methods : s.methods.size ≤ s.code.size

theorem operand16_of_lt {n : Nat} {message : String} (h : n < 0x10000) :
    operand16 n message=.ok (.ofNat n) := if_pos h

theorem operand32_of_lt {n : Nat} {message : String} (h : n < 2^32) :
    operand32 n message=.ok (.ofNat n) := if_pos h

theorem Small.push {s : Emitter} (h : s.Small) (i : Instr) : (s.push i).Small := by
  have hc := h.constants
  have hm := h.methods
  constructor <;> simp only [Emitter.push,Array.size_push] <;> omega

theorem Small.pushStore {s : Emitter} (h : s.Small) (index : UInt16) : (s.pushStore index).Small :=
  ⟨(h.push (.storeLocal index)).constants,(h.push (.storeLocal index)).methods⟩

theorem Small.pushConst {s : Emitter} (h : s.Small) (slot : Slot) (hs : s.code.size+1 < 2^32) :
    ∃ s', s.pushConst slot=.ok s' ∧ s'.Small := by
  have hc := h.constants
  have hm := h.methods
  unfold Emitter.pushConst
  split
  · next n hn =>
    have hlt := (Array.findIdx?_eq_some_iff_getElem.mp hn).1
    rw [operand32_of_lt (by omega)]
    exact ⟨_,rfl,h.push _⟩
  · rw [operand32_of_lt (by omega)]
    refine ⟨_,rfl,?_⟩
    constructor <;> simp only [Array.size_push] <;> omega

theorem Small.pushInvoke {s : Emitter} (h : s.Small) (m : Method) (count : UInt16)
    (hs : s.code.size+1 < 2^32) : ∃ s', s.pushInvoke m count=.ok s' ∧ s'.Small := by
  have hc := h.constants
  have hm := h.methods
  unfold Emitter.pushInvoke
  split
  · next n hn =>
    have hlt := (Array.findIdx?_eq_some_iff_getElem.mp hn).1
    rw [operand32_of_lt (by omega)]
    exact ⟨_,rfl,h.push _⟩
  · rw [operand32_of_lt (by omega)]
    refine ⟨_,rfl,?_⟩
    constructor <;> simp only [Array.size_push] <;> omega

theorem Small.emitAll {es : List Expr}
    (ih : ∀ e∈es, ∀ s : Emitter, s.Small → s.code.size+e.codeSize < 2^32 → ∃ s', s.emit e=.ok s' ∧ s'.Small)
    {s : Emitter} (h : s.Small) (hs : s.code.size+Expr.codeSizes es < 2^32) :
    ∃ s', s.emitAll es=.ok s' ∧ s'.Small := by
  induction es generalizing s with
  | nil => exact ⟨s,rfl,h⟩
  | cons e es ihs =>
    rw [Expr.codeSizes] at hs
    obtain ⟨s₁,h₁,small⟩ := ih e (by simp) s h (by omega)
    have size := (emit_emits e h₁).size
    obtain ⟨s₂,h₂,small⟩ := ihs (fun e he => ih e (by simp [he])) small (by omega)
    exact ⟨s₂,by rw [Emitter.emitAll,h₁]; exact h₂,small⟩

/-- A tree that can be counted is emitted, if its code leaves all places within reach of a jump. -/
theorem Small.emit (e : Expr) (he : e.isCounted) {s : Emitter} (h : s.Small)
    (hs : s.code.size+e.codeSize < 2^32) : ∃ s', s.emit e=.ok s' ∧ s'.Small := by
  -- one instruction behind a tree
  have behind {e : Expr} {s : Emitter} (i : Instr) (h : ∃ s', s.emit e=.ok s' ∧ s'.Small) :
      ∃ s', (do return (← s.emit e).push i : Except LowerError Emitter)=.ok s' ∧ s'.Small := by
    obtain ⟨s',h,small⟩ := h
    exact ⟨s'.push i,by rw [h]; rfl,small.push i⟩
  induction e generalizing s with
  | const slot => exact h.pushConst slot hs
  | arg index rep => exact ⟨_,rfl,h.push _⟩
  | readLocal index rep => exact ⟨_,rfl,h.push _⟩
  | invoke m es ih =>
    simp only [Expr.isCounted,Bool.and_eq_true,decide_eq_true_eq,Expr.areCounted_iff] at he
    rw [Expr.codeSize] at hs
    obtain ⟨s₁,h₁,small⟩ := h.emitAll (fun e hm s h hs => ih e hm (he.2 e hm) h hs) (by omega)
    have size := (emitAll_emits (fun e _ s s' => emit_emits e) h₁).size
    obtain ⟨s₂,h₂,small⟩ := small.pushInvoke m (.ofNat es.length) (by omega)
    refine ⟨s₂,?_,small⟩
    rw [Emitter.emit,h₁,operand16_of_lt he.1]
    exact h₂
  | list es ih =>
    simp only [Expr.isCounted,Bool.and_eq_true,decide_eq_true_eq,Expr.areCounted_iff] at he
    rw [Expr.codeSize] at hs
    obtain ⟨s₁,h₁,small⟩ := h.emitAll (fun e hm s h hs => ih e hm (he.2 e hm) h hs) (by omega)
    refine ⟨_,?_,small.push (.newList (.ofNat es.length))⟩
    rw [Emitter.emit,h₁,operand16_of_lt he.1]
    rfl
  | convert e target ih => exact behind _ (ih he h (by rw [Expr.codeSize] at hs; omega))
  | box e ih => exact behind _ (ih he h (by rw [Expr.codeSize] at hs; omega))
  | unbox e target ih => exact behind _ (ih he h (by rw [Expr.codeSize] at hs; omega))
  | isNull e ih => exact behind _ (ih he h (by rw [Expr.codeSize] at hs; omega))
  | not e ih => exact behind _ (ih he h (by rw [Expr.codeSize] at hs; omega))
  | bind index value body ihv ihb =>
    simp only [Expr.isCounted,Bool.and_eq_true] at he
    rw [Expr.codeSize] at hs
    obtain ⟨s₁,h₁,small⟩ := ihv he.1 h (by omega)
    have size := (emit_emits value h₁).size
    have size' := (pushStore_emits s₁ index).size
    obtain ⟨s₂,h₂,small⟩ := ihb he.2 (small.pushStore index) (by omega)
    exact ⟨s₂,by rw [Emitter.emit,h₁]; exact h₂,small⟩
  | select c t f ihc iht ihf =>
    simp only [Expr.isCounted,Bool.and_eq_true,decide_eq_true_eq] at he
    obtain ⟨⟨⟨hrep,hc⟩,ht⟩,hf⟩ := he
    rw [Expr.codeSize] at hs
    obtain ⟨s₁,h₁,small⟩ := ihc hc h (by omega)
    have size₁ := (emit_emits c h₁).size
    let jump := Instr.jumpIfFalse (.ofNat (s₁.code.size+1+t.codeSize+1))
    have size₁' : (s₁.push jump).code.size=s₁.code.size+1 := Array.size_push _
    obtain ⟨s₂,h₂,small⟩ := iht ht (small.push jump) (by omega)
    have size₂ := (emit_emits t h₂).size
    let skip := Instr.jump (.ofNat (s₁.code.size+1+t.codeSize+1+f.codeSize))
    have size₂' : (s₂.push skip).code.size=s₂.code.size+1 := Array.size_push _
    obtain ⟨s₃,h₃,small⟩ := ihf hf (small.push skip) (by omega)
    refine ⟨s₃,?_,small⟩
    rw [Emitter.emit,if_neg (not_not.mpr hrep),h₁]
    change (s₁.push jump).emit t >>= _=_
    rw [h₂,operand32_of_lt (by omega)]
    change (s₂.push skip).emit f >>= _=_
    rw [h₃,operand32_of_lt (by omega)]
    rfl
  | compare k lhs rhs ihl ihr =>
    simp only [Expr.isCounted,Bool.and_eq_true] at he
    rw [Expr.codeSize] at hs
    obtain ⟨s₁,h₁,small⟩ := ihl he.1 h (by omega)
    have size := (emit_emits lhs h₁).size
    rw [Emitter.emit,h₁]
    exact behind (.compare k) (ihr he.2 small (by omega))

theorem empty_small : empty.Small := ⟨Nat.le_refl _,Nat.le_refl _⟩

theorem emit_of_isCounted {e : Expr} (he : e.isCounted) (hs : e.codeSize < 2^32) : ∃ c, e.emit=.ok c := by
  obtain ⟨s,h,-⟩ := Small.emit e he empty_small (by simpa [empty] using hs)
  exact ⟨_,by rw [Expr.emit,h]; rfl⟩

theorem emit_of_isPlain {e : Expr} (he : e.isPlain) (hs : e.codeSize < 2^32) : ∃ c, e.emit=.ok c :=
  emit_of_isCounted (Expr.isCounted_of_isPlain e he) hs

end Emitter

end CallLowering
