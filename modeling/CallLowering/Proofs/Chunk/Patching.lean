import CallLowering.Proofs.Chunk.Layout

namespace CallLowering

namespace Emitter

/-- Replaces an instruction that was emitted before. -/
def patch (s : Emitter) (place : Nat) (i : Instr) : Emitter := {s with code := s.code.setIfInBounds place i}

/-- The place of the next instruction, as the target of a jump. -/
def here (s : Emitter) : Except LowerError UInt32 := operand32 s.code.size "chunk too large"

mutual

/-- Adds the code of a tree, where `mark` stands for every jump until its target is known. -/
def emitPatching (s : Emitter) (mark : Instr) : Expr → Except LowerError Emitter
  | .const slot => s.pushConst slot
  | .arg index _ => .ok (s.push (.loadArg index))
  | .readLocal index _ => .ok (s.push (.loadLocal index))
  | .invoke m args => do
      let s ← s.emitAllPatching mark args
      s.pushInvoke m (← operand16 args.length "too many call arguments")
  | .convert e target => do return (← s.emitPatching mark e).push (.convert target)
  | .box e => do return (← s.emitPatching mark e).push .box
  | .unbox e target => do return (← s.emitPatching mark e).push (.unbox target)
  | .list items => do
      let s ← s.emitAllPatching mark items
      return s.push (.newList (← operand16 items.length "list literal too long"))
  | .bind index value body => do
      let s ← s.emitPatching mark value
      (s.pushStore index).emitPatching mark body
  | .select c t f => do
      if t.rep≠f.rep then
        throw (.internal ("select branches disagree: "++t.rep.text++" vs "++f.rep.text))
      let s ← s.emitPatching mark c
      let toOtherwise := s.code.size
      let s ← (s.push mark).emitPatching mark t
      let toEnd := s.code.size
      let s := s.push mark
      let otherwise ← s.here
      let s ← (s.patch toOtherwise (.jumpIfFalse otherwise)).emitPatching mark f
      let done ← s.here
      return s.patch toEnd (.jump done)
  | .compare c lhs rhs => do
      let s ← s.emitPatching mark lhs
      let s ← s.emitPatching mark rhs
      return s.push (.compare c)
  | .isNull e => do return (← s.emitPatching mark e).push .isNull
  | .not e => do return (← s.emitPatching mark e).push .not

def emitAllPatching (s : Emitter) (mark : Instr) : List Expr → Except LowerError Emitter
  | [] => .ok s
  | e::es =>
      match s.emitPatching mark e with
      | .ok s => s.emitAllPatching mark es
      | .error e => .error e

end

end Emitter

/-- The chunk of a tree, with jumps written when their targets are known. -/
def Expr.emitPatching (mark : Instr) (e : Expr) : Except LowerError Chunk := do
  let s ← Emitter.empty.emitPatching mark e
  return ⟨s.code,s.constants,s.methods,s.maxLocals,e.rep⟩

namespace Emitter

variable {s s' : Emitter} {place : Nat}

theorem setIfInBounds_push {code : Array Instr} (h : place < code.size) (i j : Instr) :
    (code.setIfInBounds place i).push j=(code.push j).setIfInBounds place i := by
  apply Array.ext_getElem?
  intro n
  rw [Array.getElem?_push,Array.getElem?_setIfInBounds,Array.getElem?_setIfInBounds,Array.getElem?_push,
    Array.size_setIfInBounds,Array.size_push]
  split <;> split <;> simp_all; omega

theorem patch_push (h : place < s.code.size) (i j : Instr) :
    (s.patch place i).push j=(s.push j).patch place i := by
  rw [push,patch,patch,push,setIfInBounds_push h]

theorem size_patch (s : Emitter) (place : Nat) (i : Instr) :
    (s.patch place i).code.size=s.code.size := Array.size_setIfInBounds

/-- The instruction that was emitted last is replaced. -/
theorem push_patch (s : Emitter) (i j : Instr) : (s.push i).patch s.code.size j=s.push j := by
  rw [push,patch,push]
  congr 1
  apply Array.ext_getElem?
  intro n
  rw [Array.getElem?_setIfInBounds,Array.getElem?_push,Array.getElem?_push,Array.size_push]
  by_cases hn : s.code.size=n
  · rw [if_pos hn,if_pos (by omega),if_pos hn.symm]
  · rw [if_neg hn,if_neg (Ne.symm hn),if_neg (Ne.symm hn)]

theorem patch_pushConst (h : place < s.code.size) (i : Instr) (slot : Slot) :
    (s.patch place i).pushConst slot=(fun s => s.patch place i) <$> s.pushConst slot := by
  rw [pushConst,pushConst,show (s.patch place i).constants=s.constants from rfl]
  split
  · rw [map_bind]
    refine bind_congr fun n => ?_
    exact congrArg Except.ok (patch_push h i _)
  · rw [map_bind]
    refine bind_congr fun n => ?_
    apply congrArg Except.ok
    simp only [patch,setIfInBounds_push h]

theorem patch_pushInvoke (h : place < s.code.size) (i : Instr) (m : Method) (count : UInt16) :
    (s.patch place i).pushInvoke m count=(fun s => s.patch place i) <$> s.pushInvoke m count := by
  rw [pushInvoke,pushInvoke,show (s.patch place i).methods=s.methods from rfl]
  split
  · rw [map_bind]
    refine bind_congr fun n => ?_
    exact congrArg Except.ok (patch_push h i _)
  · rw [map_bind]
    refine bind_congr fun n => ?_
    apply congrArg Except.ok
    simp only [patch,setIfInBounds_push h]

theorem patch_pushStore (h : place < s.code.size) (i : Instr) (index : UInt16) :
    (s.patch place i).pushStore index=(s.pushStore index).patch place i := by
  rw [pushStore,pushStore,patch,patch,setIfInBounds_push h]

theorem size_le_of_emit {e : Expr} (h : s.emit e=.ok s') : s.code.size ≤ s'.code.size := by
  rw [(emit_emits e h).size]
  omega

theorem emit_push_patch {e : Expr} {i j : Instr} (h : place < s.code.size)
    (ih : (s.patch place i).emit e=(fun s => s.patch place i) <$> s.emit e) :
    ((s.patch place i).emit e >>= fun s => pure (s.push j))=
      (fun s => s.patch place i) <$> (s.emit e >>= fun s => pure (s.push j)) := by
  rw [ih,bind_map_left,map_bind]
  apply Failure.bind_congr
  intro s₁ h₁
  rw [map_pure,patch_push (Nat.lt_of_lt_of_le h (size_le_of_emit h₁))]

theorem emitAll_patch {es : List Expr} (i : Instr)
    (ih : ∀ e∈es, ∀ s : Emitter, place < s.code.size →
      (s.patch place i).emit e=(fun s => s.patch place i) <$> s.emit e) (h : place < s.code.size) :
    (s.patch place i).emitAll es=(fun s => s.patch place i) <$> s.emitAll es := by
  induction es generalizing s with
  | nil => rfl
  | cons e es ihs =>
    rw [emitAll,emitAll,ih e (by simp) s h]
    cases h₁ : s.emit e with
    | error e => rfl
    | ok s₁ => exact ihs (fun e he => ih e (by simp [he])) (Nat.lt_of_lt_of_le h (size_le_of_emit h₁))

/-- Emitting a tree and replacing an instruction before it may change places. -/
theorem emit_patch (e : Expr) (i : Instr) (h : place < s.code.size) :
    (s.patch place i).emit e=(fun s => s.patch place i) <$> s.emit e := by
  induction e generalizing s with
  | const slot => simpa only [emit] using patch_pushConst h i slot
  | arg index rep => exact congrArg Except.ok (patch_push h i _)
  | readLocal index rep => exact congrArg Except.ok (patch_push h i _)
  | invoke m es ih =>
    rw [emit,emit,emitAll_patch i (fun e he s => ih e he) h,bind_map_left,map_bind]
    apply Failure.bind_congr
    intro s₁ h₁
    have hs := (emitAll_emits (fun e _ s s' => emit_emits e) h₁).size
    rw [map_bind]
    refine bind_congr fun k => ?_
    exact patch_pushInvoke (by omega) i m k
  | list es ih =>
    rw [emit,emit,emitAll_patch i (fun e he s => ih e he) h,bind_map_left,map_bind]
    apply Failure.bind_congr
    intro s₁ h₁
    have hs := (emitAll_emits (fun e _ s s' => emit_emits e) h₁).size
    rw [map_bind]
    refine bind_congr fun k => ?_
    rw [map_pure,patch_push (by omega)]
  | convert e target ih =>
    rw [emit,emit]
    exact emit_push_patch h (ih h)
  | box e ih =>
    rw [emit,emit]
    exact emit_push_patch h (ih h)
  | unbox e target ih =>
    rw [emit,emit]
    exact emit_push_patch h (ih h)
  | isNull e ih =>
    rw [emit,emit]
    exact emit_push_patch h (ih h)
  | not e ih =>
    rw [emit,emit]
    exact emit_push_patch h (ih h)
  | bind index value body ihv ihb =>
    rw [emit,emit,ihv h,bind_map_left,map_bind]
    apply Failure.bind_congr
    intro s₁ h₁
    have hs := size_le_of_emit h₁
    have hstore := (pushStore_emits s₁ index).size
    rw [patch_pushStore (by omega),ihb (by omega)]
  | select c t f ihc iht ihf =>
    rw [emit,emit]
    split
    · rfl
    simp only [ihc h,bind_map_left,map_bind]
    apply Failure.bind_congr
    intro s₁ h₁
    have hc := size_le_of_emit h₁
    rw [size_patch,patch_push (by omega),iht (by simp only [push,Array.size_push]; omega),bind_map_left]
    apply Failure.bind_congr
    intro s₂ h₂
    have ht := size_le_of_emit h₂
    simp only [push,Array.size_push] at ht
    refine bind_congr fun _ => ?_
    rw [patch_push (by omega),ihf (by simp only [push,Array.size_push]; omega),bind_map_left]
    rfl
  | compare k lhs rhs ihl ihr =>
    rw [emit,emit,ihl h,bind_map_left,map_bind]
    apply Failure.bind_congr
    intro s₁ h₁
    have hl := size_le_of_emit h₁
    exact emit_push_patch (by omega) (ihr (by omega))

theorem emitAllPatching_eq {mark : Instr} {es : List Expr}
    (ih : ∀ e∈es, ∀ s : Emitter, s.emitPatching mark e=s.emit e) :
    s.emitAllPatching mark es=s.emitAll es := by
  induction es generalizing s with
  | nil => rfl
  | cons e es ihs =>
    rw [emitAllPatching,emitAll,ih e (by simp) s]
    cases s.emit e with
    | error e => rfl
    | ok s => exact ihs fun e he => ih e (by simp [he])

/-- Whatever marks the open jumps, no mark is left in the code. -/
theorem emitPatching_eq (mark : Instr) (e : Expr) : s.emitPatching mark e=s.emit e := by
  induction e generalizing s with
  | const slot => rfl
  | arg index rep => rfl
  | readLocal index rep => rfl
  | invoke m es ih => rw [emitPatching,emit,emitAllPatching_eq fun e he s => ih e he]
  | list es ih => rw [emitPatching,emit,emitAllPatching_eq fun e he s => ih e he]
  | convert e target ih => rw [emitPatching,emit,ih]
  | box e ih => rw [emitPatching,emit,ih]
  | unbox e target ih => rw [emitPatching,emit,ih]
  | isNull e ih => rw [emitPatching,emit,ih]
  | not e ih => rw [emitPatching,emit,ih]
  | bind index value body ihv ihb => simp only [emitPatching,emit,ihv,ihb]
  | compare k lhs rhs ihl ihr => simp only [emitPatching,emit,ihl,ihr]
  | select c t f ihc iht ihf =>
    rw [emitPatching,emit]
    split
    · rfl
    simp only [ihc,iht,ihf]
    refine bind_congr fun s₁ => ?_
    -- the jump of the condition is written at once, or over its mark
    rw [←push_patch s₁ mark (.jumpIfFalse _),emit_patch t _ (by simp [push]),bind_map_left]
    apply Failure.bind_congr
    intro s₂ h₂
    have ht := (emit_emits t h₂).size
    simp only [push,Array.size_push] at ht
    rw [here,←ht,show (s₂.push mark).code.size=s₂.code.size+1 from Array.size_push _]
    apply Failure.bind_congr
    intro otherwise ho
    obtain rfl := (operand32_ok ho).2
    -- so is the jump over the second branch
    rw [←patch_push (by omega),←push_patch _ mark (.jump _),emit_patch f _ (by simp [push]),bind_map_left]
    apply Failure.bind_congr
    intro s₃ h₃
    have hf := (emit_emits f h₃).size
    simp only [push,Array.size_push,size_patch] at hf
    rw [here,←hf,size_patch]
    apply Failure.bind_congr
    intro done hd
    obtain rfl := (operand32_ok hd).2
    rfl

end Emitter

end CallLowering
