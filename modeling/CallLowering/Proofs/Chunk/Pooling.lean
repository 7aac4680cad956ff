import CallLowering.Proofs.Machine.Calls
import CallLowering.Proofs.Value.Canonical
import Mathlib

namespace CallLowering

namespace Expr

mutual

/-- The subtrees of a tree, each with the place where its code begins, if that of the tree begins at this
one. -/
def nodes (place : Nat) : Expr → List (Nat × Expr)
  | const slot => [(place,const slot)]
  | arg index rep => [(place,arg index rep)]
  | readLocal index rep => [(place,readLocal index rep)]
  | invoke m es => (place,invoke m es)::nodesOf place es
  | convert e target => (place,convert e target)::e.nodes place
  | box e => (place,box e)::e.nodes place
  | unbox e target => (place,unbox e target)::e.nodes place
  | list es => (place,list es)::nodesOf place es
  | bind index value body =>
      (place,bind index value body)::(value.nodes place++body.nodes (place+value.codeSize+1))
  | select c t f => (place,select c t f)::(c.nodes place++t.nodes (place+c.codeSize+1)++
      f.nodes (place+c.codeSize+1+t.codeSize+1))
  | compare k lhs rhs => (place,compare k lhs rhs)::(lhs.nodes place++rhs.nodes (place+lhs.codeSize))
  | isNull e => (place,isNull e)::e.nodes place
  | not e => (place,not e)::e.nodes place

def nodesOf (place : Nat) : List Expr → List (Nat × Expr)
  | [] => []
  | e::es => e.nodes place++nodesOf (place+e.codeSize) es

end

/-- The slot of a constant. -/
def slot? : Expr → Option Slot
  | const slot => some slot
  | _ => none

/-- The first constant of a tree that equals this one. -/
def shared (e : Expr) (slot : Slot) : Slot := (e.constants.find? fun k => k.equals slot).getD slot

end Expr

namespace Emitter

variable {s s' s'' : Emitter}

/-- Does a constant find in the pool what it found before, or else among the ones added? -/
def Pools (s s' : Emitter) (added : List Slot) : Prop :=
  ∀ slot : Slot, (s'.constants.find? fun k => k.equals slot)=
    (s.constants.find? fun k => k.equals slot).or (added.find? fun k => k.equals slot)

theorem Pools.of_eq (h : s'.constants=s.constants) : s.Pools s' [] := by
  intro slot
  rw [h,List.find?_nil,Option.or_none]

theorem Pools.append {added added' : List Slot} (h : s.Pools s' added) (h' : s'.Pools s'' added') :
    s.Pools s'' (added++added') := by
  intro slot
  rw [h' slot,h slot,Option.or_assoc,List.find?_append]

theorem Pools.push {added : List Slot} (h : s.Pools s' added) (i : Instr) : s.Pools (s'.push i) added := h

/-- A constant whose equal is in the pool is not found by others before that equal is. -/
theorem pushConst_pools {slot : Slot} (h : s.pushConst slot=.ok s') : s.Pools s' [slot] := by
  unfold pushConst at h
  split at h
  · next n hn =>
    obtain ⟨n,-,hs⟩ := Failure.bind_ok h
    cases hs
    obtain ⟨hlt,heq,-⟩ := Array.findIdx?_eq_some_iff_getElem.mp hn
    intro x
    cases hx : s.constants.find? fun k => k.equals x with
    | some k => simp [push,hx]
    | none =>
      have apart : ¬slot.equals x := fun hsx =>
        Array.find?_eq_none.mp hx _ (Array.getElem_mem hlt) (Slot.equals_trans heq hsx)
      simp [push,hx,apart]
  · obtain ⟨n,-,hs⟩ := Failure.bind_ok h
    cases hs
    intro x
    rw [Array.find?_push,List.find?_singleton]

theorem pushInvoke_pools {m : Method} {count : UInt16} (h : s.pushInvoke m count=.ok s') : s.Pools s' [] := by
  unfold pushInvoke at h
  split at h
  · obtain ⟨n,-,hs⟩ := Failure.bind_ok h
    cases hs
    exact .of_eq rfl
  · obtain ⟨n,-,hs⟩ := Failure.bind_ok h
    cases hs
    exact .of_eq rfl

theorem emitAll_pools {es : List Expr} (ih : ∀ e∈es, ∀ s s' : Emitter, s.emit e=.ok s' → s.Pools s' e.constants)
    (h : s.emitAll es=.ok s') : s.Pools s' (Expr.constantsOf es) := by
  induction es generalizing s with
  | nil =>
    cases h
    exact .of_eq rfl
  | cons e es ihs =>
    rw [emitAll] at h
    split at h
    · next s₁ h₁ => exact (ih e (by simp) s s₁ h₁).append (ihs (fun e he => ih e (by simp [he])) h)
    · cases h

theorem emit_pools (e : Expr) (h : s.emit e=.ok s') : s.Pools s' e.constants := by
  induction e generalizing s s' with
  | const slot => exact pushConst_pools (by simpa only [emit] using h)
  | arg index rep =>
    cases h
    exact .of_eq rfl
  | readLocal index rep =>
    cases h
    exact .of_eq rfl
  | invoke m es ih =>
    rw [emit] at h
    obtain ⟨s₁,h₁,h⟩ := Failure.bind_ok h
    obtain ⟨k,-,h⟩ := Failure.bind_ok h
    simpa [Expr.constants] using (emitAll_pools (fun e he s s' => ih e he) h₁).append (pushInvoke_pools h)
  | list es ih =>
    rw [emit] at h
    obtain ⟨s₁,h₁,h⟩ := Failure.bind_ok h
    obtain ⟨k,-,h⟩ := Failure.bind_ok h
    cases h
    exact (emitAll_pools (fun e he s s' => ih e he) h₁).push _
  | convert e target ih =>
    obtain ⟨s₁,h₁,h⟩ := Failure.bind_ok h
    cases h
    exact (ih h₁).push _
  | box e ih =>
    obtain ⟨s₁,h₁,h⟩ := Failure.bind_ok h
    cases h
    exact (ih h₁).push _
  | unbox e target ih =>
    obtain ⟨s₁,h₁,h⟩ := Failure.bind_ok h
    cases h
    exact (ih h₁).push _
  | isNull e ih =>
    obtain ⟨s₁,h₁,h⟩ := Failure.bind_ok h
    cases h
    exact (ih h₁).push _
  | not e ih =>
    obtain ⟨s₁,h₁,h⟩ := Failure.bind_ok h
    cases h
    exact (ih h₁).push _
  | bind index value body ihv ihb =>
    rw [emit] at h
    obtain ⟨s₁,h₁,h⟩ := Failure.bind_ok h
    have store : s₁.Pools (s₁.pushStore index) [] := .of_eq rfl
    exact (ihv h₁).append (store.append (ihb h))
  | select c t f ihc iht ihf =>
    rw [emit] at h
    split at h
    · cases h
    obtain ⟨s₁,h₁,h⟩ := Failure.bind_ok h
    obtain ⟨s₂,h₂,h⟩ := Failure.bind_ok h
    obtain ⟨otherwise,-,h⟩ := Failure.bind_ok h
    obtain ⟨s₃,h₃,h⟩ := Failure.bind_ok h
    obtain ⟨done,-,h⟩ := Failure.bind_ok h
    cases h
    exact (((ihc h₁).push _).append ((iht h₂).push _)).append (ihf h₃)
  | compare k lhs rhs ihl ihr =>
    rw [emit] at h
    obtain ⟨s₁,h₁,h⟩ := Failure.bind_ok h
    obtain ⟨s₂,h₂,h⟩ := Failure.bind_ok h
    cases h
    exact ((ihl h₁).append (ihr h₂)).push _

end Emitter

variable {c : Chunk}

namespace Chunk

theorem contains_of_mem_nodesOf {es : List Expr} {place : Nat} {n : Nat × Expr}
    (ih : ∀ e∈es, ∀ place, n∈e.nodes place → c.Contains place e → c.Contains n.1 n.2)
    (hn : n∈Expr.nodesOf place es) (h : c.ContainsAll place es) : c.Contains n.1 n.2 := by
  induction es generalizing place with
  | nil => cases hn
  | cons e es ihs =>
    rcases List.mem_append.mp hn with hn|hn
    · exact ih e (by simp) place hn h.1
    · exact ihs (fun e he => ih e (by simp [he])) hn h.2

/-- Where the code of a tree stands, the code of each part stands at its place. -/
theorem contains_of_mem_nodes (e : Expr) {place : Nat} {n : Nat × Expr} (hn : n∈e.nodes place)
    (h : c.Contains place e) : c.Contains n.1 n.2 := by
  induction e generalizing place with
  | const slot => exact List.mem_singleton.mp hn ▸ h
  | arg index rep => exact List.mem_singleton.mp hn ▸ h
  | readLocal index rep => exact List.mem_singleton.mp hn ▸ h
  | invoke m es ih =>
    obtain rfl|hn := List.mem_cons.mp hn
    · exact h
    · exact contains_of_mem_nodesOf (fun e he place => ih e he) hn h.1
  | list es ih =>
    obtain rfl|hn := List.mem_cons.mp hn
    · exact h
    · exact contains_of_mem_nodesOf (fun e he place => ih e he) hn h.1
  | convert e target ih =>
    obtain rfl|hn := List.mem_cons.mp hn
    · exact h
    · exact ih hn h.1
  | box e ih =>
    obtain rfl|hn := List.mem_cons.mp hn
    · exact h
    · exact ih hn h.1
  | unbox e target ih =>
    obtain rfl|hn := List.mem_cons.mp hn
    · exact h
    · exact ih hn h.1
  | isNull e ih =>
    obtain rfl|hn := List.mem_cons.mp hn
    · exact h
    · exact ih hn h.1
  | not e ih =>
    obtain rfl|hn := List.mem_cons.mp hn
    · exact h
    · exact ih hn h.1
  | bind index value body ihv ihb =>
    simp only [Expr.nodes,List.mem_cons,List.mem_append] at hn
    obtain rfl|hn|hn := hn
    · exact h
    · exact ihv hn h.1
    · exact ihb hn h.2.2
  | select e t f ihe iht ihf =>
    simp only [Expr.nodes,List.mem_cons,List.mem_append] at hn
    obtain ⟨he,-,ht,-,hf⟩ := id h
    obtain rfl|(hn|hn)|hn := hn
    · exact h
    · exact ihe hn he
    · exact iht hn ht
    · exact ihf hn hf
  | compare k lhs rhs ihl ihr =>
    simp only [Expr.nodes,List.mem_cons,List.mem_append] at hn
    obtain rfl|hn|hn := hn
    · exact h
    · exact ihl hn h.1
    · exact ihr hn h.2.1

end Chunk

namespace Expr

open Machine

theorem filterMap_nodesOf {es : List Expr} {place : Nat}
    (ih : ∀ e∈es, ∀ place, (e.nodes place).filterMap (fun n => n.2.slot?)=e.constants) :
    (nodesOf place es).filterMap (fun n => n.2.slot?)=constantsOf es := by
  induction es generalizing place with
  | nil => rfl
  | cons e es ihs =>
    rw [nodesOf,List.filterMap_append,ih e (by simp) place,ihs fun e he => ih e (by simp [he])]
    rfl

/-- The constants of a tree are the slots of its parts that are constants. -/
theorem filterMap_nodes (e : Expr) (place : Nat) :
    (e.nodes place).filterMap (fun n => n.2.slot?)=e.constants := by
  induction e generalizing place with
  | invoke m es ih => exact filterMap_nodesOf ih
  | list es ih => exact filterMap_nodesOf ih
  | bind index value body ihv ihb =>
    rw [nodes,List.filterMap_cons_none rfl,List.filterMap_append,ihv,ihb,constants]
  | select c t f ihc iht ihf =>
    rw [nodes,List.filterMap_cons_none rfl,List.filterMap_append,List.filterMap_append,ihc,iht,ihf,constants]
  | compare k lhs rhs ihl ihr =>
    rw [nodes,List.filterMap_cons_none rfl,List.filterMap_append,ihl,ihr,constants]
  | convert e target ih => exact ih place
  | box e ih => exact ih place
  | unbox e target ih => exact ih place
  | isNull e ih => exact ih place
  | not e ih => exact ih place
  | _ => rfl

theorem mem_constants_iff (e : Expr) (slot : Slot) (place : Nat) :
    slot∈e.constants ↔ ∃ p, (p,const slot)∈e.nodes place := by
  rw [←e.filterMap_nodes place,List.mem_filterMap]
  constructor
  · rintro ⟨⟨p,n⟩,hn,hs⟩
    cases n with
    | const k => exact ⟨p,Option.some.inj hs ▸ hn⟩
    | _ => cases hs
  · rintro ⟨p,hp⟩
    exact ⟨_,hp,rfl⟩

/-- A part of a tree has no constants and binds no locals but those of the tree. -/
theorem subset_of_mem_nodes (e : Expr) {place : Nat} {n : Nat × Expr} (hn : n∈e.nodes place) :
    n.2.constants⊆e.constants ∧ n.2.bound⊆e.bound := by
  have all {es : List Expr} {place : Nat} (hn : n∈nodesOf place es)
      (ih : ∀ e∈es, ∀ {place}, n∈e.nodes place → n.2.constants⊆e.constants ∧ n.2.bound⊆e.bound) :
      n.2.constants⊆constantsOf es ∧ n.2.bound⊆boundIn es := by
    induction es generalizing place with
    | nil => cases hn
    | cons e es ihs =>
      obtain hn|hn := List.mem_append.mp hn
      · obtain ⟨constants,bound⟩ := ih e (by simp) hn
        exact ⟨List.subset_append_of_subset_left _ constants,List.subset_append_of_subset_left _ bound⟩
      · obtain ⟨constants,bound⟩ := ihs hn fun e he => ih e (by simp [he])
        exact ⟨List.subset_append_of_subset_right _ constants,List.subset_append_of_subset_right _ bound⟩
  have whole (e : Expr) : e.constants⊆e.constants ∧ e.bound⊆e.bound := ⟨List.Subset.refl _,List.Subset.refl _⟩
  have within {part whole : Expr} (h : n.2.constants⊆part.constants ∧ n.2.bound⊆part.bound)
      (hc : part.constants⊆whole.constants) (hb : part.bound⊆whole.bound) :
      n.2.constants⊆whole.constants ∧ n.2.bound⊆whole.bound := ⟨List.Subset.trans h.1 hc,List.Subset.trans h.2 hb⟩
  induction e generalizing place with
  | const slot => exact List.mem_singleton.mp hn ▸ whole _
  | arg index rep => exact List.mem_singleton.mp hn ▸ whole _
  | readLocal index rep => exact List.mem_singleton.mp hn ▸ whole _
  | invoke m es ih =>
    obtain rfl|hn := List.mem_cons.mp hn
    · exact whole _
    · exact all hn fun e he => ih e he
  | list es ih =>
    obtain rfl|hn := List.mem_cons.mp hn
    · exact whole _
    · exact all hn fun e he => ih e he
  | convert e target ih =>
    obtain rfl|hn := List.mem_cons.mp hn
    · exact whole _
    · exact ih hn
  | box e ih =>
    obtain rfl|hn := List.mem_cons.mp hn
    · exact whole _
    · exact ih hn
  | unbox e target ih =>
    obtain rfl|hn := List.mem_cons.mp hn
    · exact whole _
    · exact ih hn
  | isNull e ih =>
    obtain rfl|hn := List.mem_cons.mp hn
    · exact whole _
    · exact ih hn
  | not e ih =>
    obtain rfl|hn := List.mem_cons.mp hn
    · exact whole _
    · exact ih hn
  | bind index value body ihv ihb =>
    simp only [nodes,List.mem_cons,List.mem_append] at hn
    obtain rfl|hn|hn := hn
    · exact whole _
    · exact within (ihv hn) (by simp [constants]) (by simp [bound])
    · exact within (ihb hn) (by simp [constants]) (by simp [bound])
  | select c t f ihc iht ihf =>
    simp only [nodes,List.mem_cons,List.mem_append] at hn
    obtain rfl|(hn|hn)|hn := hn
    · exact whole _
    · exact within (ihc hn) (by simp [constants]) (by simp [bound])
    · exact within (iht hn) (by simp [constants]) (by simp [bound])
    · exact within (ihf hn) (by simp [constants]) (by simp [bound])
  | compare k lhs rhs ihl ihr =>
    simp only [nodes,List.mem_cons,List.mem_append] at hn
    obtain rfl|hn|hn := hn
    · exact whole _
    · exact within (ihl hn) (by simp [constants]) (by simp [bound])
    · exact within (ihr hn) (by simp [constants]) (by simp [bound])

/-- A constant of the tree finds in the pool the first of the tree that equals it. -/
theorem pooled_eq_shared {e : Expr} (h : e.emit=.ok c) (slot : Slot) : c.pooled slot=e.shared slot := by
  obtain ⟨s,hs,rfl⟩ := emit_ok h
  have pools := Emitter.emit_pools e hs slot
  rw [show Emitter.empty.constants=#[] from rfl,Array.find?_empty,Option.none_or] at pools
  rw [Chunk.pooled,shared,pools]

theorem executeAll_consts {σ : Type} (host : Host σ) (args : List Slot) (pool : Slot → Slot)
    (slots : List Slot) (locals : Locals) :
    executeAll host args pool (slots.map const) locals=pure (slots.map pool,locals) := by
  induction slots with
  | nil => rfl
  | cons slot slots ih => simp only [List.map_cons,executeAll,execute,ih,pure_bind]

theorem codeSizes_consts (slots : List Slot) : codeSizes (slots.map const)=slots.length := by
  induction slots with
  | nil => rfl
  | cons slot slots ih =>
    rw [List.map_cons,codeSizes,codeSize,ih,List.length_cons,Nat.add_comm]

/-- Equal constants share the first of them. -/
theorem shared_congr {e : Expr} {a b : Slot} (h : a.equals b) (hb : b∈e.constants) : e.shared a=e.shared b := by
  have same : (fun k : Slot => k.equals a)=fun k => k.equals b := funext (Slot.equals_right h)
  have found : (e.constants.find? fun k => k.equals b).isSome :=
    List.find?_isSome.mpr ⟨b,hb,Slot.equals_self h⟩
  obtain ⟨k,hk⟩ := Option.isSome_iff_exists.mp found
  rw [shared,shared,same,hk]
  rfl

theorem shared_eq_self_iff (e : Expr) :
    (∀ slot∈e.constants, e.shared slot=slot) ↔ Slot.Distinct e.constants := by
  constructor
  · intro h a ha b hb hab
    rw [←h a ha,shared_congr hab hb,h b hb]
  · intro h slot hslot
    rw [shared]
    cases hf : e.constants.find? fun k => k.equals slot with
    | none => rfl
    | some k => exact h k (List.mem_of_find?_eq_some hf) slot hslot (by simpa using List.find?_some hf)

/-- Each constant of an emitted tree is loaded as the first constant of the tree that equals it, and a list of
constants puts these first ones on the stack, wherever in the tree it stands. All constants are loaded as they
are just when no two of the tree are equal and different. -/
theorem emit_shares {e : Expr} (h : e.emit=.ok c) :
    (∀ place slot, (place,const slot)∈e.nodes 0 → ∃ n : UInt32,
      c.code[place]?=some (.const n) ∧ c.constants[n.toNat]?=some (e.shared slot)) ∧
    (∀ place (slots : List Slot), (place,list (slots.map const))∈e.nodes 0 →
      ∀ {σ : Type} (host : Host σ) (args stack : List Slot) (locals : Locals),
        resume host c args ⟨place,stack,locals⟩=resume host c args ⟨place+slots.length+1,
          .boxed (.list (slots.map fun slot => (e.shared slot).toValue))::stack,locals⟩) ∧
    ((∀ place slot, (place,const slot)∈e.nodes 0 → ∃ n : UInt32,
      c.code[place]?=some (.const n) ∧ c.constants[n.toNat]?=some slot) ↔ Slot.Distinct e.constants) := by
  have realizes := emit_realizes h
  have loads : ∀ place slot, (place,const slot)∈e.nodes 0 → ∃ n : UInt32,
      c.code[place]?=some (.const n) ∧ c.constants[n.toNat]?=some (e.shared slot) := by
    intro place slot hn
    have stands := Chunk.contains_of_mem_nodes e hn realizes.contains
    simpa only [Chunk.Contains,pooled_eq_shared h] using stands
  refine ⟨loads,?_,?_⟩
  · intro place slots hn σ host args stack locals
    have stands := Chunk.contains_of_mem_nodes e hn realizes.contains
    rw [resume_execute realizes.forward _ stands]
    simp only [execute,executeAll_consts,pure_bind,codeSize,codeSizes_consts,List.map_map,Function.comp_def,
      pooled_eq_shared h,Nat.add_assoc]
  · rw [←shared_eq_self_iff]
    constructor
    · intro own slot hslot
      obtain ⟨place,hn⟩ := (e.mem_constants_iff slot 0).mp hslot
      obtain ⟨n,hi,hk⟩ := loads place slot hn
      obtain ⟨m,hj,hk'⟩ := own place slot hn
      cases hi.symm.trans hj
      exact Option.some.inj (hk.symm.trans hk')
    · intro own place slot hn
      have kept := own slot ((e.mem_constants_iff slot 0).mpr ⟨place,hn⟩)
      exact kept ▸ loads place slot hn

/-- A list of the zeros, the second of which is negative, behind the first of them. -/
def zeros : Expr :=
  .bind 0 (.float ⟨0⟩) (.list ([.float64 ⟨0⟩,.float64 ⟨0x8000000000000000⟩].map const))

theorem emit_shares_zeros : ∃ c, zeros.emit=.ok c ∧
    (∀ place slot, (place,const slot)∈zeros.nodes 0 → ∃ n : UInt32,
      c.code[place]?=some (.const n) ∧ c.constants[n.toNat]?=some (zeros.shared slot)) ∧
    (∀ place (slots : List Slot), (place,list (slots.map const))∈zeros.nodes 0 →
      ∀ (host : Host Unit) (args stack : List Slot) (locals : Locals),
        resume host c args ⟨place,stack,locals⟩=resume host c args ⟨place+slots.length+1,
          .boxed (.list (slots.map fun slot => (zeros.shared slot).toValue))::stack,locals⟩) ∧
    ((∀ place slot, (place,const slot)∈zeros.nodes 0 → ∃ n : UInt32,
      c.code[place]?=some (.const n) ∧ c.constants[n.toNat]?=some slot) ↔ Slot.Distinct zeros.constants) := by
  obtain ⟨c,hc⟩ : ∃ c, zeros.emit=.ok c := ⟨_,by cbv⟩
  obtain ⟨loads,lists,all⟩ := emit_shares hc
  exact ⟨c,hc,loads,fun place slots hn host => lists place slots hn host,all⟩

/-- The list of the two zeros evaluates to the first of them, twice. -/
theorem not_keepsConstants : ¬∀ slots : List Slot, (∃ c, (list (slots.map const)).emit=.ok c) →
    (list (slots.map const)).evaluate countingHost [] []=(.ok (.boxed (.list (slots.map Slot.toValue))),[]) := by
  intro h
  have kept := h [.float64 ⟨0⟩,.float64 ⟨0x8000000000000000⟩] ⟨_,by cbv⟩
  have lost : (list ([.float64 ⟨0⟩,.float64 ⟨0x8000000000000000⟩].map const)).evaluate countingHost [] []=
      (.ok (.boxed (.list [.float ⟨0⟩,.float ⟨0⟩])),[]) := by cbv
  cases lost.symm.trans kept

end Expr

end CallLowering
