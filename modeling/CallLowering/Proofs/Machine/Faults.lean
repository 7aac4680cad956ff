import CallLowering.Proofs.Machine.Ensures
import CallLowering.Proofs.Machine.Walk

namespace CallLowering

/-- What the code of a tree may end with: the error of a routine, an argument or a local that is not there, or a
store into a local of this kind. -/
inductive Fault.OfTree (beyond : UInt16 → Prop) : Fault → Prop
  | routine (e : RoutineError) : OfTree beyond (.routine e)
  | missingArgument (index : UInt16) : OfTree beyond (.missingArgument index)
  | uninitializedLocal (index : UInt16) : OfTree beyond (.uninitializedLocal index)
  | localBeyond {index : UInt16} (h : beyond index) : OfTree beyond (.malformed (.localBeyond index))

variable {σ α : Type} {host : Host σ} {c : Chunk} {args : List Slot}

namespace Run

variable {beyond : UInt16 → Prop}

theorem lift_faults (r : Except RoutineError α) :
    Ensures (fun _ => True) (Fault.OfTree beyond) (Run.lift r : Run σ α) :=
  Ensures.lift (fun _ _ => trivial) fun e _ => .routine e

theorem call_faults (host : Host σ) (r : Routine) (slots : List Slot) :
    Ensures (fun _ => True) (Fault.OfTree beyond) (Run.call host r slots) := by
  intro s
  rw [Run.call]
  rcases host.call r slots s with ⟨e|slot,t⟩
  · exact .routine e
  · trivial

theorem argument_faults (args : List Slot) (index : UInt16) :
    Ensures (fun _ => True) (Fault.OfTree beyond) (Run.argument args index : Run σ Slot) := by
  rw [Run.argument]
  split
  · exact .pure trivial
  · exact .throw (.missingArgument index)

theorem local_faults (index : UInt16) (slot : Option Slot) :
    Ensures (fun _ => True) (Fault.OfTree beyond) (Run.local index slot : Run σ Slot) := by
  cases slot with
  | none => exact .throw (.uninitializedLocal index)
  | some slot => exact .pure trivial

end Run

namespace Expr

open Run

variable {pool : Slot → Slot} {size : Nat} {beyond : UInt16 → Prop}

/-- A computation that has nothing to do with the locals. -/
theorem alongside_faults {x : Run σ α} (h : Ensures (fun _ => True) (Fault.OfTree beyond) x) {locals : Locals}
    (hs : locals.size=size) :
    Ensures (fun r => r.2.size=size) (Fault.OfTree beyond) (do return (← x,locals)) :=
  h.bind fun _ _ => .pure hs

theorem executeAll_faults {es : List Expr}
    (ih : ∀ e∈es, ∀ locals : Locals, locals.size=size →
      Ensures (fun r => r.2.size=size) (Fault.OfTree beyond) (e.execute host args pool locals))
    {locals : Locals} (hs : locals.size=size) :
    Ensures (fun r => r.2.size=size) (Fault.OfTree beyond) (executeAll host args pool es locals) := by
  induction es generalizing locals with
  | nil => exact .pure hs
  | cons e es ihs =>
    rw [executeAll]
    apply (ih e (by simp) locals hs).bind
    intro r hr
    apply (ihs (fun e he => ih e (by simp [he])) hr).bind
    intro rs hrs
    exact .pure hrs

/-- Evaluation on an array of locals keeps its size, and only lacks the locals that the array has no place
for. -/
theorem execute_faults (e : Expr) (hb : ∀ index∈e.bound, size ≤ index.toNat → beyond index) {locals : Locals}
    (hs : locals.size=size) :
    Ensures (fun r => r.2.size=size) (Fault.OfTree beyond) (e.execute host args pool locals) := by
  induction e generalizing locals with
  | const slot => exact .pure hs
  | arg index rep => exact alongside_faults (argument_faults args index) hs
  | readLocal index rep => exact alongside_faults (local_faults index _) hs
  | invoke m es ih =>
    rw [execute]
    apply (executeAll_faults (fun e he locals hs =>
      ih e he (fun i hi => hb i (by simpa [bound] using ⟨e,he,hi⟩)) hs) hs).bind
    exact fun r hr => alongside_faults (call_faults host m.routine r.1) hr
  | list es ih =>
    rw [execute]
    apply (executeAll_faults (fun e he locals hs =>
      ih e he (fun i hi => hb i (by simpa [bound] using ⟨e,he,hi⟩)) hs) hs).bind
    exact fun r hr => .pure hr
  | convert e target ih => exact (ih hb hs).bind fun r hr => alongside_faults (lift_faults _) hr
  | unbox e target ih => exact (ih hb hs).bind fun r hr => alongside_faults (lift_faults _) hr
  | box e ih => exact (ih hb hs).bind fun r hr => .pure hr
  | isNull e ih => exact (ih hb hs).bind fun r hr => .pure hr
  | not e ih => exact (ih hb hs).bind fun r hr => (lift_faults _).bind fun b _ => .pure hr
  | bind index value body ihv ihb =>
    rw [execute]
    apply (ihv (fun i h => hb i (by simp [bound,h])) hs).bind
    intro r hr
    rw [Locals.store]
    split
    · rw [pure_bind]
      exact ihb (fun i h => hb i (by simp [bound,h])) (Array.size_setIfInBounds.trans hr)
    · next hi => exact .throw (.localBeyond (hb index (by simp [bound]) (by omega)))
  | select c t f ihc iht ihf =>
    rw [execute]
    apply (ihc (fun i h => hb i (by simp [bound,h])) hs).bind
    intro r hr
    apply (lift_faults _).bind
    intro b _
    cases b with
    | true => exact iht (fun i h => hb i (by simp [bound,h])) hr
    | false => exact ihf (fun i h => hb i (by simp [bound,h])) hr
  | compare k lhs rhs ihl ihr =>
    rw [execute]
    apply (ihl (fun i h => hb i (by simp [bound,h])) hs).bind
    intro a ha
    apply (ihr (fun i h => hb i (by simp [bound,h])) ha).bind
    intro b hb
    exact (lift_faults _).bind fun order _ => .pure hb

end Expr

/-- The run of a chunk of a tree finds all it needs, but a place for the local with the largest number. -/
theorem Chunk.Realizes.run_faults {e : Expr} (h : c.Realizes e) :
    Run.Ensures (fun _ => True) (Fault.OfTree fun index => index=65535 ∧ index∈e.bound)
      (c.run host args c.code.size) := by
  rw [h.run_execute]
  apply (e.execute_faults ?_ Array.size_replicate).bind
  · exact fun r _ => .pure trivial
  · intro index hb hl
    have hlt := index.toNat_lt
    have beyond : ¬index.toNat ≤ 65534 := fun hi => Nat.not_lt_of_le hl (h.room index hb hi)
    exact ⟨UInt16.toNat_inj.mp (show index.toNat=65535 by omega),hb⟩

namespace Expr

open Machine

/-- In emitted code the only number out of range is that of a store into the local with the largest number. A
run does not find the stack empty or the chunk malformed, unless it comes to such a store; where it leaves the
code, one slot is on the stack. -/
theorem emit_intact {e : Expr} (h : e.emit=.ok c) :
    (∀ (place : Nat) (i : Instr), c.code[place]?=some i → (c.InRange i ↔ i≠.storeLocal 65535)) ∧
    ∀ {σ : Type} (host : Host σ) (args : List Slot) (s : σ),
      (∀ fault t, c.run host args c.code.size s=(.error fault,t) → (∀ place, fault≠.stackUnderflow place) ∧
        ∀ what, fault=.malformed what → what=.localBeyond 65535 ∧ 65535∈e.bound) ∧
      ∀ places m t, Walk host c args (start c) s places (.ok m,t) → ∃ slot, m.stack=[slot] := by
  have realizes := emit_realizes h
  refine ⟨fun _ _ => realizes.inRange_iff,?_⟩
  intro σ host args s
  have intact : ∀ fault t, c.run host args c.code.size s=(.error fault,t) →
      (∀ place, fault≠.stackUnderflow place) ∧
        ∀ what, fault=.malformed what → what=.localBeyond 65535 ∧ 65535∈e.bound := by
    intro fault t hr
    have found : fault.OfTree fun index => index=65535 ∧ index∈e.bound := realizes.run_faults.fault hr
    cases found with
    | @localBeyond index hi =>
      obtain ⟨rfl,hb⟩ := hi
      refine ⟨by simp,?_⟩
      rintro what ⟨⟩
      exact ⟨rfl,hb⟩
    | _ => exact ⟨by simp,by simp⟩
  refine ⟨intact,?_⟩
  intro places m t walk
  have hrun : c.run host args c.code.size s=m.finish t := walk.run_eq (walk.length_le realizes.forward)
  -- any other stack would be a fault of the run
  rcases hm : m.stack with _|⟨slot,_|⟨next,rest⟩⟩
  · rw [finish,hm] at hrun
    exact absurd rfl ((intact _ _ hrun).1 _)
  · exact ⟨slot,rfl⟩
  · rw [finish,hm] at hrun
    cases ((intact _ _ hrun).2 _ rfl).1

/-- A binding of the local with the largest number. -/
def lastLocal : Expr := .bind 65535 (.int 1) (.readLocal 65535 .int64)

theorem emit_intact_lastLocal :
    ∃ c, lastLocal.emit=.ok c ∧
      (∀ (place : Nat) (i : Instr), c.code[place]?=some i → (c.InRange i ↔ i≠.storeLocal 65535)) ∧
      (∀ fault t, c.run countingHost [] c.code.size []=(.error fault,t) →
        (∀ place, fault≠.stackUnderflow place) ∧
          ∀ what, fault=.malformed what → what=.localBeyond 65535 ∧ 65535∈lastLocal.bound) ∧
      ∀ places m t, Walk countingHost c [] (start c) [] places (.ok m,t) → ∃ slot, m.stack=[slot] := by
  obtain ⟨c,hc⟩ : ∃ c, lastLocal.emit=.ok c := ⟨_,by cbv⟩
  obtain ⟨inRange,runs⟩ := emit_intact hc
  exact ⟨c,hc,inRange,runs countingHost [] []⟩

/-- A tree that is emitted, with a chunk that is malformed. -/
theorem not_intact : ∃ c, lastLocal.emit=.ok c ∧
    (c.run countingHost [] c.code.size []).1=.error (.malformed (.localBeyond 65535)) := by
  obtain ⟨c,hc⟩ : ∃ c, lastLocal.emit=.ok c := ⟨_,by cbv⟩
  refine ⟨c,hc,?_⟩
  have realizes := emit_realizes hc
  have full : ¬(65535 : UInt16).toNat < (Array.replicate c.maxLocals.toNat (none : Option Slot)).size := by
    have := c.maxLocals.toNat_lt
    rw [Array.size_replicate]
    change ¬65535 < c.maxLocals.toNat
    omega
  rw [realizes.run_execute]
  simp only [lastLocal,int,execute,pure_bind,Locals.store,if_neg full]
  rfl

end Expr

end CallLowering
