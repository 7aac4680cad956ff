import CallLowering.Proofs.Expr.Meaning

namespace CallLowering

variable {σ : Type}

/-- The locals of a machine: one array for all bindings, where what is stored stays when its binding ends. -/
abbrev Locals : Type := Array (Option Slot)

/-- Stores into a local, if there is one with this number. -/
def Locals.store (locals : Locals) (index : UInt16) (slot : Slot) : Run σ Locals :=
  if index.toNat < locals.size then return locals.setIfInBounds index.toNat (some slot)
  else throw (.malformed (.localBeyond index))

def Locals.load (locals : Locals) (index : UInt16) : Run σ Slot :=
  Run.local index locals[index.toNat]?.join

namespace Expr

mutual

/-- The value of a tree on these locals, and the locals afterwards. Constants are those that `pool` gives
for the ones in the tree. -/
def execute (host : Host σ) (args : List Slot) (pool : Slot → Slot) :
    Expr → Locals → Run σ (Slot × Locals)
  | const slot,locals => return (pool slot,locals)
  | arg index _,locals => do return (← Run.argument args index,locals)
  | readLocal index _,locals => do return (← locals.load index,locals)
  | invoke m es,locals => do
      let r ← executeAll host args pool es locals
      return (← Run.call host m.routine r.1,r.2)
  | convert e target,locals => do
      let r ← e.execute host args pool locals
      return (← Run.lift (r.1.convert target),r.2)
  | box e,locals => do
      let r ← e.execute host args pool locals
      return (r.1.box,r.2)
  | unbox e target,locals => do
      let r ← e.execute host args pool locals
      return (← Run.lift (r.1.unbox target),r.2)
  | list es,locals => do
      let r ← executeAll host args pool es locals
      return (.boxed (.list (r.1.map Slot.toValue)),r.2)
  | bind index value body,locals => do
      let r ← value.execute host args pool locals
      body.execute host args pool (← r.2.store index r.1)
  | select c t f,locals => do
      let r ← c.execute host args pool locals
      if ← Run.lift r.1.toBool then t.execute host args pool r.2 else f.execute host args pool r.2
  | compare k lhs rhs,locals => do
      let a ← lhs.execute host args pool locals
      let b ← rhs.execute host args pool a.2
      return (.bool (k.holds (← Run.lift (a.1.order b.1))),b.2)
  | isNull e,locals => do
      let r ← e.execute host args pool locals
      return (.bool r.1.isNullish,r.2)
  | not e,locals => do
      let r ← e.execute host args pool locals
      return (.bool (!(← Run.lift r.1.toBool)),r.2)

def executeAll (host : Host σ) (args : List Slot) (pool : Slot → Slot) :
    List Expr → Locals → Run σ (List Slot × Locals)
  | [],locals => return ([],locals)
  | e::es,locals => do
      let r ← e.execute host args pool locals
      let rs ← executeAll host args pool es r.2
      return (r.1::rs.1,rs.2)

end

end Expr

/-- Do the locals of a machine hold what the scope says of these? -/
def Locals.Hold (locals : Locals) (inside : List UInt16) (scope : Scope) : Prop :=
  ∀ i∈inside, locals[i.toNat]?.join=scope i

/-- A value beside the same value with the locals after it: there are as many as before, and those of the
scope hold what they held. -/
structure Locals.Kept {α : Type} (size : Nat) (inside : List UInt16) (scope : Scope) (r : α × Locals)
    (a : α) : Prop where
  value : r.1=a
  size : r.2.size=size
  hold : r.2.Hold inside scope

namespace Locals

variable {α β : Type} {locals : Locals} {size : Nat} {inside : List UInt16} {scope : Scope}

theorem Hold.store (h : locals.Hold inside scope) {index : UInt16} (slot : Slot)
    (body : Expr) (hi : index.toNat < locals.size) :
    Hold (locals.setIfInBounds index.toNat (some slot)) (body.inBody index inside) (scope.bind index slot) := by
  intro i hm
  by_cases eq : i=index
  · rw [eq,Scope.bind_self,Array.getElem?_setIfInBounds_self_of_lt hi]
    rfl
  · have hne : index.toNat≠i.toNat := fun h => eq (UInt16.toNat_inj.mp h.symm)
    rw [Scope.bind_of_ne _ _ eq,Array.getElem?_setIfInBounds_ne hne]
    exact h i (Expr.mem_of_mem_inBody hm eq)

/-- Binding a local and leaving its scope again. -/
theorem Hold.unbind {index : UInt16} {slot : Slot} {body : Expr}
    (h : locals.Hold (body.inBody index inside) (scope.bind index slot)) (hn : index∉inside) :
    locals.Hold inside scope := by
  intro i hi
  have hne : i≠index := fun eq => hn (eq ▸ hi)
  rw [←Scope.bind_of_ne scope slot hne]
  exact h i (Expr.subset_inBody index body inside hi)

/-- A computation that has nothing to do with the locals. -/
theorem Kept.alongside (x : Run σ α) (hs : locals.size=size) (hl : locals.Hold inside scope) :
    Run.Lockstep (Kept size inside scope) (do return (← x,locals)) x := by
  have h := (Run.Lockstep.refl x).bind (S := Kept size inside scope)
    (f := fun a => return (a,locals)) (g := fun a => return a)
    (fun _ _ eq => Run.Lockstep.pure ⟨eq,hs,hl⟩)
  simpa only [bind_pure] using h

theorem Kept.map {x : Run σ (α × Locals)} {y : Run σ α} (h : Run.Lockstep (Kept size inside scope) x y)
    (f : α → Run σ β) : Run.Lockstep (Kept size inside scope)
      (do let r ← x; return (← f r.1,r.2)) (do f (← y)) := by
  apply h.bind
  intro r _ kept
  obtain ⟨a,after⟩ := r
  obtain ⟨rfl,hs,hl⟩ := kept
  exact Kept.alongside (f a) hs hl

end Locals

open Locals Run.Lockstep

namespace Expr

/-- Trees one after the other, if each of them keeps the locals. -/
theorem executeAll_meanings (host : Host σ) (args : List Slot) (pool : Slot → Slot) {size : Nat}
    {inside : List UInt16} {scope : Scope} {es : List Expr}
    (h : ∀ e∈es, ∀ locals : Locals, locals.size=size → locals.Hold inside scope →
      Run.Lockstep (Kept size inside scope) (e.execute host args pool locals)
        ((e.mapConstants pool).meaning host args scope))
    {locals : Locals} (hs : locals.size=size) (hl : locals.Hold inside scope) :
    Run.Lockstep (Kept size inside scope) (executeAll host args pool es locals)
      (meanings host args scope (mapConstantsOf pool es)) := by
  induction es generalizing locals with
  | nil => exact pure ⟨rfl,hs,hl⟩
  | cons e es ih =>
    rw [executeAll,mapConstantsOf,meanings]
    apply (h e (by simp) locals hs hl).bind
    intro r _ kept
    obtain ⟨a,after⟩ := r
    obtain ⟨rfl,hs,hl⟩ := kept
    apply (ih (fun e he => h e (by simp [he])) hs hl).bind
    intro r _ kept
    obtain ⟨as,last⟩ := r
    obtain ⟨rfl,hs,hl⟩ := kept
    exact pure ⟨rfl,hs,hl⟩

/-- Where the tree is closed and does not bind what may be read around it, and the array has a place for each
local that it binds, evaluation on the array finds what the scope says. -/
theorem execute_meaning (host : Host σ) (args : List Slot) (pool : Slot → Slot) (e : Expr) {size : Nat}
    {inside : List UInt16} {scope : Scope} (he : e.isClosed inside)
    (hb : ∀ i∈e.bound, i∉inside ∧ i.toNat < size) {locals : Locals} (hs : locals.size=size)
    (hl : locals.Hold inside scope) :
    Run.Lockstep (Kept size inside scope) (e.execute host args pool locals)
      ((e.mapConstants pool).meaning host args scope) := by
  induction e generalizing inside scope locals with
  | const slot => exact pure ⟨rfl,hs,hl⟩
  | arg index rep => exact Kept.alongside _ hs hl
  | readLocal index rep =>
    simp only [isClosed,decide_eq_true_eq] at he
    rw [execute,mapConstants,meaning,load,hl index he]
    exact Kept.alongside _ hs hl
  | invoke m es ih =>
    simp only [isClosed,areClosed_iff] at he
    exact Kept.map (executeAll_meanings host args pool (fun e hm locals hs hl => ih e hm (he e hm)
      (fun i hi => hb i (by simpa [bound] using ⟨e,hm,hi⟩)) hs hl) hs hl) _
  | list es ih =>
    simp only [isClosed,areClosed_iff] at he
    exact Kept.map (executeAll_meanings host args pool (fun e hm locals hs hl => ih e hm (he e hm)
      (fun i hi => hb i (by simpa [bound] using ⟨e,hm,hi⟩)) hs hl) hs hl)
      fun slots => return Slot.boxed (.list (slots.map Slot.toValue))
  | convert e target ih => exact Kept.map (ih he hb hs hl) fun slot => Run.lift (slot.convert target)
  | box e ih => exact Kept.map (ih he hb hs hl) fun slot => return slot.box
  | unbox e target ih => exact Kept.map (ih he hb hs hl) fun slot => Run.lift (slot.unbox target)
  | isNull e ih => exact Kept.map (ih he hb hs hl) fun slot => return Slot.bool slot.isNullish
  | not e ih =>
    have h := Kept.map (ih he hb hs hl) fun slot => do return Slot.bool (!(← Run.lift slot.toBool))
    simpa only [execute,mapConstants,meaning,bind_assoc,pure_bind] using h
  | bind index value body ihv ihb =>
    simp only [isClosed,Bool.and_eq_true,decide_eq_true_eq] at he
    obtain ⟨⟨hi,hv⟩,hbody⟩ := he
    rw [execute,mapConstants,meaning]
    apply (ihv hv (fun i hm => hb i (by simp [bound,hm])) hs hl).bind
    intro r _ kept
    obtain ⟨slot,after⟩ := r
    obtain ⟨rfl,hs,hl⟩ := kept
    obtain ⟨hn,hlt⟩ := hb index (by simp [bound])
    rw [store,if_pos (hs ▸ hlt),pure_bind]
    have apart : ∀ i∈body.bound, i∉inBody index body inside :=
      not_mem_inBody index fun i hm => (hb i (by simp [bound,hm])).1
    apply (ihb hbody (fun i hm => ⟨apart i hm,(hb i (by simp [bound,hm])).2⟩) (by simpa using hs)
      (hl.store slot body (hs ▸ hlt))).mono
    exact fun r a h => ⟨h.value,h.size,h.hold.unbind hn⟩
  | select c t f ihc iht ihf =>
    simp only [isClosed,Bool.and_eq_true] at he
    rw [execute,mapConstants,meaning]
    apply (ihc he.1.1 (fun i hm => hb i (by simp [bound,hm])) hs hl).bind
    intro r _ kept
    obtain ⟨slot,after⟩ := r
    obtain ⟨rfl,hs,hl⟩ := kept
    apply (refl (Run.lift slot.toBool)).bind
    intro b _ same
    obtain rfl := same
    cases b with
    | true => exact iht he.1.2 (fun i hm => hb i (by simp [bound,hm])) hs hl
    | false => exact ihf he.2 (fun i hm => hb i (by simp [bound,hm])) hs hl
  | compare k lhs rhs ihl ihr =>
    simp only [isClosed,Bool.and_eq_true] at he
    rw [execute,mapConstants,meaning]
    apply (ihl he.1 (fun i hm => hb i (by simp [bound,hm])) hs hl).bind
    intro r _ kept
    obtain ⟨a,after⟩ := r
    obtain ⟨rfl,hs,hl⟩ := kept
    have h := Kept.map (ihr he.2 (fun i hm => hb i (by simp [bound,hm])) hs hl)
      fun b => do return Slot.bool (k.holds (← Run.lift (a.order b)))
    simpa only [bind_assoc,pure_bind] using h

end Expr

end CallLowering
