import CallLowering.Proofs.Expr.Closed
import CallLowering.Proofs.Machine.Lockstep

namespace CallLowering

variable {σ : Type}

/-- The values of the locals that are bound around an expression. -/
abbrev Scope : Type := UInt16 → Option Slot

namespace Scope

def empty : Scope := fun _ => none

def bind (scope : Scope) (index : UInt16) (slot : Slot) : Scope :=
  fun i => if i=index then some slot else scope i

@[simp] theorem bind_self (scope : Scope) (index : UInt16) (slot : Slot) :
    scope.bind index slot index=some slot := if_pos rfl

theorem bind_of_ne (scope : Scope) {index i : UInt16} (slot : Slot) (h : i≠index) :
    scope.bind index slot i=scope i := if_neg h

end Scope

def Run.argument (args : List Slot) (index : UInt16) : Run σ Slot :=
  match args[index.toNat]? with
  | some slot => return slot
  | none => throw (.missingArgument index)

/-- A local, if it has a value. -/
def Run.local (index : UInt16) : Option Slot → Run σ Slot
  | some slot => return slot
  | none => throw (.uninitializedLocal index)

namespace Expr

mutual

/-- The value of a tree with the locals of `scope`. -/
def meaning (host : Host σ) (args : List Slot) (scope : Scope) : Expr → Run σ Slot
  | const slot => return slot
  | arg index _ => Run.argument args index
  | readLocal index _ => Run.local index (scope index)
  | invoke m es => do Run.call host m.routine (← meanings host args scope es)
  | convert e target => do Run.lift ((← e.meaning host args scope).convert target)
  | box e => do return (← e.meaning host args scope).box
  | unbox e target => do Run.lift ((← e.meaning host args scope).unbox target)
  | list es => do return .boxed (.list ((← meanings host args scope es).map Slot.toValue))
  | bind index value body => do
      let slot ← value.meaning host args scope
      body.meaning host args (scope.bind index slot)
  | select c t f => do
      if ← Run.lift (← c.meaning host args scope).toBool then t.meaning host args scope
      else f.meaning host args scope
  | compare k lhs rhs => do
      let a ← lhs.meaning host args scope
      let b ← rhs.meaning host args scope
      return .bool (k.holds (← Run.lift (a.order b)))
  | isNull e => do return .bool (← e.meaning host args scope).isNullish
  | not e => do return .bool (!(← Run.lift (← e.meaning host args scope).toBool))

def meanings (host : Host σ) (args : List Slot) (scope : Scope) : List Expr → Run σ (List Slot)
  | [] => return []
  | e::es => do
      let slot ← e.meaning host args scope
      return slot::(← meanings host args scope es)

end

theorem meanings_congr (host : Host σ) (args : List Slot) {scope scope' : Scope} {es : List Expr}
    (h : ∀ e∈es, e.meaning host args scope=e.meaning host args scope') :
    meanings host args scope es=meanings host args scope' es := by
  induction es with
  | nil => rfl
  | cons e es ih =>
    rw [meanings,meanings,h e (by simp),ih fun e he => h e (by simp [he])]

/-- A tree only reads locals that are bound around it. -/
theorem meaning_congr (host : Host σ) (args : List Slot) (e : Expr) {inside : List UInt16}
    {scope scope' : Scope} (he : e.isClosed inside) (h : ∀ i∈inside, scope i=scope' i) :
    e.meaning host args scope=e.meaning host args scope' := by
  induction e generalizing inside scope scope' with
  | const slot => rfl
  | arg index rep => rfl
  | readLocal index rep =>
    simp only [isClosed,decide_eq_true_eq] at he
    rw [meaning,meaning,h index he]
  | invoke m es ih =>
    simp only [isClosed,areClosed_iff] at he
    rw [meaning,meaning,meanings_congr host args fun e hm => ih e hm (he e hm) h]
  | list es ih =>
    simp only [isClosed,areClosed_iff] at he
    rw [meaning,meaning,meanings_congr host args fun e hm => ih e hm (he e hm) h]
  | convert e target ih => rw [meaning,meaning,ih he h]
  | box e ih => rw [meaning,meaning,ih he h]
  | unbox e target ih => rw [meaning,meaning,ih he h]
  | isNull e ih => rw [meaning,meaning,ih he h]
  | not e ih => rw [meaning,meaning,ih he h]
  | bind index value body ihv ihb =>
    simp only [isClosed,Bool.and_eq_true] at he
    rw [meaning,meaning,ihv he.1.2 h]
    congr 1
    funext slot
    apply ihb he.2
    intro i hi
    by_cases eq : i=index
    · rw [eq,Scope.bind_self,Scope.bind_self]
    · rw [Scope.bind_of_ne _ _ eq,Scope.bind_of_ne _ _ eq]
      exact h i (mem_of_mem_inBody hi eq)
  | select c t f ihc iht ihf =>
    simp only [isClosed,Bool.and_eq_true] at he
    rw [meaning,meaning,ihc he.1.1 h,iht he.1.2 h,ihf he.2 h]
  | compare k lhs rhs ihl ihr =>
    simp only [isClosed,Bool.and_eq_true] at he
    rw [meaning,meaning,ihl he.1 h,ihr he.2 h]

end Expr

end CallLowering
