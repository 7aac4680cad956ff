import CallLowering.Proofs.Expr.Meaning
import CallLowering.Proofs.Expr.Typed
import Mathlib.Logic.Relation

namespace CallLowering

variable {σ : Type}

/-- A tree that is to be evaluated, with the values of the locals around it and the state of the host. -/
structure Evaluation (σ : Type) where
  scope : Scope
  tree : Expr
  state : σ

namespace Evaluation

open CallLowering.Expr

/-- An evaluation comes to one of an operand of its tree: the operands before it have values, and of two branches it
is the one that is chosen. Constants are read from the pool. -/
inductive Begins (host : Host σ) (args : List Slot) (pool : Slot → Slot) : Evaluation σ → Evaluation σ → Prop
  | argument {scope : Scope} {m : Method} {before after : List Expr} {e : Expr} {s t : σ} {slots : List Slot}
      (h : meanings host args scope (mapConstantsOf pool before) s=(.ok slots,t)) :
      Begins host args pool ⟨scope,invoke m (before++e::after),s⟩ ⟨scope,e,t⟩
  | item {scope : Scope} {before after : List Expr} {e : Expr} {s t : σ} {slots : List Slot}
      (h : meanings host args scope (mapConstantsOf pool before) s=(.ok slots,t)) :
      Begins host args pool ⟨scope,list (before++e::after),s⟩ ⟨scope,e,t⟩
  | converted {scope : Scope} {e : Expr} {target : Rep} {s : σ} :
      Begins host args pool ⟨scope,convert e target,s⟩ ⟨scope,e,s⟩
  | boxed {scope : Scope} {e : Expr} {s : σ} : Begins host args pool ⟨scope,box e,s⟩ ⟨scope,e,s⟩
  | unboxed {scope : Scope} {e : Expr} {target : Rep} {s : σ} :
      Begins host args pool ⟨scope,unbox e target,s⟩ ⟨scope,e,s⟩
  | tested {scope : Scope} {e : Expr} {s : σ} : Begins host args pool ⟨scope,isNull e,s⟩ ⟨scope,e,s⟩
  | negated {scope : Scope} {e : Expr} {s : σ} : Begins host args pool ⟨scope,not e,s⟩ ⟨scope,e,s⟩
  | value {scope : Scope} {index : UInt16} {value body : Expr} {s : σ} :
      Begins host args pool ⟨scope,bind index value body,s⟩ ⟨scope,value,s⟩
  | body {scope : Scope} {index : UInt16} {value body : Expr} {s t : σ} {slot : Slot}
      (h : (value.mapConstants pool).meaning host args scope s=(.ok slot,t)) :
      Begins host args pool ⟨scope,bind index value body,s⟩ ⟨scope.bind index slot,body,t⟩
  | condition {scope : Scope} {c t f : Expr} {s : σ} : Begins host args pool ⟨scope,select c t f,s⟩ ⟨scope,c,s⟩
  | branch {scope : Scope} {c t f : Expr} {s u : σ} {b : Bool}
      (h : (c.mapConstants pool).meaning host args scope s=(.ok (.bool b),u)) :
      Begins host args pool ⟨scope,select c t f,s⟩ ⟨scope,if b then t else f,u⟩
  | left {scope : Scope} {k : Comparison} {lhs rhs : Expr} {s : σ} :
      Begins host args pool ⟨scope,compare k lhs rhs,s⟩ ⟨scope,lhs,s⟩
  | right {scope : Scope} {k : Comparison} {lhs rhs : Expr} {s t : σ} {slot : Slot}
      (h : (lhs.mapConstants pool).meaning host args scope s=(.ok slot,t)) :
      Begins host args pool ⟨scope,compare k lhs rhs,s⟩ ⟨scope,rhs,t⟩

/-- The tree of an evaluation raises this error itself, on the values of its operands: an unboxing finds something else
in the box, the body of a routine answers a call in the representations of its parameters with the error, or there is
no object to receive the call. -/
inductive Raises (host : Host σ) (args : List Slot) (pool : Slot → Slot) : Evaluation σ → RoutineError → Prop
  | unboxing {scope : Scope} {e : Expr} {target : Rep} {s t : σ} {v : Value} {error : RoutineError}
      (ho : (e.mapConstants pool).meaning host args scope s=(.ok (.boxed v),t))
      (h : (Slot.boxed v).unbox target=.error error) : Raises host args pool ⟨scope,unbox e target,s⟩ error
  | body {scope : Scope} {m : Method} {es : List Expr} {s t u : σ} {slots : List Slot} {error : RoutineError}
      (ho : meanings host args scope (mapConstantsOf pool es) s=(.ok slots,t))
      (hs : slots.map Slot.rep=m.params) (hr : m.routine.onReceiver → host.receives t m.routine.owner)
      (h : host.enter m.routine slots t=(.error error,u)) : Raises host args pool ⟨scope,invoke m es,s⟩ error
  | receiver {scope : Scope} {m : Method} {es : List Expr} {s t : σ} {slots : List Slot}
      (ho : meanings host args scope (mapConstantsOf pool es) s=(.ok slots,t)) (hr : m.routine.onReceiver)
      (h : host.receives t m.routine.owner=false) :
      Raises host args pool ⟨scope,invoke m es,s⟩ (.missingReceiver m.routine.owner)

/-- The evaluation ends with the error of a routine, which is raised by a part of the tree that it comes to. -/
def Blames (host : Host σ) (args : List Slot) (pool : Slot → Slot) (v : Evaluation σ) (fault : Fault) : Prop :=
  ∃ error, fault=.routine error ∧
    ∃ w, Relation.ReflTransGen (Begins host args pool) v w ∧ w.Raises host args pool error

variable {host : Host σ} {args : List Slot} {pool : Slot → Slot} {v w : Evaluation σ}

theorem Raises.blames {error : RoutineError} (h : v.Raises host args pool error) :
    v.Blames host args pool (.routine error) := ⟨error,rfl,v,.refl,h⟩

/-- Where an operand is to blame, so is the whole. -/
theorem Begins.blames (h : Begins host args pool v w) {fault : Fault} (hw : w.Blames host args pool fault) :
    v.Blames host args pool fault := by
  obtain ⟨error,rfl,u,reached,raised⟩ := hw
  exact ⟨error,rfl,u,.head h reached,raised⟩

/-- Operands call no methods but those of the whole. -/
theorem Begins.methods_subset (h : Begins host args pool v w) : w.tree.methods⊆v.tree.methods := by
  intro m hm
  cases h with
  | @argument _ _ before after e =>
    exact List.mem_cons_of_mem _ (mem_methodsOf.mpr ⟨e,by simp,hm⟩)
  | @item _ before after e => exact mem_methodsOf.mpr ⟨e,by simp,hm⟩
  | converted => exact hm
  | boxed => exact hm
  | unboxed => exact hm
  | tested => exact hm
  | negated => exact hm
  | value => exact List.mem_append_left _ hm
  | body => exact List.mem_append_right _ hm
  | condition => exact List.mem_append_left _ (List.mem_append_left _ hm)
  | @branch _ _ _ _ _ _ b =>
    cases b with
    | true => exact List.mem_append_left _ (List.mem_append_right _ hm)
    | false => exact List.mem_append_right _ hm
  | left => exact List.mem_append_left _ hm
  | right => exact List.mem_append_right _ hm

theorem methods_subset_of_reached (h : Relation.ReflTransGen (Begins host args pool) v w) :
    w.tree.methods⊆v.tree.methods := by
  induction h with
  | refl => exact List.Subset.refl _
  | tail _ last ih => exact List.Subset.trans last.methods_subset ih

end Evaluation

end CallLowering
