import CallLowering.Deferred
import CallLowering.Proofs.Expr.Passed
import CallLowering.Proofs.Machine.Safety
import CallLowering.Proofs.Value.Admits

namespace CallLowering

namespace Deferred

@[elab_as_elim,induction_eliminator]
theorem induction {motive : Deferred → Prop} (leaf : ∀ e, motive (leaf e))
    (constant : ∀ slot, motive (constant slot)) (call : ∀ m ds, (∀ d∈ds, motive d) → motive (call m ds))
    (list : ∀ ds, (∀ d∈ds, motive d) → motive (list ds)) (d : Deferred) : motive d :=
  @Deferred.rec motive (fun ds => ∀ d∈ds, motive d) leaf constant call list (by simp)
    (fun _ _ hd hds _ h => (List.mem_cons.mp h).elim (fun eq => eq ▸ hd) (hds _)) d

mutual

/-- The calls in a description, each with what is passed. -/
def calls : Deferred → List (Method × List Deferred)
  | leaf _ => []
  | constant _ => []
  | call m ds => (m,ds)::callsOf ds
  | list ds => callsOf ds

def callsOf : List Deferred → List (Method × List Deferred)
  | [] => []
  | d::ds => d.calls++callsOf ds

end

mutual

/-- The expressions in a description. -/
def leaves : Deferred → List TypedExpr
  | leaf e => [e]
  | constant _ => []
  | call _ ds => leavesOf ds
  | list ds => leavesOf ds

def leavesOf : List Deferred → List TypedExpr
  | [] => []
  | d::ds => d.leaves++leavesOf ds

end

@[simp] theorem mem_callsOf {c : Method × List Deferred} {ds : List Deferred} :
    c∈callsOf ds ↔ ∃ d∈ds, c∈d.calls := by
  induction ds with
  | nil => simp [callsOf]
  | cons d ds ih => simp [callsOf,ih]

@[simp] theorem mem_leavesOf {e : TypedExpr} {ds : List Deferred} : e∈leavesOf ds ↔ ∃ d∈ds, e∈d.leaves := by
  induction ds with
  | nil => simp [leavesOf]
  | cons d ds ih => simp [leavesOf,ih]

/-- The methods that are called, by the description or in one of its expressions. -/
def methods (d : Deferred) : List Method := d.calls.map Prod.fst++d.leaves.flatMap fun e => e.expr.methods

theorem methods_of_mem_list {d : Deferred} {ds : List Deferred} (h : d∈ds) : d.methods⊆(list ds).methods := by
  intro m hm
  simp only [methods,calls,leaves,List.mem_append,List.mem_map,List.mem_flatMap,mem_callsOf,mem_leavesOf] at hm ⊢
  obtain ⟨c,hc,rfl⟩|⟨e,he,hm⟩ := hm
  · exact .inl ⟨c,⟨d,h,hc⟩,rfl⟩
  · exact .inr ⟨e,⟨d,h,he⟩,hm⟩

theorem methods_call (m : Method) (ds : List Deferred) : (call m ds).methods=m::(list ds).methods := rfl

/-- Does every call have as many arguments as its routine has parameters? -/
def Counted (d : Deferred) : Prop := ∀ c∈d.calls, c.2.length=c.1.arity

def rep : Deferred → Rep
  | leaf e => e.rep
  | constant slot => slot.rep
  | call m _ => m.returns
  | list _ => .boxed

/-- Is an argument held apart from what its parameter asks for? -/
def Clashes (d : Deferred) : Prop := ∃ c∈d.calls, ∃ p∈c.2.zip c.1.params, p.1.rep.Apart p.2

mutual

/-- The static type, with the type that all items agree on for a list. -/
def type : Deferred → SemanticType
  | leaf e => e.type
  | constant slot => slot.rep.type
  | call m _ => m.returns.type
  | list ds => .list (commonType (typesOf ds))

def typesOf : List Deferred → List SemanticType
  | [] => []
  | d::ds => d.type::typesOf ds

end

section

variable {σ : Type}

mutual

/-- The slot that a description stands for, in some state of the host. -/
def interpret (host : Host σ) (args : List Slot) : Deferred → Run σ Slot
  | leaf e => e.expr.meaning host args Scope.empty
  | constant slot => return slot
  | call m ds => do Run.call host m.routine (← interpretArgs host args ds m.params)
  | list ds => do return .boxed (.list (← interpretItems host args ds))

def interpretArgs (host : Host σ) (args : List Slot) : List Deferred → List Rep → Run σ (List Slot)
  | d::ds,p::params => do
      let slot ← Run.lift ((← d.interpret host args).convert p)
      return slot::(← interpretArgs host args ds params)
  | _,_ => return []

def interpretItems (host : Host σ) (args : List Slot) : List Deferred → Run σ (List Value)
  | [] => return []
  | d::ds => do
      let slot ← d.interpret host args
      return slot.toValue::(← interpretItems host args ds)

end

end

end Deferred

namespace Deferred

open Run

variable {σ : Type} {host : Host σ} {args : List Slot}

/-- Whatever the arguments are, they are passed in the representations of the parameters. -/
theorem interpretArgs_ensures {ds : List Deferred} {params : List Rep} (hl : ds.length=params.length) :
    Ensures (fun slots => slots.map Slot.rep=params) (fun _ => True) (interpretArgs host args ds params) := by
  induction ds generalizing params with
  | nil =>
    have none : params=[] := List.length_eq_zero_iff.mp hl.symm
    rw [none]
    exact .pure rfl
  | cons d ds ih =>
    cases params with
    | nil => cases hl
    | cons p params =>
      rw [interpretArgs]
      apply (Ensures.any (d.interpret host args)).bind
      intro slot _
      have converted : Ensures (fun slot' => slot'.rep=p) (fun _ => True) (Run.lift (slot.convert p) : Run σ Slot) :=
        .lift (fun _ h => Slot.rep_of_convert h) fun _ _ => trivial
      apply converted.bind
      intro slot' hslot
      apply (ih (Nat.succ.inj hl)).bind
      intro slots hslots
      apply Ensures.pure
      rw [List.map_cons,hslot,hslots]

/-- Calls with as many arguments as parameters, well typed expressions, and routines that keep their word. -/
structure WellFormed (host : Host σ) (args : List Slot) (d : Deferred) : Prop where
  counted : d.Counted
  typed : ∀ e∈d.leaves, e.expr.isTyped (args.map Slot.rep) []
  keeps : host.Keeps d.methods

namespace WellFormed

variable {m : Method} {ds : List Deferred}

theorem of_call (h : WellFormed host args (call m ds)) : WellFormed host args (list ds) where
  counted c hc := h.counted c (List.mem_cons_of_mem _ hc)
  typed := h.typed
  keeps m hm := h.keeps m (List.mem_cons_of_mem _ hm)

theorem of_list (h : WellFormed host args (list ds)) {d : Deferred} (hd : d∈ds) : WellFormed host args d where
  counted c hc := h.counted c (by simpa [calls] using ⟨d,hd,hc⟩)
  typed e he := h.typed e (by simpa [leaves] using ⟨d,hd,he⟩)
  keeps m hm := h.keeps m (methods_of_mem_list hd hm)

end WellFormed

theorem interpret_rep {d : Deferred} (h : d.WellFormed host args) :
    Ensures (fun slot => slot.rep=d.rep) (fun _ => True) (d.interpret host args) := by
  cases d with
  | leaf e =>
    have keeps : host.Keeps e.expr.methods := by simpa [methods,calls,leaves] using h.keeps
    exact Expr.meaning_rep (h.typed e (by simp [leaves])) keeps
  | constant slot => exact .pure rfl
  | call m ds =>
    have count : ds.length=m.params.length := h.counted (m,ds) (by simp [calls])
    rw [interpret]
    apply (interpretArgs_ensures count).bind
    intro slots hslots
    exact call_ensures h.keeps (by simp [methods_call]) hslots
  | list ds =>
    rw [interpret]
    exact (Ensures.any _).bind fun _ _ => .pure rfl

theorem admits_of_rep (slot : Slot) : slot.rep.type.admits slot.toValue := by
  cases slot <;> rfl

theorem admits_commonType {types : List SemanticType} {vs : List Value}
    (h : List.Forall₂ (fun t v => SemanticType.admits t v) types vs) : ∀ v∈vs, (commonType types).admits v := by
  cases h with
  | nil => simp
  | @cons t v types vs first rest =>
    rw [commonType]
    split
    · next same =>
      have each : ∀ u∈types, u=t := by simpa using same
      intro w hw
      obtain rfl|hw := List.mem_cons.mp hw
      · exact first
      · obtain ⟨i,hi,rfl⟩ := List.mem_iff_getElem.mp hw
        have item := rest.get (rest.length_eq ▸ hi) hi
        rwa [List.get_eq_getElem,each _ (List.getElem_mem _)] at item
    · exact fun _ _ => rfl

/-- Items one after the other, each with a value of its type. -/
theorem interpretItems_admits {ds : List Deferred}
    (h : ∀ d∈ds, Ensures (fun slot => d.type.admits slot.toValue) (fun _ => True) (d.interpret host args)) :
    Ensures (fun vs => List.Forall₂ (fun t v => SemanticType.admits t v) (typesOf ds) vs) (fun _ => True)
      (interpretItems host args ds) := by
  induction ds with
  | nil => exact .pure .nil
  | cons d ds ih =>
    rw [interpretItems]
    apply (h d (by simp)).bind
    intro slot first
    apply (ih fun d hd => h d (by simp [hd])).bind
    intro vs rest
    exact .pure (.cons first rest)

/-- The value has the static type of the description, if this holds of its expressions. -/
theorem interpret_admits (d : Deferred) (h : d.WellFormed host args)
    (he : ∀ e∈d.leaves, Ensures (fun slot => e.type.admits slot.toValue) (fun _ => True)
      (e.expr.meaning host args Scope.empty)) :
    Ensures (fun slot => d.type.admits slot.toValue) (fun _ => True) (d.interpret host args) := by
  induction d with
  | leaf e => exact he e (by simp [leaves])
  | constant slot => exact .pure (admits_of_rep slot)
  | call m ds _ =>
    apply (interpret_rep h).mono _ fun _ h => h
    intro slot hslot
    have admitted := admits_of_rep slot
    rwa [hslot] at admitted
  | list ds ih =>
    rw [interpret]
    have each : ∀ d∈ds, Ensures (fun slot => d.type.admits slot.toValue) (fun _ => True) (d.interpret host args) := by
      intro d hd
      exact ih d hd (h.of_list hd) fun e hm => he e (by simpa [leaves] using ⟨d,hd,hm⟩)
    apply (interpretItems_admits each).bind
    intro vs items
    apply Ensures.pure
    exact SemanticType.admits_list.mpr (admits_commonType items)

end Deferred

end CallLowering
