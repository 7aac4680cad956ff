import CallLowering.Proofs.Expr.Computes
import CallLowering.Proofs.Machine.Ensures

namespace CallLowering

variable {σ : Type}

/-- The locals that have values satisfy what is known of them. -/
def Scope.Meets (scope : Scope) (known : List (UInt16 × (Slot → Prop))) : Prop :=
  ∀ l∈known, ∀ slot, scope l.1=some slot → l.2 slot

theorem Scope.Meets.bind {scope : Scope} {known : List (UInt16 × (Slot → Prop))} (h : scope.Meets known)
    {index : UInt16} {P : Slot → Prop} {slot : Slot} (hs : P slot) (hn : index∉known.map Prod.fst) :
    (scope.bind index slot).Meets ((index,P)::known) := by
  intro l hl s hv
  obtain rfl|hl := List.mem_cons.mp hl
  · rw [Scope.bind_self] at hv
    cases hv
    exact hs
  · have hne : l.1≠index := fun eq => hn (eq ▸ List.mem_map_of_mem hl)
    rw [Scope.bind_of_ne _ _ hne] at hv
    exact h l hl s hv

namespace Expr

/-- If the tree gives a slot, it satisfies `P`. -/
def Promises (host : Host σ) (args : List Slot) (known : List (UInt16 × (Slot → Prop))) (P : Slot → Prop)
    (e : Expr) : Prop :=
  ∀ pool : Slot → Slot, (∀ slot, (pool slot).canonical=slot.canonical) → ∀ scope : Scope, scope.Meets known →
    Run.Ensures P (fun _ => True) ((e.mapConstants pool).meaning host args scope)

namespace Promises

variable {host : Host σ} {args : List Slot} {known : List (UInt16 × (Slot → Prop))} {P Q R : Slot → Prop}
  {e : Expr}

theorem mono (h : Promises host args known P e) (hQ : ∀ slot, P slot → Q slot) :
    Promises host args known Q e :=
  fun pool hp scope hs => (h pool hp scope hs).mono hQ fun _ h => h

/-- Nothing is promised of every tree. -/
theorem nothing (e : Expr) : Promises host args known (fun _ => True) e := by
  intro pool _ scope _
  exact .of_results fun _ _ _ _ => trivial

theorem weaken (h : Promises host args [] P e) : Promises host args known P e :=
  fun pool hp scope _ => h pool hp scope (by simp [Scope.Meets])

theorem const {slot : Slot} (h : ∀ slot', slot'.canonical=slot.canonical → P slot') :
    Promises host args known P (.const slot) :=
  fun _ hp _ _ => .pure (h _ (hp slot))

theorem arg {index : UInt16} {rep : Rep} {slot : Slot} (hslot : args[index.toNat]?=some slot) (h : P slot) :
    Promises host args known P (.arg index rep) := by
  intro pool _ scope _
  rw [mapConstants,meaning,Run.argument,hslot]
  exact .pure h

theorem readLocal {index : UInt16} {rep : Rep} (h : (index,P)∈known) :
    Promises host args known P (.readLocal index rep) := by
  intro pool _ scope hs
  rw [mapConstants,meaning]
  cases hv : scope index with
  | none => exact .throw trivial
  | some slot => exact .pure (hs _ h slot hv)

theorem convert (h : Promises host args known P e) {target : Rep}
    (hQ : ∀ slot slot', P slot → slot.convert target=.ok slot' → Q slot') :
    Promises host args known Q (.convert e target) := by
  intro pool hp scope hs
  apply (h pool hp scope hs).bind
  exact fun slot hslot => .lift (fun slot' hc => hQ slot slot' hslot hc) fun _ _ => trivial

theorem box (h : Promises host args known P e) (hQ : ∀ slot, P slot → Q slot.box) :
    Promises host args known Q (.box e) := by
  intro pool hp scope hs
  exact (h pool hp scope hs).bind fun slot hslot => .pure (hQ slot hslot)

theorem unbox (h : Promises host args known P e) {target : Rep}
    (hQ : ∀ slot slot', P slot → slot.convert target=.ok slot' → Q slot') :
    Promises host args known Q (.unbox e target) := by
  intro pool hp scope hs
  apply (h pool hp scope hs).bind
  intro slot hslot
  rw [slot.unbox_eq_convert target]
  exact .lift (fun slot' hc => hQ slot slot' hslot hc) fun _ _ => trivial

theorem isNull (h : ∀ b, Q (.bool b)) (e : Expr) : Promises host args known Q (.isNull e) := by
  intro pool hp scope hs
  exact (nothing e pool hp scope hs).bind fun slot _ => .pure (h _)

theorem not (h : ∀ b, Q (.bool b)) (e : Expr) : Promises host args known Q (.not e) := by
  intro pool hp scope hs
  apply (nothing e pool hp scope hs).bind
  intro slot _
  apply (Run.Ensures.lift (P := fun _ => True) (fun _ _ => trivial) fun _ _ => trivial).bind
  exact fun b _ => .pure (h _)

/-- A choice gives what one of its branches gives. -/
theorem select {t f : Expr} (c : Expr) (ht : Promises host args known P t) (hf : Promises host args known P f) :
    Promises host args known P (.select c t f) := by
  intro pool hp scope hs
  apply (nothing c pool hp scope hs).bind
  intro slot _
  apply (Run.Ensures.lift (P := fun _ => True) (fun _ _ => trivial) fun _ _ => trivial).bind
  intro b _
  cases b with
  | true => exact ht pool hp scope hs
  | false => exact hf pool hp scope hs

theorem bind {index : UInt16} {body : Expr} (h : Promises host args known P e)
    (hn : index∉known.map Prod.fst) (hbody : Promises host args ((index,P)::known) Q body) :
    Promises host args known Q (.bind index e body) := by
  intro pool hp scope hs
  apply (h pool hp scope hs).bind
  exact fun slot hslot => hbody pool hp _ (hs.bind hslot hn)

/-- What is promised of trees one after the other. -/
theorem meanings {es : List Expr} {Ps : List (Slot → Prop)}
    (h : List.Forall₂ (fun e P => Promises host args known P e) es Ps) {pool : Slot → Slot}
    (hp : ∀ slot, (pool slot).canonical=slot.canonical) {scope : Scope} (hs : scope.Meets known) :
    Run.Ensures (fun slots => List.Forall₂ (fun slot P => P slot) slots Ps) (fun _ => True)
      (meanings host args scope (mapConstantsOf pool es)) := by
  induction h with
  | nil => exact .pure .nil
  | @cons e P es Ps he _ ih =>
    rw [mapConstantsOf,Expr.meanings]
    apply (he pool hp scope hs).bind
    intro slot hslot
    apply ih.bind
    intro slots hslots
    exact .pure (.cons hslot hslots)

/-- A call gives what the body of its routine answers. -/
theorem invoke {m : Method} {es : List Expr} {Ps : List (Slot → Prop)}
    (h : List.Forall₂ (fun e P => Promises host args known P e) es Ps)
    (hQ : ∀ slots s slot t, List.Forall₂ (fun slot P => P slot) slots Ps →
      host.enter m.routine slots s=(.ok slot,t) → Q slot) : Promises host args known Q (.invoke m es) := by
  intro pool hp scope hs
  apply (meanings h hp hs).bind
  intro slots hslots
  apply Run.Ensures.of_results
  intro s slot t hcall
  obtain ⟨-,-,entered⟩ := Run.call_ok hcall
  exact hQ slots s slot t hslots entered

end Promises

end Expr

end CallLowering
