import CallLowering.Expr.Builder
import CallLowering.Proofs.Expr.Plain
import CallLowering.Proofs.Machine.Simulation
import Mathlib.Data.List.Forall2

namespace CallLowering

/-- A computation that leaves the state of the host alone and gives this, or faults if it is nothing. -/
inductive Run.Gives {σ α : Type} : Run σ α → Option α → Prop
  | some {x : Run σ α} {a : α} (h : x=pure a) : Gives x (some a)
  | none {x : Run σ α} {fault : Fault} (h : x=throw fault) : Gives x none

namespace Run.Gives

variable {σ α β : Type} {x : Run σ α} {r : Option α}

theorem bind {f : α → Run σ β} {g : α → Option β} (h : Gives x r)
    (hf : ∀ a, r=.some a → Gives (f a) (g a)) : Gives (x >>= f) (r.bind g) := by
  cases h with
  | some h =>
    rw [h,pure_bind]
    exact hf _ rfl
  | none h =>
    rw [h]
    exact .none rfl

theorem bind_some {a : α} {f : α → Run σ β} {r : Option β} (h : Gives x (.some a)) (hf : Gives (f a) r) :
    Gives (x >>= f) r :=
  h.bind (g := fun _ => r) fun b hb => by cases hb; exact hf

theorem bind_none {f : α → Run σ β} (h : Gives x Option.none) : Gives (x >>= f) Option.none :=
  h.bind (g := fun _ => Option.none) fun _ h => nomatch h

theorem lift (x : Except RoutineError α) : Gives (Run.lift x : Run σ α) x.toOption := by
  cases x with
  | ok a => exact .some rfl
  | error e => exact .none rfl

theorem map (h : Gives x r) (f : α → β) : Gives (do return f (← x)) (r.map f) := by
  rw [Option.map_eq_bind]
  exact h.bind fun a _ => .some rfl

/-- What a computation gives is determined, if the host has any state at all. -/
theorem of_pure {a : α} (h : Gives (pure a : Run σ α) r) (s : σ) : r=.some a := by
  generalize hx : (pure a : Run σ α)=x at h
  cases h with
  | some h =>
    have same := congrFun (hx.trans h) s
    cases same
    rfl
  | none h =>
    have same := congrFun (hx.trans h) s
    cases same

end Run.Gives

namespace Expr

section

variable {σ : Type} {host : Host σ} {args : List Slot} {scope : Scope}

/-- A condition decides which branch gives the slot. -/
theorem gives_select {c t f : Expr} {b : Bool} {y z : Option Slot}
    (hc : Run.Gives (c.meaning host args scope) (some (.bool b))) (ht : Run.Gives (t.meaning host args scope) y)
    (hf : Run.Gives (f.meaning host args scope) z) :
    Run.Gives ((select c t f).meaning host args scope) (if b then y else z) := by
  rw [meaning]
  apply hc.bind_some
  cases b with
  | true => exact ht
  | false => exact hf

theorem gives_compare {k : Comparison} {lhs rhs : Expr} {a b : Slot} {o : Option Ordering}
    (hl : Run.Gives (lhs.meaning host args scope) (some a)) (hr : Run.Gives (rhs.meaning host args scope) (some b))
    (ho : a.order b=.ok o) :
    Run.Gives ((compare k lhs rhs).meaning host args scope) (some (.bool (k.holds o))) := by
  rw [meaning]
  apply hl.bind_some
  apply hr.bind_some
  rw [ho]
  exact .some rfl

end

/-- A plain tree that gives this slot for these arguments, wherever the locals that it may read are as
known. -/
structure Computes (bodies : Instances.Bodies) (args : List Slot) (known : List (UInt16 × Slot)) (e : Expr)
    (x : Option Slot) : Prop where
  plain : e.isPlain
  reach : e.isScoped (known.map Prod.fst)
  gives : ∀ scope : Scope, (∀ l∈known, scope l.1=some l.2) →
    Run.Gives (e.meaning (Instances.host bodies) args scope) x
  rep : ∀ slot, x=some slot → slot.rep=e.rep

end Expr

namespace Slot

theorem exists_int64 {s : Slot} (h : s.rep=.int64) : ∃ n, s=.int64 n := by
  cases s with
  | int64 n => exact ⟨n,rfl⟩
  | _ => cases h

theorem exists_float64 {s : Slot} (h : s.rep=.float64) : ∃ x, s=.float64 x := by
  cases s with
  | float64 x => exact ⟨x,rfl⟩
  | _ => cases h

theorem convert_self (s : Slot) : s.convert s.rep=.ok s := by
  cases s <;> rfl

theorem unbox_eq_convert (s : Slot) (target : Rep) : s.unbox target=s.convert target := by
  cases s <;> rfl

theorem convert_boxed (s : Slot) : s.convert .boxed=.ok s.box := by
  cases s <;> rfl

theorem rep_of_convert {s s' : Slot} {target : Rep} (h : s.convert target=.ok s') : s'.rep=target := by
  have unboxed {v : Value} (h : unboxValue v target=.ok s') : s'.rep=target := by
    have map_rep {α : Type} {x : Except RoutineError α} {f : α → Slot} (hf : ∀ a, (f a).rep=target)
        (h : x.map f=.ok s') : s'.rep=target := by
      cases x with
      | error e => cases h
      | ok a =>
        cases h
        exact hf a
    cases target with
    | int64 => exact map_rep (fun n => rfl) h
    | float64 => exact map_rep (fun x => rfl) h
    | bool => exact map_rep (fun b => rfl) h
    | boxed =>
      cases h
      rfl
  cases s with
  | boxed v => exact unboxed h
  | int64 n => cases target <;> cases h <;> rfl
  | float64 x => cases target <;> cases h <;> rfl
  | bool b => cases target <;> cases h <;> rfl

end Slot

theorem Slot.isNullish_toValue (s : Slot) : s.isNullish=s.toValue.isNullish := by
  cases s <;> rfl

theorem Slot.not_isNullish {s : Slot} (h : s.rep≠.boxed) : s.toValue.isNullish=false := by
  cases s with
  | boxed v => exact absurd rfl h
  | _ => rfl

namespace Expr.Computes

variable {bodies : Instances.Bodies} {args : List Slot} {known : List (UInt16 × Slot)} {e : Expr}
  {x : Option Slot}

theorem const (slot : Slot) : Computes bodies args known (.const slot) (some slot) :=
  ⟨rfl,rfl,fun _ _ => .some rfl,fun _ h => by cases h; rfl⟩

theorem arg {index : UInt16} {rep : Rep} {slot : Slot} (h : args[index.toNat]?=some slot)
    (hrep : slot.rep=rep) : Computes bodies args known (.arg index rep) (some slot) := by
  refine ⟨rfl,rfl,fun _ _ => .some ?_,fun _ h => by cases h; exact hrep⟩
  rw [meaning,Run.argument,h]

theorem readLocal {index : UInt16} {rep : Rep} {slot : Slot} (h : (index,slot)∈known)
    (hrep : slot.rep=rep) : Computes bodies args known (.readLocal index rep) (some slot) := by
  refine ⟨rfl,?_,fun scope hk => .some ?_,fun _ h => by cases h; exact hrep⟩
  · simp only [isScoped,decide_eq_true_eq]
    exact List.mem_map_of_mem h
  · rw [meaning,hk (index,slot) h]
    rfl

/-- A tree that needs no locals may stand where there are some, unless it binds them itself. -/
theorem weaken (h : Computes bodies args [] e x) (hb : ∀ i∈e.bound, i∉known.map Prod.fst) :
    Computes bodies args known e x :=
  ⟨h.plain,isScoped_mono e (by simp) (fun i hi hin => absurd hin (hb i hi)) h.reach,
    fun scope _ => h.gives scope (by simp),h.rep⟩

/-- Binding a local that is not in reach. -/
theorem bind {index : UInt16} {slot : Slot} {body : Expr} {y : Option Slot}
    (h : Computes bodies args known e (some slot)) (hi : index.toNat ≤ 65534)
    (hn : index∉known.map Prod.fst) (hbody : Computes bodies args ((index,slot)::known) body y) :
    Computes bodies args known (.bind index e body) y := by
  refine ⟨?_,?_,?_,hbody.rep⟩
  · simp only [isPlain,Bool.and_eq_true]
    exact ⟨h.plain,hbody.plain⟩
  · simp only [isScoped,Bool.and_eq_true,decide_eq_true_eq]
    exact ⟨⟨⟨hi,hn⟩,h.reach⟩,hbody.reach⟩
  · intro scope hk
    rw [meaning]
    apply (h.gives scope hk).bind_some
    apply hbody.gives
    intro l hl
    obtain hl|hl := List.mem_cons.mp hl
    · rw [hl]
      exact Scope.bind_self ..
    · have hne : l.1≠index := fun eq => hn (eq ▸ List.mem_map_of_mem hl)
      rw [Scope.bind_of_ne _ _ hne]
      exact hk l hl

theorem bind_none {index : UInt16} {body : Expr} (h : Computes bodies args known e none)
    (hi : index.toNat ≤ 65534) (hn : index∉known.map Prod.fst) (hp : body.isPlain)
    (hs : body.isScoped (index::known.map Prod.fst)) :
    Computes bodies args known (.bind index e body) none := by
  refine ⟨?_,?_,?_,by simp⟩
  · simp only [isPlain,Bool.and_eq_true]
    exact ⟨h.plain,hp⟩
  · simp only [isScoped,Bool.and_eq_true,decide_eq_true_eq]
    exact ⟨⟨⟨hi,hn⟩,h.reach⟩,hs⟩
  · intro scope hk
    rw [meaning]
    exact (h.gives scope hk).bind_none

theorem converted (h : Computes bodies args known e x) {e' : Expr} {target : Rep}
    (hp : e'.isPlain=e.isPlain) (hs : ∀ inside, e'.isScoped inside=e.isScoped inside)
    (hr : e'.rep=target) {f : Slot → Except RoutineError Slot}
    (hm : ∀ scope, e'.meaning (Instances.host bodies) args scope=
      (do Run.lift (f (← e.meaning (Instances.host bodies) args scope))))
    (hf : ∀ slot, x=some slot → f slot=slot.convert target) :
    Computes bodies args known e' (x.bind fun s => (s.convert target).toOption) := by
  refine ⟨hp.trans h.plain,(hs _).trans h.reach,?_,?_⟩
  · intro scope hk
    rw [hm]
    apply (h.gives scope hk).bind
    intro slot hslot
    rw [hf slot hslot]
    exact .lift _
  · intro slot hslot
    obtain ⟨s,hs,hc⟩ := Option.bind_eq_some_iff.mp hslot
    rw [hr]
    cases hconv : s.convert target with
    | error e => rw [hconv] at hc; cases hc
    | ok s' =>
      rw [hconv] at hc
      cases hc
      exact Slot.rep_of_convert hconv

theorem convert (h : Computes bodies args known e x) (target : Rep) :
    Computes bodies args known (.convert e target) (x.bind fun s => (s.convert target).toOption) :=
  h.converted rfl (fun _ => rfl) rfl (fun _ => rfl) fun _ _ => rfl

theorem isNull (h : Computes bodies args known e x) :
    Computes bodies args known (.isNull e) (x.map fun s => .bool s.isNullish) := by
  refine ⟨h.plain,h.reach,fun scope hk => (h.gives scope hk).map _,?_⟩
  intro slot hslot
  obtain ⟨s,-,hs⟩ := Option.map_eq_some_iff.mp hslot
  rw [←hs]
  rfl

theorem not {b : Option Bool} (h : Computes bodies args known e (b.map Slot.bool)) :
    Computes bodies args known (.not e) (b.map fun b => .bool !b) := by
  refine ⟨h.plain,h.reach,?_,?_⟩
  · intro scope hk
    have gives := (h.gives scope hk).bind (f := fun s => do return Slot.bool (!(← Run.lift s.toBool)))
      (g := fun s => s.toBool.toOption.map fun b => Slot.bool !b) fun s _ => (Run.Gives.lift _).map _
    cases b with
    | none => exact gives
    | some b => exact gives
  · intro slot hslot
    obtain ⟨b,-,hs⟩ := Option.map_eq_some_iff.mp hslot
    rw [←hs]
    rfl

theorem compare {k : Comparison} {lhs rhs : Expr} {a b : Slot} {o : Option Ordering}
    (hl : Computes bodies args known lhs (some a)) (hr : Computes bodies args known rhs (some b))
    (ho : a.order b=.ok o) : Computes bodies args known (.compare k lhs rhs) (some (.bool (k.holds o))) := by
  refine ⟨?_,?_,?_,fun _ h => by cases h; rfl⟩
  · simp only [isPlain,Bool.and_eq_true]
    exact ⟨hl.plain,hr.plain⟩
  · simp only [isScoped,Bool.and_eq_true]
    exact ⟨hl.reach,hr.reach⟩
  · exact fun scope hk => gives_compare (hl.gives scope hk) (hr.gives scope hk) ho

theorem select {c t f : Expr} {b : Bool} {y z : Option Slot}
    (hc : Computes bodies args known c (some (.bool b))) (ht : Computes bodies args known t y)
    (hf : Computes bodies args known f z) (hrep : t.rep=f.rep) :
    Computes bodies args known (.select c t f) (if b then y else z) := by
  refine ⟨?_,?_,?_,?_⟩
  · simp only [isPlain,Bool.and_eq_true,decide_eq_true_eq]
    exact ⟨⟨⟨hrep,hc.plain⟩,ht.plain⟩,hf.plain⟩
  · simp only [isScoped,Bool.and_eq_true]
    exact ⟨⟨hc.reach,ht.reach⟩,hf.reach⟩
  · exact fun scope hk => gives_select (hc.gives scope hk) (ht.gives scope hk) (hf.gives scope hk)
  · intro slot hslot
    cases b with
    | true => exact ht.rep slot hslot
    | false => exact (hf.rep slot hslot).trans hrep.symm

/-- Changing the representation of a tree converts what it gives. -/
theorem coerce (h : Computes bodies args [] e x) {e' : Expr} {target : Rep} (hc : e.coerce target=.ok e') :
    Computes bodies args [] e' (x.bind fun s => (s.convert target).toOption) := by
  rw [Expr.coerce] at hc
  split at hc
  · next hrep =>
    cases hc
    have same : (x.bind fun s => (s.convert target).toOption)=x := by
      cases x with
      | none => rfl
      | some slot =>
        rw [←hrep,←h.rep slot rfl]
        exact congrArg Except.toOption slot.convert_self
    rw [same]
    exact h
  · next hrep =>
    split at hc
    · next folded hfold =>
      cases hc
      cases e with
      | const slot =>
        have hx : x=some slot := (h.gives Scope.empty (by simp)).of_pure Instances.empty
        obtain ⟨s,hs,rfl⟩ := Option.map_eq_some_iff.mp hfold
        rw [hx,Option.bind_some,hs]
        exact .const s
      | _ => cases hfold
    · split at hc
      · next hbox =>
        cases hc
        refine h.converted rfl (fun _ => rfl) hbox.symm (f := fun s => .ok s.box) (fun _ => rfl) ?_
        intro slot _
        rw [hbox,slot.convert_boxed]
      · split at hc
        · cases hc
          exact h.converted rfl (fun _ => rfl) rfl (fun _ => rfl) fun s _ => s.unbox_eq_convert target
        · split at hc
          · cases hc
            exact h.convert target
          · cases hc

/-- What trees give one after the other: nothing, if one of them gives nothing. -/
theorem meanings_gives {es : List Expr} {xs : List (Option Slot)}
    (h : List.Forall₂ (Computes bodies args known) es xs) {scope : Scope}
    (hk : ∀ l∈known, scope l.1=some l.2) :
    Run.Gives (meanings (Instances.host bodies) args scope es) (xs.mapM id) := by
  induction h with
  | nil => exact .some rfl
  | @cons e x es xs h hs ih =>
    rw [meanings,List.mapM_cons]
    apply (h.gives scope hk).bind
    intro slot _
    exact ih.bind fun slots _ => .some rfl

/-- A call of a plain routine, on what its arguments give. -/
theorem invoke {m : Method} {b : Builtin} (hb : m.routine.builtin?=some b) {es : List Expr}
    {xs : List (Option Slot)} (h : List.Forall₂ (Computes bodies args known) es xs)
    (hlen : es.length < 0x10000)
    (hrep : ∀ slots slot, m.routine.compute b slots=.ok slot → slot.rep=m.returns) :
    Computes bodies args known (.invoke m es)
      ((xs.mapM id).bind fun slots => (m.routine.compute b slots).toOption) := by
  have each : ∀ e∈es, ∃ x, Computes bodies args known e x := by
    intro e he
    obtain ⟨i,hi,rfl⟩ := List.mem_iff_getElem.mp he
    exact ⟨_,h.get hi (h.length_eq ▸ hi)⟩
  refine ⟨?_,?_,?_,?_⟩
  · simp only [isPlain,hb,Option.isSome_some,hlen,decide_true,Bool.true_and,arePlain_iff]
    intro e he
    obtain ⟨x,hx⟩ := each e he
    exact hx.plain
  · simp only [isScoped,areScoped_iff]
    intro e he
    obtain ⟨x,hx⟩ := each e he
    exact hx.reach
  · intro scope hk
    rw [meaning]
    apply (meanings_gives h hk).bind
    intro slots _
    rw [Instances.call_eq_lift bodies hb]
    exact .lift _
  · intro slot hslot
    obtain ⟨slots,-,hc⟩ := Option.bind_eq_some_iff.mp hslot
    cases hrun : m.routine.compute b slots with
    | error e => rw [hrun] at hc; cases hc
    | ok s =>
      rw [hrun] at hc
      cases hc
      exact hrep slots slot hrun

end Expr.Computes

namespace Expr

variable {bodies : Instances.Bodies} {args : List Slot}

/-- Constants that stand in for those of a tree are the same in canonical form. -/
theorem pooled_canonical (c : Chunk) (slot : Slot) : (c.pooled slot).canonical=slot.canonical := by
  rw [Chunk.pooled]
  cases hf : c.constants.find? fun k => k.equals slot with
  | none => rfl
  | some k => exact Slot.canonical_of_equals (by simpa using Array.find?_some hf)

/-- Compiling a tree and running the chunk gives what the tree computes, in canonical form. -/
theorem evaluate_of_computes {e : Expr} {x : Option Slot} (h : Computes bodies args [] e x) {c : Chunk}
    (hc : e.emit=.ok c) (i : Instances) :
    match x with
    | some slot => ∃ slot', e.evaluate (Instances.host bodies) args i=(.ok slot',i) ∧
        slot'.canonical=slot.canonical
    | none => ∃ fault, e.evaluate (Instances.host bodies) args i=(.error fault,i) := by
  have scopes : Scope.empty.Alike Scope.empty := fun _ => rfl
  have alike := meaning_canonical bodies args (pooled_canonical c) e h.plain scopes i
  rw [←evaluate_pooled hc h.reach] at alike
  have gives := h.gives Scope.empty (by simp)
  cases gives with
  | some eq =>
    rw [eq] at alike
    generalize e.evaluate (Instances.host bodies) args i=ended at alike ⊢
    cases alike with
    | ok s hab => exact ⟨_,rfl,hab⟩
  | none eq =>
    rw [eq] at alike
    generalize e.evaluate (Instances.host bodies) args i=ended at alike ⊢
    cases alike with
    | error e s => exact ⟨_,rfl⟩

end Expr

end CallLowering
