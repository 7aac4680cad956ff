import CallLowering.Proofs.Chunk.Emission
import CallLowering.Proofs.Expr.Computes
import CallLowering.Proofs.Routine.Results

namespace CallLowering

namespace Slot

/-- The slot of a representation that holds a value is determined by the value. -/
theorem convert_eq_unboxValue (s : Slot) (target : Rep) :
    (s.convert target).toOption=(unboxValue s.toValue target).toOption := by
  cases s <;> cases target <;> rfl

end Slot

namespace Expr

variable {bodies : Instances.Bodies} {args : List Slot}

/-- A tree that computes this value, or faults if it is nothing. -/
structure Sound (bodies : Instances.Bodies) (args : List Slot) (e : Expr) (v : Option Value) : Prop where
  computes : ∃ x, Computes bodies args [] e x ∧ x.map Slot.toValue=v
  settled : e.rep.isNativeNumeric ∨ e.isCheap → v.isSome

namespace Sound

variable {e e' : Expr} {v : Option Value}

/-- A tree in a box or a call, which may fault. -/
theorem of_unsettled {x : Option Slot} (h : Computes bodies args [] e x) (hr : e.rep.isNativeNumeric=false)
    (hc : e.isCheap=false) : Sound bodies args e (x.map Slot.toValue) :=
  ⟨⟨x,h,rfl⟩,by rw [hr,hc]; simp⟩

theorem of_some {slot : Slot} (h : Computes bodies args [] e (some slot)) :
    Sound bodies args e (some slot.toValue) :=
  ⟨⟨some slot,h,rfl⟩,fun _ => rfl⟩

theorem int64 (h : Sound bodies args e v) (hr : e.rep=.int64) :
    ∃ n, Computes bodies args [] e (some (.int64 n)) ∧ v=some (.int n) := by
  obtain ⟨x,hx,rfl⟩ := h.computes
  have hsome := h.settled (.inl (by rw [hr]; rfl))
  cases x with
  | none => cases hsome
  | some slot =>
    obtain ⟨n,rfl⟩ := Slot.exists_int64 ((hx.rep slot rfl).trans hr)
    exact ⟨n,hx,rfl⟩

theorem float64 (h : Sound bodies args e v) (hr : e.rep=.float64) :
    ∃ x, Computes bodies args [] e (some (.float64 x)) ∧ v=some (.float x) := by
  obtain ⟨x,hx,rfl⟩ := h.computes
  have hsome := h.settled (.inl (by rw [hr]; rfl))
  cases x with
  | none => cases hsome
  | some slot =>
    obtain ⟨x,rfl⟩ := Slot.exists_float64 ((hx.rep slot rfl).trans hr)
    exact ⟨x,hx,rfl⟩

theorem coerce (h : Sound bodies args e v) {target : Rep} (hc : e.coerce target=.ok e') :
    Computes bodies args [] e' (v.bind fun v => (Slot.unboxValue v target).toOption) := by
  obtain ⟨x,hx,rfl⟩ := h.computes
  have hx := hx.coerce hc
  rw [Option.bind_map]
  have same : (fun s : Slot => (s.convert target).toOption)=
      fun s : Slot => (Slot.unboxValue s.toValue target).toOption :=
    funext fun s => s.convert_eq_unboxValue target
  rw [same] at hx
  exact hx

/-- Such a tree is emitted, if its code leaves all places within reach of a jump. -/
theorem emitted (h : Sound bodies args e v) (hsize : e.codeSize < 2^32) : ∃ c, e.emit=.ok c := by
  obtain ⟨x,hx,-⟩ := h.computes
  exact Emitter.emit_of_isPlain hx.plain hsize

end Sound

end Expr

/-- What slots hold values in the representations of parameters. -/
def passed (vs : List (Option Value)) (params : List Rep) : List (Option Slot) :=
  List.zipWith (fun v p => v.bind fun v => (Slot.unboxValue v p).toOption) vs params

/-- Values in the representations of parameters. -/
def unboxAll (vs : List Value) (params : List Rep) : Option (List Slot) :=
  (List.zipWith (fun v p => (Slot.unboxValue v p).toOption) vs params).mapM id

theorem mapM_passed {vs : List (Option Value)} {params : List Rep} (h : vs.length=params.length) :
    (passed vs params).mapM id=(vs.mapM id).bind fun vs => unboxAll vs params := by
  induction vs generalizing params with
  | nil => rfl
  | cons v vs ih =>
    cases params with
    | nil => cases h
    | cons p params =>
      have ih := ih (Nat.succ.inj h)
      rw [passed] at ih ⊢
      rw [List.zipWith,List.mapM_cons,List.mapM_cons,ih]
      cases v with
      | none => rfl
      | some v =>
        cases hm : vs.mapM id with
        | none =>
          simp only [Option.bind_some,id]
          cases (Slot.unboxValue v p).toOption <;> rfl
        | some ws =>
          change _=unboxAll (v::ws) (p::params)
          simp only [Option.bind_some,unboxAll,List.zipWith,List.mapM_cons,id]

theorem coerceAll_computes {bodies : Instances.Bodies} {args : List Slot} {es es' : List Expr}
    {vs : List (Option Value)} {params : List Rep} (h : List.Forall₂ (Expr.Sound bodies args) es vs)
    (hc : coerceAll es params=.ok es') : List.Forall₂ (Expr.Computes bodies args []) es' (passed vs params) := by
  induction h generalizing params es' with
  | nil =>
    cases hc
    exact .nil
  | @cons e v es vs he hes ih =>
    cases params with
    | nil =>
      cases hc
      exact .nil
    | cons p params =>
      obtain ⟨e',he',hc⟩ := Failure.bind_ok hc
      obtain ⟨es',hes',hc⟩ := Failure.bind_ok hc
      cases hc
      exact .cons (he.coerce he') (ih hes')

theorem length_passed (vs : List (Option Value)) {params : List Rep} (h : vs.length=params.length) :
    (passed vs params).length=params.length := by
  rw [passed,List.length_zipWith,h,Nat.min_self]

theorem length_of_mapM {α : Type} {xs : List (Option α)} {as : List α} (h : xs.mapM id=some as) :
    as.length=xs.length := by
  induction xs generalizing as with
  | nil =>
    cases h
    rfl
  | cons x xs ih =>
    rw [List.mapM_cons] at h
    obtain ⟨a,-,h⟩ := Option.bind_eq_some_iff.mp h
    obtain ⟨rest,hrest,h⟩ := Option.bind_eq_some_iff.mp h
    cases h
    rw [List.length_cons,List.length_cons,ih hrest]

theorem Builtin.builtin?_routine {b : Builtin} (hb : b≠.randomInt) (owner : String) (params : List Rep)
    (returns : Rep) : (b.routine owner params returns).builtin?=some b := by
  cases b with
  | randomInt => exact absurd rfl hb
  | _ => rfl

theorem Method.invoke_ok {m : Method} {es : List Expr} {e : Expr} (h : m.invoke es=.ok e) :
    es.length=m.arity ∧ e=.invoke m es := by
  rw [Method.invoke] at h
  split at h
  · cases h
  · next hlen =>
    split at h
    · cases h
    · cases h
      exact ⟨not_not.mp hlen,rfl⟩

namespace Build

variable {bodies : Instances.Bodies} {args : List Slot} {b b' : Builder}

theorem invoke_ok {m : Method} {es : List Expr} {e : Expr} (h : Build.invoke m es b=(.ok e,b')) :
    ∃ es', coerceAll es m.params=.ok es' ∧ es'.length=m.arity ∧ e=.invoke m es' := by
  unfold Build.invoke at h
  obtain ⟨b₁,u,hg,h⟩ := Failure.bind_state_ok h
  cases hg
  by_cases hr : (m.routine.onReceiver && !b.runtimes.contains m.routine.owner)=true
  · simp only [if_pos hr] at h
    cases h
  · simp only [if_neg hr] at h
    obtain ⟨es',u,hes,h⟩ := Failure.bind_state_ok h
    obtain ⟨hlen,he⟩ := Method.invoke_ok (Failure.lift_ok h).1
    exact ⟨es',(Failure.lift_ok hes).1,hlen,he⟩

/-- A call of a built-in routine, on the values of its arguments. -/
theorem invoke_computes {routine : Builtin} (hb : routine≠.randomInt) {owner : String} {params : List Rep}
    {cheap : Bool} {es : List Expr} {vs : List (Option Value)} {e : Expr}
    (h : Build.invoke ⟨routine.routine owner params routine.returns,cheap⟩ es b=(.ok e,b'))
    (hes : List.Forall₂ (Expr.Sound bodies args) es vs) (hlen : es.length=params.length)
    (hsmall : params.length < 0x10000) :
    (∃ es', e=.invoke ⟨routine.routine owner params routine.returns,cheap⟩ es') ∧
      Expr.Computes bodies args [] e
        (((passed vs params).mapM id).bind fun slots => (routine.run slots).toOption) := by
  obtain ⟨es',hc,harity,rfl⟩ := invoke_ok h
  refine ⟨⟨es',rfl⟩,?_⟩
  have compute (slots : List Slot) (hs : slots.length=params.length) :
      (routine.routine owner params routine.returns).compute routine slots=routine.run slots :=
    if_neg (not_not.mpr hs)
  have computes := Expr.Computes.invoke (m := ⟨routine.routine owner params routine.returns,cheap⟩)
    (Builtin.builtin?_routine hb owner params routine.returns) (coerceAll_computes hes hc)
    (by rw [harity]; exact hsmall) (by
      intro slots slot hrun
      rw [Routine.compute] at hrun
      split at hrun
      · cases hrun
      · exact Builtin.rep_of_run hrun)
  have hvs : vs.length=params.length := hes.length_eq ▸ hlen
  have same : (((passed vs params).mapM id).bind fun slots =>
      ((routine.routine owner params routine.returns).compute routine slots).toOption)=
      ((passed vs params).mapM id).bind fun slots => (routine.run slots).toOption := by
    cases hm : (passed vs params).mapM id with
    | none => rfl
    | some slots =>
      rw [Option.bind_some,Option.bind_some,compute slots ((length_of_mapM hm).trans (length_passed vs hvs))]
  rw [←same]
  exact computes

/-- A call of a built-in routine as an expression of its own. It may fault, so that it is not settled. -/
theorem invoke_sound {routine : Builtin} (hb : routine≠.randomInt) {owner : String} {params : List Rep}
    {es : List Expr} {vs : List (Option Value)} {e : Expr}
    (h : Build.invoke ⟨routine.routine owner params routine.returns,false⟩ es b=(.ok e,b'))
    (hes : List.Forall₂ (Expr.Sound bodies args) es vs) (hlen : es.length=params.length)
    (hsmall : params.length < 0x10000) (hr : routine.returns.isNativeNumeric=false)
    {g : List Value → Option Value} (hg : ∀ ws, ws.length=params.length →
      ((unboxAll ws params).bind fun slots => (routine.run slots).toOption).map Slot.toValue=g ws) :
    Expr.Sound bodies args e ((vs.mapM id).bind g) := by
  obtain ⟨⟨es',rfl⟩,hcomp⟩ := invoke_computes hb h hes hlen hsmall
  have hvs : vs.length=params.length := hes.length_eq ▸ hlen
  have sound := Expr.Sound.of_unsettled hcomp hr rfl
  rw [mapM_passed hvs] at sound
  cases hm : vs.mapM id with
  | none =>
    rw [hm] at sound
    exact sound
  | some ws =>
    rw [hm,Option.bind_some,hg ws ((length_of_mapM hm).trans hvs)] at sound
    exact sound

/-- A local is taken if there is another one behind it, else the builder is left as it is. -/
theorem freshLocal_eq (b : Builder) : freshLocal b=
    if b.nextLocal.toNat < 65535 then (.ok b.nextLocal,{b with nextLocal := b.nextLocal+1})
    else (.error (.internal "too many locals in one expression"),b) := by
  change (if b.nextLocal.toNat+1 < 0x10000 then (_ : Build UInt16) else _) b=_
  by_cases h : b.nextLocal.toNat < 65535
  · rw [if_pos (Nat.succ_lt_succ h),if_pos h]
    rfl
  · rw [if_neg (fun hn => h (Nat.lt_of_succ_lt_succ hn)),if_neg h]
    rfl

theorem toNat_nextLocal {b : Builder} (h : b.nextLocal.toNat < 65535) :
    (b.nextLocal+1).toNat=b.nextLocal.toNat+1 := by
  rw [UInt16.toNat_add]
  exact Nat.mod_eq_of_lt (Nat.succ_lt_succ h)

theorem freshLocal_ok {index : UInt16} (h : freshLocal b=(.ok index,b')) :
    index=b.nextLocal ∧ index.toNat ≤ 65534 ∧ b'.nextLocal.toNat=index.toNat+1 := by
  rw [freshLocal_eq] at h
  by_cases hn : b.nextLocal.toNat < 65535
  · rw [if_pos hn] at h
    cases h
    exact ⟨rfl,Nat.le_of_lt_succ hn,toNat_nextLocal hn⟩
  · rw [if_neg hn] at h
    cases h

/-- What caching a tree may lead to: the tree again, if it is cheap, or a binding of one of the locals that
were free. -/
inductive Kept (e : Expr) (low high : Nat) : Cached → Prop
  | inlined (hc : e.isCheap) (hle : low ≤ high) : Kept e low high (.inlined e)
  | bound {index : UInt16} (hl : low ≤ index.toNat) (hh : index.toNat < high) (hi : index.toNat ≤ 65534) :
      Kept e low high (.bound index e)

theorem cache_ok {e : Expr} {c : Cached} (h : cache e b=(.ok c,b')) :
    Kept e b.nextLocal.toNat b'.nextLocal.toNat c := by
  rw [cache] at h
  cases hc : e.isCheap with
  | true =>
    rw [if_pos hc] at h
    cases h
    exact .inlined hc (Nat.le_refl _)
  | false =>
    rw [if_neg (by rw [hc]; decide)] at h
    obtain ⟨index,u,hf,h⟩ := Failure.bind_state_ok h
    cases h
    obtain ⟨heq,hi,hnext⟩ := freshLocal_ok hf
    exact .bound (Nat.le_of_eq (congrArg UInt16.toNat heq.symm)) (by omega) hi

end Build

/-- The local that a cached tree leaves known. -/
def Cached.known (slot : Slot) : Cached → List (UInt16 × Slot)
  | .inlined _ => []
  | .bound index _ => [(index,slot)]

namespace Build.Kept

variable {bodies : Instances.Bodies} {args : List Slot} {known : List (UInt16 × Slot)} {e : Expr}
  {low high : Nat} {c : Cached} {slot : Slot}

theorem le (h : Kept e low high c) : low ≤ high := by
  cases h with
  | inlined hc hle => exact hle
  | bound hl hh hi => omega

theorem known_range (h : Kept e low high c) : ∀ l∈c.known slot, low ≤ l.1.toNat ∧ l.1.toNat < high := by
  cases h with
  | inlined hc hle => simp [Cached.known]
  | bound hl hh hi =>
    intro l hm
    rw [List.mem_singleton.mp hm]
    exact ⟨hl,hh⟩

/-- Reading a cached tree, where no local is known that it binds itself. -/
theorem reference (h : Kept e low high c) (hc : Expr.Computes bodies args [] e (some slot))
    (hk : ∀ l∈c.known slot, l∈known) (hb : ∀ i∈e.bound, i∉known.map Prod.fst) :
    Expr.Computes bodies args known c.reference (some slot) := by
  cases h with
  | inlined _ _ => exact hc.weaken hb
  | bound _ _ _ => exact .readLocal (hk _ (List.mem_singleton.mpr rfl)) (hc.rep slot rfl)

/-- Computing a cached tree before a body that reads it. -/
theorem finish (h : Kept e low high c) (hc : Expr.Computes bodies args known e (some slot)) {body : Expr}
    {y : Option Slot} (hk : ∀ l∈known, l.1.toNat < low)
    (hbody : Expr.Computes bodies args (c.known slot++known) body y) :
    Expr.Computes bodies args known (c.finish body) y := by
  cases h with
  | inlined _ _ => exact hbody
  | bound hl _ hi =>
    apply hc.bind hi _ hbody
    intro hm
    obtain ⟨l,hl',heq⟩ := List.mem_map.mp hm
    have := hk l hl'
    rw [heq] at this
    omega

end Build.Kept

end CallLowering
