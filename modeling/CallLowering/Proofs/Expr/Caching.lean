import CallLowering.Proofs.Chunk.Pooling
import CallLowering.Proofs.Expr.Filled
import CallLowering.Proofs.Library.Chosen

namespace CallLowering

open CallLowering.Expr

/-- How many of the trees take a local. -/
def Expr.dear (es : List Expr) : Nat := es.countP fun e => !e.isCheap

/-- Computes what is kept in locals before `body`, the first one first. -/
def Cached.finishAll (cs : List Cached) (body : Expr) : Expr := cs.foldr finish body

namespace Build

/-- Caches trees, the first one first. -/
def cacheAll : List Expr → Build (List Cached)
  | [] => return []
  | e::es => do
      let c ← cache e
      return c::(← cacheAll es)

/-- What is kept of the trees where the locals from `low` on are free. -/
inductive KeptAll : Nat → List Expr → List Cached → Prop
  | nil {low : Nat} : KeptAll low [] []
  | inlined {low : Nat} {e : Expr} {es : List Expr} {cs : List Cached} (hc : e.isCheap) (rest : KeptAll low es cs) :
      KeptAll low (e::es) (.inlined e::cs)
  | bound {low : Nat} {e : Expr} {es : List Expr} {cs : List Cached} {index : UInt16} (hc : ¬e.isCheap)
      (hi : index.toNat=low) (rest : KeptAll (low+1) es cs) : KeptAll low (e::es) (.bound index e::cs)

theorem dear_of_isCheap {e : Expr} (hc : e.isCheap) (es : List Expr) : dear (e::es)=dear es := by
  rw [dear,List.countP_cons_of_neg (by simpa using hc)]
  rfl

theorem dear_of_not_isCheap {e : Expr} (hc : ¬e.isCheap) (es : List Expr) : dear (e::es)=dear es+1 := by
  rw [dear,List.countP_cons_of_pos (by simpa using hc)]
  rfl

theorem cacheAll_of_isCheap {e : Expr} (hc : e.isCheap) (es : List Expr) (b : Builder) :
    cacheAll (e::es) b=(do return .inlined e::(← cacheAll es) : Build (List Cached)) b := by
  rw [cacheAll,cache,if_pos hc,pure_bind]

theorem cacheAll_of_not_isCheap {e : Expr} (hc : ¬e.isCheap) (es : List Expr) (b : Builder) :
    cacheAll (e::es) b=(do
      let index ← freshLocal
      return .bound index e::(← cacheAll es) : Build (List Cached)) b := by
  rw [cacheAll,cache,if_neg hc,bind_assoc]
  simp only [pure_bind]

/-- Trees are cached as long as there is a local for each that needs one. -/
theorem cacheAll_eq (es : List Expr) (b : Builder) : (∃ cs next, cacheAll es b=(.ok cs,{b with nextLocal := next}) ∧
      KeptAll b.nextLocal.toNat es cs ∧ next.toNat=b.nextLocal.toNat+dear es) ∨
    (cacheAll es b=(.error (.internal "too many locals in one expression"),{b with nextLocal := 65535}) ∧
      65535 < b.nextLocal.toNat+dear es) := by
  induction es generalizing b with
  | nil => exact .inl ⟨[],b.nextLocal,rfl,.nil,rfl⟩
  | cons e es ih =>
    by_cases hc : e.isCheap
    · rw [cacheAll_of_isCheap hc,dear_of_isCheap hc,Failure.bind_apply]
      obtain ⟨cs,next,cached,kept,hn⟩|⟨failed,beyond⟩ := ih b
      · rw [cached]
        exact .inl ⟨_,next,rfl,.inlined hc kept,hn⟩
      · rw [failed]
        exact .inr ⟨rfl,beyond⟩
    rw [cacheAll_of_not_isCheap hc,dear_of_not_isCheap hc,Failure.bind_apply,freshLocal_eq]
    by_cases hlt : b.nextLocal.toNat < 65535
    · rw [if_pos hlt]
      have step := toNat_nextLocal hlt
      simp only [Failure.bind_apply]
      obtain ⟨cs,next,cached,kept,hn⟩|⟨failed,beyond⟩ := ih {b with nextLocal := b.nextLocal+1}
      · rw [cached]
        rw [step] at kept hn
        exact .inl ⟨_,next,rfl,.bound hc rfl kept,by omega⟩
      · rw [failed]
        rw [step] at beyond
        exact .inr ⟨rfl,by omega⟩
    · rw [if_neg hlt]
      have last : b.nextLocal=65535 := by
        apply UInt16.toNat_inj.mp
        have small := b.nextLocal.toNat_lt
        have value : (65535 : UInt16).toNat=65535 := rfl
        omega
      refine .inr ⟨?_,by omega⟩
      rw [← last]

namespace KeptAll

variable {low : Nat} {es : List Expr} {cs : List Cached}

/-- The locals that are taken are consecutive numbers. -/
theorem locals_eq (h : KeptAll low es cs) : (cs.flatMap Cached.locals).map UInt16.toNat=List.range' low (dear es) := by
  induction h with
  | nil => rfl
  | inlined hc rest ih => rw [dear_of_isCheap hc,←ih,List.flatMap_cons,Cached.locals,List.nil_append]
  | bound hc hi rest ih =>
    rw [dear_of_not_isCheap hc,List.range'_succ,←ih,←hi]
    rfl

theorem mem_bound_finishAll (h : KeptAll low es cs) {body : Expr} {i : UInt16}
    (hi : i∈(Cached.finishAll cs body).bound) : i∈cs.flatMap Cached.locals ∨ i∈boundIn es ∨ i∈body.bound := by
  induction h with
  | nil => exact .inr (.inr hi)
  | inlined hc rest ih => exact (ih hi).imp_right (Or.imp_left (List.mem_append_right _))
  | bound hc hx rest ih =>
    obtain rfl|hi := List.mem_cons.mp hi
    · exact .inl List.mem_cons_self
    obtain hi|hi := List.mem_append.mp hi
    · exact .inr (.inl (List.mem_append_left _ hi))
    · exact (ih hi).imp (List.mem_cons_of_mem _) (Or.imp_left (List.mem_append_right _))

theorem locals_subset (h : KeptAll low es cs) (body : Expr) :
    cs.flatMap Cached.locals⊆(Cached.finishAll cs body).bound := by
  induction h with
  | nil => simp
  | inlined hc rest ih => exact ih
  | bound hc hi rest ih => exact List.cons_subset_cons _ (List.subset_append_of_subset_right _ ih)

/-- Each of the locals is at least `low`, and there are no more than are taken. -/
theorem range_of_mem (h : KeptAll low es cs) {i : UInt16} (hi : i∈cs.flatMap Cached.locals) :
    low ≤ i.toNat ∧ i.toNat < low+dear es := by
  have place : i.toNat∈(cs.flatMap Cached.locals).map UInt16.toNat := List.mem_map_of_mem hi
  rw [h.locals_eq] at place
  exact List.mem_range'_1.mp place

end KeptAll

end Build

variable {σ : Type} {host : Host σ} {args : List Slot} {inside : List UInt16} {locals : Locals}

/-- Trees that are computed one after the other, each once and on the same locals, of which they read those inside.
The trees before it are not read: their values, which are listed with their references, are filled in. -/
inductive Expr.Computed (host : Host σ) (args : List Slot) (inside : List UInt16) (locals : Locals) :
    List (Expr × Slot) → List Expr → List Cached → σ → List (Expr × Slot) → σ → Prop
  | nil {refs : List (Expr × Slot)} {s : σ} : Computed host args inside locals refs [] [] s refs s
  | cons {refs refs' : List (Expr × Slot)} {e e' : Expr} {es : List Expr} {c : Cached} {cs : List Cached}
      {after : Locals} {s t u : σ} {slot : Slot} (hf : Filled refs e e') (ho : e'.outside⊆inside)
      (he : e'.execute host args id locals s=(.ok (slot,after),t))
      (rest : Computed host args inside locals (refs++[(c.reference,slot)]) es cs t refs' u) :
      Computed host args inside locals refs (e::es) (c::cs) s refs' u

/-- The locals that may be read are below `n`, and so are those that the trees bind, which are others. -/
structure Expr.Hygienic (n : Nat) (inside bound : List UInt16) : Prop where
  inside : ∀ i∈inside, i.toNat < n ∧ i∉bound
  bound : ∀ i∈bound, i.toNat < n

/-- What holds of the references whatever they mean: they bind nothing, and read neither a local that is still free
nor one of those that the trees bind. -/
structure Expr.Steady (low : Nat) (bound : List UInt16) (refs : List (Expr × Slot)) : Prop where
  unbound : ∀ r∈refs, r.1.bound=[]
  reads : ∀ r∈refs, ∀ i∈r.1.outside, i.toNat < low ∧ i∉bound

namespace Expr

open Locals Build

variable {n low : Nat} {bound : List UInt16} {refs refs' : List (Expr × Slot)} {e e' : Expr} {slot : Slot}
  {now after : Locals} {s t : σ}

theorem Steady.append (h : Steady low bound refs) {low' : Nat} (hl : low ≤ low') {ref : Expr} (hb : ref.bound=[])
    (ho : ∀ i∈ref.outside, i.toNat < low' ∧ i∉bound) (slot : Slot) : Steady low' bound (refs++[(ref,slot)]) where
  unbound := List.forall_mem_append.mpr ⟨h.unbound,List.forall_mem_singleton.mpr hb⟩
  reads := List.forall_mem_append.mpr ⟨fun r hr i hi => ⟨Nat.lt_of_lt_of_le (h.reads r hr i hi).1 hl,
    (h.reads r hr i hi).2⟩,List.forall_mem_singleton.mpr ho⟩

/-- What a tree reads from outside, references included. -/
theorem Steady.outside (h : Steady low bound refs) (hy : Hygienic n inside bound) (hn : n ≤ low) (hf : Filled refs e e')
    (ho : e'.outside⊆inside) : ∀ i∈e.outside, i.toNat < low ∧ i∉bound := by
  intro i hi
  obtain inner|ref := outside_of_filled e hf i hi
  · obtain ⟨hlt,apart⟩ := hy.inside i (ho inner)
    exact ⟨Nat.lt_of_lt_of_le hlt hn,apart⟩
  · obtain ⟨_,hm,hout⟩ := mem_outsideOf.mp ref
    obtain ⟨r,hr,rfl⟩ := List.mem_map.mp hm
    exact h.reads r hr i hout

/-- A tree that uses references ends as it does with their values, and keeps what may be read. -/
theorem Steady.execute (h : Steady low bound refs) (hy : Hygienic n inside bound)
    (ht : Tracks host args inside refs now locals) (hf : Filled refs e e') (hb : e.bound⊆bound) (ho : e'.outside⊆inside)
    (he : e'.execute host args id locals s=(.ok (slot,after),t)) : ∃ next,
      e.execute host args id now s=(.ok (slot,next),t) ∧ next.size=now.size ∧
        Tracks host args inside refs next locals := by
  have apart : ∀ i∈e.bound, ∀ r∈refs, i∉r.1.outside := fun i hi r hr hout => (h.reads r hr i hout).2 (hb hi)
  have ended := execute_abreast h.unbound e hf apart ho ht s
  have keeps : Frames e.bound now (e.execute host args id now) := e.execute_frames now
  have frames := keeps s
  rw [he] at ended
  generalize e.execute host args id now s=x at ended frames ⊢
  cases ended with
  | @ok a _ t hR =>
    obtain ⟨a,next⟩ := a
    obtain ⟨rfl,tracks⟩ := hR
    refine ⟨next,rfl,frames.size,frames.size.trans ht.size,fun i hi => ?_,tracks.means⟩
    -- what is read stands in no local that the tree binds
    rw [frames.others i.toNat fun j hj eq => (hy.inside i hi).2 (UInt16.toNat_inj.mp eq ▸ hb hj),ht.agree i hi]

/-- A cheap tree that has ended well once always gives the same slot, and changes nothing. -/
theorem execute_cheap (hc : e.isCheap) (hq : host.Repeats e.methods)
    (h : e.execute host args id now s=(.ok (slot,after),t)) :
    e.meaning host args now.scope=pure slot ∧ after=now ∧ t=s := by
  rw [e.execute_unbound (bound_of_isCheap e hc),Failure.bind_apply] at h
  obtain ⟨r,gives⟩ := exists_gives_of_isCheap args now.scope e hc hq
  cases r with
  | none =>
    obtain ⟨fault,failed⟩ := gives.exists_throw
    rw [failed] at h
    cases h
  | some a =>
    rw [gives.eq_pure] at h ⊢
    cases h
    exact ⟨rfl,rfl,rfl⟩

/-- If the trees end well one after the other, the body behind what is kept of them ends as it does with their values
in place of the references. -/
theorem execute_finishAll {es : List Expr} {cs : List Cached} (kept : KeptAll low es cs) {u : σ}
    (computed : Computed host args inside locals refs es cs s refs' u) (hy : Hygienic n inside bound) (hn : n ≤ low)
    (hq : host.Repeats (methodsOf es)) (hb : boundIn es⊆bound) (steady : Steady low bound refs)
    (tracks : Tracks host args inside refs now locals) (room : ∀ i∈cs.flatMap Cached.locals, i.toNat < now.size)
    {body body' : Expr} (hbody : body.bound=[]) (hf : Filled refs' body body') (ho : body'.outside⊆inside) :
    Run.Ended (Abreast host args inside refs') ((Cached.finishAll cs body).execute host args id now s)
      (body'.execute host args id locals u) := by
  induction kept generalizing refs now s with
  | nil =>
    cases computed
    exact execute_abreast steady.unbound body hf (by simp [hbody]) ho tracks _
  | @inlined low e es cs hc rest ih =>
    simp only [boundIn,List.append_subset] at hb
    obtain ⟨first,others⟩ : host.Repeats e.methods ∧ host.Repeats (methodsOf es) :=
      ⟨hq.mono (List.subset_append_left ..),hq.mono (List.subset_append_right ..)⟩
    cases computed with
    | cons hfe hoe he computed =>
      have reads := steady.outside hy hn hfe hoe
      obtain ⟨next,executed,-,tracks⟩ := steady.execute hy tracks hfe hb.1 hoe he
      -- nothing has changed, so that the body may begin before the tree is computed
      obtain ⟨means,rfl,rfl⟩ := execute_cheap hc first executed
      exact ih computed hn others hb.2 (steady.append (Nat.le_refl _) (bound_of_isCheap e hc) reads _)
        (tracks.append means) (by simpa [Cached.locals] using room)
  | @bound low e es cs index hc hi rest ih =>
    simp only [boundIn,List.append_subset] at hb
    simp only [List.flatMap_cons,Cached.locals,List.singleton_append,List.forall_mem_cons] at room
    cases computed with
    | @cons _ _ _ e' _ _ _ _ _ _ _ slot hfe hoe he computed =>
      obtain ⟨next,executed,size,tracks⟩ := steady.execute hy tracks hfe hb.1 hoe he
      have hlt : index.toNat < next.size := size ▸ room.1
      -- what is free is neither read by a reference before it nor by the trees behind it, and none of them binds it
      have free : ∀ r∈refs, index∉r.1.outside := fun r hr hm => by
        have below := (steady.reads r hr index hm).1
        omega
      have unread : index∉inside := fun hm => by
        have below := (hy.inside index hm).1
        omega
      have unbound : index∉bound := fun hm => by
        have below := hy.bound index hm
        omega
      have stored : next.store index slot=(pure (next.setIfInBounds index.toNat (some slot)) : Run σ Locals) :=
        if_pos hlt
      rw [Cached.finishAll,List.foldr_cons,Cached.finish,Expr.execute,Failure.bind_apply,executed]
      simp only [stored,pure_bind]
      exact ih computed (Nat.le_succ_of_le hn) (hq.mono (List.subset_append_right ..)) hb.2
        (steady.append (Nat.le_succ _) rfl (by simp [Cached.reference,Expr.outside,hi,unbound]) _)
        (tracks.take steady.unbound unread free hlt e.rep slot) (by simpa [size] using room.2)

end Expr

namespace Build

open Locals Machine

variable {low : Nat} {es : List Expr} {cs : List Cached} {body : Expr}

/-- Where the body behind what is kept is part of a tree, its machine has the locals that are taken. -/
theorem KeptAll.room (h : KeptAll low es cs) (hl : low+dear es ≤ 65535) {whole : Expr} {c : Chunk} {place : Nat}
    (hc : whole.emit=.ok c) (hp : (place,Cached.finishAll cs body)∈whole.nodes 0) :
    ∀ i∈cs.flatMap Cached.locals, i.toNat < c.maxLocals.toNat := by
  intro i hi
  have inner : i∈whole.bound := (whole.subset_of_mem_nodes hp).2 (h.locals_subset body hi)
  have range := h.range_of_mem hi
  exact (emit_realizes hc).room i inner (by omega)

/-- Below the locals that are taken only those change that the trees bind. -/
theorem KeptAll.keeps (h : KeptAll low es cs) (hbody : body.bound=[]) {pool : Slot → Slot} {s t : σ} {r : Slot × Locals}
    (hr : (Cached.finishAll cs body).execute host args pool locals s=(.ok r,t)) {place : Nat} (hp : place < low)
    (hb : ∀ i∈boundIn es, i.toNat≠place) : r.2[place]?=locals[place]? := by
  apply ((execute_frames _ locals).result hr).others
  intro i hi
  obtain taken|bound|own := h.mem_bound_finishAll hi
  · have range := h.range_of_mem taken
    omega
  · exact hb i bound
  · rw [hbody] at own
    cases own

/-- A local is handed out only if there is another number behind it, so that trees are cached just as long as there is
a local for each that is not cheap, and their locals follow one after the other. Where the code of the body behind what
is kept of the trees stands, the machine changes no local below these but those that the trees bind. If the trees end
well one after the other, each computed once, the body ends as it does with their values in place of the references:
cheap routines answer alike in all states, and trees bind no local that one of them, or the body, reads from outside. -/
theorem cacheAll_hygienic (es : List Expr) (b : Builder) :
    freshLocal b=(if b.nextLocal.toNat < 65535 then (.ok b.nextLocal,{b with nextLocal := b.nextLocal+1})
      else (.error (.internal "too many locals in one expression"),b)) ∧
    (65535 < b.nextLocal.toNat+dear es →
      cacheAll es b=(.error (.internal "too many locals in one expression"),{b with nextLocal := 65535})) ∧
    (b.nextLocal.toNat+dear es ≤ 65535 → ∃ cs next, cacheAll es b=(.ok cs,{b with nextLocal := next})) ∧
    ∀ cs b', cacheAll es b=(.ok cs,b') → b'.nextLocal.toNat=b.nextLocal.toNat+dear es ∧
      (cs.flatMap Cached.locals).map UInt16.toNat=List.range' b.nextLocal.toNat (dear es) ∧
      ∀ (body whole : Expr) (c : Chunk) (place : Nat), body.bound=[] → whole.emit=.ok c →
        Slot.Distinct whole.constants → (place,Cached.finishAll cs body)∈whole.nodes 0 →
        ∀ {σ : Type} (host : Host σ) (args : List Slot) (locals : Locals), locals.size=c.maxLocals.toNat →
          let run := (Cached.finishAll cs body).execute host args c.pooled locals
          (∀ stack, resume host c args ⟨place,stack,locals⟩=(do
            let r ← run
            resume host c args ⟨place+(Cached.finishAll cs body).codeSize,r.1::stack,r.2⟩)) ∧
          (∀ s r t, run s=(.ok r,t) → ∀ i < b.nextLocal.toNat, (∀ j∈boundIn es, j.toNat≠i) → r.2[i]?=locals[i]?) ∧
          (host.Repeats (methodsOf es) → ∀ inside, Hygienic b.nextLocal.toNat inside (boundIn es) →
            ∀ s refs t, Computed host args inside locals [] es cs s refs t →
              ∀ body', Filled refs body body' → body'.outside⊆inside →
                Run.Ended (Abreast host args inside refs) (run s) (body'.execute host args id locals t)) := by
  refine ⟨freshLocal_eq b,fun beyond => ?_,fun fits => ?_,fun cs b' cached => ?_⟩
  · obtain ⟨cs,next,-,-,hn⟩|⟨failed,-⟩ := cacheAll_eq es b
    · have small := next.toNat_lt
      omega
    · exact failed
  · obtain ⟨cs,next,cached,-,-⟩|⟨-,beyond⟩ := cacheAll_eq es b
    · exact ⟨cs,next,cached⟩
    · omega
  obtain ⟨_,next,cached',kept,hn⟩|⟨failed,-⟩ := cacheAll_eq es b
  rotate_left
  · cases cached.symm.trans failed
  cases cached.symm.trans cached'
  refine ⟨hn,kept.locals_eq,fun body whole c place hbody hc hk hp σ host args locals hsize => ?_⟩
  have realizes := emit_realizes hc
  have part : c.Contains place (Cached.finishAll cs body) := c.contains_of_mem_nodes whole hp realizes.contains
  have own : (Cached.finishAll cs body).execute host args c.pooled=(Cached.finishAll cs body).execute host args id :=
    execute_pool _ fun slot hs => pooled_eq_self hc hk slot ((whole.subset_of_mem_nodes hp).1 hs)
  have room : ∀ i∈cs.flatMap Cached.locals, i.toNat < locals.size := by
    have small := next.toNat_lt
    exact hsize ▸ kept.room (by omega) hc hp
  refine ⟨fun stack => resume_execute realizes.forward _ part stack locals,fun s r t ran i hi hb =>
    kept.keeps hbody ran hi hb,fun hq inside hy s refs t computed body' hf ho => ?_⟩
  have steady : Steady b.nextLocal.toNat (boundIn es) [] := ⟨by simp,by simp⟩
  have tracks : Tracks host args inside [] locals locals := ⟨rfl,fun _ _ => rfl,by simp⟩
  rw [own]
  exact execute_finishAll kept computed hy (Nat.le_refl _) hq (List.Subset.refl _) steady tracks room hbody hf ho

/-- A number below one that is stored already is drawn, and rounded wherever it is used. Another number is drawn into
a local of its own and compared with the first one. -/
theorem cacheAll_hygienic_drawn :
    let host := Instances.host fun _ _ _ => .error (.missingReceiver "Host")
    let s : Instances := ⟨[(randomOwner,.random (.seeded (.listed [2,0]) 0))]⟩
    let draw : Method := ⟨randomIntRoutine,false⟩
    let drawn : Expr := .invoke draw [.readLocal 0 .int64]
    let rounded : Expr := .invoke ⟨Builtin.ceil.routine basicOwner [.boxed] .boxed,true⟩ [.box (.readLocal 2 .int64)]
    let less : Expr := .bind 1 (.invoke draw [.int 100]) (.compare .lt (.readLocal 1 .int64) (.readLocal 2 .int64))
    let cs : List Cached := [.bound 2 drawn,.inlined rounded,.bound 3 less]
    let body : Expr := .list [.readLocal 2 .int64,rounded,rounded,.readLocal 3 .bool]
    let two : Slot := .boxed (.int 2)
    let filled : Expr := .list [.int 2,.const two,.const two,.bool true]
    let refs : List (Expr × Slot) := [(.readLocal 2 .int64,.int64 2),(rounded,two),(.readLocal 3 .bool,.bool true)]
    let locals : Locals := #[some (.int64 7),none,none,none]
    cacheAll [drawn,rounded,less] ⟨"f",.default,[],2⟩=(.ok cs,⟨"f",.default,[],4⟩) ∧
      ∃ c t, (Expr.bind 0 (.int 7) (Cached.finishAll cs body)).emit=.ok c ∧
        Computed host [] [0] locals [] [drawn,rounded,less] cs s refs t ∧
        Run.Ended (Abreast host [] [0] refs) ((Cached.finishAll cs body).execute host [] c.pooled locals s)
          (filled.execute host [] id locals t) := by
  intro host s draw drawn rounded less cs body two filled refs locals
  have cached : cacheAll [drawn,rounded,less] ⟨"f",.default,[],2⟩=(.ok cs,⟨"f",.default,[],4⟩) := rfl
  let whole : Expr := .bind 0 (.int 7) (Cached.finishAll cs body)
  obtain ⟨c,hc,size⟩ : ∃ c, whole.emit=.ok c ∧ locals.size=c.maxLocals.toNat := by
    refine ⟨_,by cbv,?_⟩
    rfl
  have distinct : Slot.Distinct whole.constants := by
    simp [Slot.Distinct,whole,cs,body,drawn,rounded,less,Cached.finishAll,Cached.finish,constants,constantsOf,int,
      Slot.equals]
  have part : (2,Cached.finishAll cs body)∈whole.nodes 0 := by
    simp [whole,nodes,int,codeSize,Cached.finishAll,cs,Cached.finish]
  have repeats : host.Repeats (methodsOf [drawn,rounded,less]) := (Instances.host_runsBuiltins _).repeats (by decide)
  have bound : boundIn [drawn,rounded,less]=[1] := rfl
  have hygienic : Hygienic 2 [0] (boundIn [drawn,rounded,less]) := by
    rw [bound]
    exact ⟨by simp,by simp⟩
  have first : Filled [] drawn drawn := .invoke (.cons (.readLocal 0 .int64) .nil)
  have second : Filled [(.readLocal 2 .int64,.int64 2)] rounded
      (.invoke ⟨Builtin.ceil.routine basicOwner [.boxed] .boxed,true⟩ [.box (.int 2)]) :=
    .invoke (.cons (.box (.ref (.head _))) .nil)
  have third : Filled [(.readLocal 2 .int64,.int64 2),(rounded,two)] less
      (.bind 1 (.invoke draw [.int 100]) (.compare .lt (.readLocal 1 .int64) (.int 2))) :=
    .bind (.invoke (.cons (.const _) .nil)) (.compare (.readLocal 1 .int64) (.ref (.head _)))
  let after (drawn : List Int64) : Instances := ⟨[(randomOwner,.random ⟨.listed [2,0],0,drawn⟩)]⟩
  have draws : drawn.execute host [] id locals s=(.ok (.int64 2,locals),after [7]) := by cbv
  have rounds (t : Instances) : Expr.execute host [] id
      (.invoke ⟨Builtin.ceil.routine basicOwner [.boxed] .boxed,true⟩ [.box (.int 2)]) locals t=
        (.ok (two,locals),t) := by cbv
  have compares : Expr.execute host [] id (.bind 1 (.invoke draw [.int 100])
      (.compare .lt (.readLocal 1 .int64) (.int 2))) locals (after [7])=
        (.ok (.bool true,#[some (.int64 7),some (.int64 0),none,none]),after [7,100]) := by cbv
  have computed : Computed host [] [0] locals [] [drawn,rounded,less] cs s refs (after [7,100]) :=
    .cons first (List.Subset.refl _) draws (.cons second (List.nil_subset _) (rounds _)
      (.cons third (List.nil_subset _) compares .nil))
  have used : Filled refs body filled :=
    .list (.cons (.ref (.head _)) (.cons (.ref (.tail _ (.head _))) (.cons (.ref (.tail _ (.head _)))
      (.cons (.ref (.tail _ (.tail _ (.head _)))) .nil))))
  obtain ⟨-,-,-,evaluated⟩ := cacheAll_hygienic [drawn,rounded,less] ⟨"f",.default,[],2⟩
  obtain ⟨-,-,behind⟩ := evaluated cs _ cached
  obtain ⟨-,-,ends⟩ := behind body whole c 2 rfl hc distinct part host [] locals size
  exact ⟨cached,c,_,hc,computed,ends repeats [0] hygienic s refs _ computed filled used (by decide)⟩

end Build

end CallLowering
