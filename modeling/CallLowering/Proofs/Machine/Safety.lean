import CallLowering.Proofs.Expr.Computes
import CallLowering.Proofs.Expr.Raised
import CallLowering.Proofs.Machine.Ensures
import CallLowering.Proofs.Routine.Results

namespace CallLowering

variable {σ : Type} {host : Host σ} {ms : List Method}

namespace Slot

theorem convert_native {s : Slot} {target : Rep} (hs : s.rep.isNativeNumeric)
    (ht : target.isNativeNumeric) : ∃ s', s.convert target=.ok s' := by
  cases s with
  | bool b => cases hs
  | boxed v => cases hs
  | int64 n =>
    cases target with
    | bool => cases ht
    | boxed => cases ht
    | int64 => exact ⟨_,rfl⟩
    | float64 => exact ⟨_,rfl⟩
  | float64 x =>
    cases target with
    | bool => cases ht
    | boxed => cases ht
    | int64 => exact ⟨_,rfl⟩
    | float64 => exact ⟨_,rfl⟩

theorem exists_bool {s : Slot} (hs : s.rep=.bool) : ∃ b, s=.bool b := by
  cases s with
  | bool b => exact ⟨b,rfl⟩
  | _ => cases hs

theorem toBool_native {s : Slot} (hs : s.rep=.bool) : ∃ b, s.toBool=.ok b := by
  obtain ⟨b,rfl⟩ := exists_bool hs
  exact ⟨b,rfl⟩

/-- Two bare numbers that are held alike. -/
theorem exists_numbers {a b : Slot} (ha : a.rep.isNativeNumeric) (hab : a.rep=b.rep) :
    (∃ m n, a=.int64 m ∧ b=.int64 n) ∨ ∃ x y, a=.float64 x ∧ b=.float64 y := by
  cases a with
  | bool _ => cases ha
  | boxed _ => cases ha
  | int64 m =>
    obtain ⟨n,rfl⟩ := exists_int64 hab.symm
    exact .inl ⟨m,n,rfl,rfl⟩
  | float64 x =>
    obtain ⟨y,rfl⟩ := exists_float64 hab.symm
    exact .inr ⟨x,y,rfl,rfl⟩

theorem order_native {a b : Slot} (ha : a.rep.isNativeNumeric) (hab : a.rep=b.rep) :
    ∃ o, a.order b=.ok o := by
  obtain ⟨m,n,rfl,rfl⟩|⟨x,y,rfl,rfl⟩ := exists_numbers ha hab
  · exact ⟨_,rfl⟩
  · exact ⟨_,rfl⟩

theorem exists_boxed {s : Slot} (hs : s.rep=.boxed) : ∃ v, s=.boxed v := by
  cases s with
  | boxed v => exact ⟨v,rfl⟩
  | _ => cases hs

/-- Slots that are equal are held alike. -/
theorem rep_of_equals {a b : Slot} (h : a.equals b) : a.rep=b.rep := by
  cases a <;> cases b <;> first | rfl | cases h

end Slot

theorem Chunk.rep_pooled (c : Chunk) (slot : Slot) : (c.pooled slot).rep=slot.rep := by
  rw [pooled]
  cases hf : c.constants.find? fun k => k.equals slot with
  | none => rfl
  | some k =>
    have found : k.equals slot := by simpa using Array.find?_some hf
    exact Slot.rep_of_equals found

/-- The routines of these methods keep their word: called with arguments in the representations of their
parameters, they return slots in the one that they declare, if anything. -/
def Host.Keeps (host : Host σ) (ms : List Method) : Prop :=
  ∀ m∈ms, ∀ slots : List Slot, slots.map Slot.rep=m.params → ∀ s slot t,
    host.enter m.routine slots s=(.ok slot,t) → slot.rep=m.returns

/-- The body of one of these methods answers a call with this error. -/
def Host.Answers (host : Host σ) (ms : List Method) (e : RoutineError) : Prop :=
  ∃ m∈ms, ∃ slots : List Slot, slots.map Slot.rep=m.params ∧ ∃ s t, host.enter m.routine slots s=(.error e,t)

/-- That the number of arguments is wrong can only be the answer of a body. -/
theorem Evaluation.Raises.argumentCount {pool : Slot → Slot} {args : List Slot} {w : Evaluation σ} {routine : String}
    {expected actual : Nat} (h : w.Raises host args pool (.argumentCount routine expected actual)) :
    host.Answers w.tree.methods (.argumentCount routine expected actual) := by
  cases h with
  | @body _ m es s t u slots _ ho hs hr h => exact ⟨m,List.mem_cons_self,slots,hs,t,u,h⟩
  | @unboxing _ _ target _ _ v _ ho h =>
    cases target with
    | boxed => cases h
    | _ => cases v <;> cases h

/-- Calling one of the methods on arguments in the representations of its parameters. -/
theorem Run.call_ensures (hk : host.Keeps ms) {m : Method} (hm : m∈ms) {slots : List Slot}
    (hs : slots.map Slot.rep=m.params) :
    Run.Ensures (fun slot => slot.rep=m.returns) (fun _ => True) (Run.call host m.routine slots) := by
  apply Run.Ensures.of_results
  intro s slot t h
  obtain ⟨-,-,entered⟩ := Run.call_ok h
  exact hk m hm slots hs s slot t entered

/-- The locals in reach have values in their representations. -/
def Scope.Holds (scope : Scope) (inside : List (UInt16 × Rep)) : Prop :=
  ∀ l∈inside, ∃ slot, scope l.1=some slot ∧ slot.rep=l.2

theorem Scope.Holds.empty : Scope.empty.Holds [] := by simp [Scope.Holds]

theorem Scope.Holds.bind {scope : Scope} {inside : List (UInt16 × Rep)} (h : scope.Holds inside)
    {index : UInt16} {value body : Expr} {slot : Slot} (hs : slot.rep=value.rep)
    (hn : index∉inside.map Prod.fst) :
    (scope.bind index slot).Holds (Expr.typedInBody index value body inside) := by
  have outer : ∀ l∈inside, ∃ s, scope.bind index slot l.1=some s ∧ s.rep=l.2 := by
    intro l hl
    have hne : l.1≠index := fun eq => hn (eq ▸ List.mem_map_of_mem hl)
    rw [Scope.bind_of_ne _ _ hne]
    exact h l hl
  intro l hl
  rw [Expr.typedInBody] at hl
  split at hl
  · exact outer l hl
  · obtain rfl|hl := List.mem_cons.mp hl
    · exact ⟨slot,Scope.bind_self ..,hs⟩
    · exact outer l hl

open Evaluation in
/-- Where an operand is to blame, so is the whole. -/
theorem Run.EndsIn.within {args : List Slot} {pool : Slot → Slot} {v w : Evaluation σ} {α : Type} {P : α → Prop}
    {x : Run σ α} {s : σ} (h : EndsIn P (Blames host args pool w) x s) (begins : Begins host args pool v w) :
    EndsIn P (Blames host args pool v) x s := h.mono (fun _ h => h) fun _ => begins.blames

namespace Expr

variable {args : List Slot} {pool : Slot → Slot} {v : Evaluation σ}

open Evaluation Run

/-- Trees one after the other, each of them in its representation. -/
theorem meanings_endsIn {F : Fault → Prop} {scope : Scope} {es : List Expr} {s : σ}
    (h : ∀ before e after slots t, es=before++e::after →
      meanings host args scope (mapConstantsOf pool before) s=(.ok slots,t) →
      EndsIn (fun slot => slot.rep=e.rep) F ((e.mapConstants pool).meaning host args scope) t) :
    EndsIn (fun slots => slots.map Slot.rep=es.map Expr.rep) F
      (meanings host args scope (mapConstantsOf pool es)) s := by
  induction es generalizing s with
  | nil => exact .pure rfl
  | cons e es ih =>
    rw [mapConstantsOf,meanings]
    apply (h [] e es [] s rfl rfl).bind
    intro slot t first hslot
    have rest : EndsIn (fun slots => slots.map Slot.rep=es.map Expr.rep) F
        (meanings host args scope (mapConstantsOf pool es)) t := by
      apply ih
      intro before d after slots u split ran
      apply h (e::before) d after (slot::slots) u (by rw [split,List.cons_append])
      rw [mapConstantsOf,meanings,Failure.bind_apply,first]
      simp only [Failure.bind_apply,ran]
      rfl
    apply rest.bind
    intro slots u _ hslots
    apply EndsIn.pure
    rw [List.map_cons,List.map_cons,hslot,hslots]

/-- Operands one after the other, each of them in its representation, if the whole comes to each of them. -/
theorem operands_endsIn {scope : Scope} {es : List Expr} {s : σ}
    (h : ∀ e∈es, ∀ t, EndsIn (fun slot => slot.rep=e.rep) (Blames host args pool ⟨scope,e,t⟩)
      ((e.mapConstants pool).meaning host args scope) t)
    (begins : ∀ before e after slots t, es=before++e::after →
      meanings host args scope (mapConstantsOf pool before) s=(.ok slots,t) →
      Begins host args pool v ⟨scope,e,t⟩) :
    EndsIn (fun slots => slots.map Slot.rep=es.map Expr.rep) (Blames host args pool v)
      (meanings host args scope (mapConstantsOf pool es)) s := by
  apply meanings_endsIn
  intro before e after slots t split ran
  have hmem : e∈es := by simp [split]
  exact (h e hmem t).within (begins before e after slots t split ran)

/-- Operands in the representations that a node takes give a result in its own. What the evaluation of a tree fails
with is raised on the way: by an unboxing, or by a call. -/
theorem meaning_endsIn (hp : ∀ slot, (pool slot).rep=slot.rep) (hk : host.Keeps ms) (e : Expr)
    {inside : List (UInt16 × Rep)} {scope : Scope} (he : e.isTyped (args.map Slot.rep) inside)
    (hn : ∀ i∈e.bound, i∉inside.map Prod.fst) (hs : scope.Holds inside) (hm : e.methods⊆ms) (s : σ) :
    EndsIn (fun slot => slot.rep=e.rep) (Blames host args pool ⟨scope,e,s⟩)
      ((e.mapConstants pool).meaning host args scope) s := by
  induction e generalizing inside scope s with
  | const slot => exact .pure (hp slot)
  | arg index rep =>
    simp only [isTyped,decide_eq_true_eq] at he
    rw [List.getElem?_map] at he
    obtain ⟨slot,hslot,hrep⟩ := Option.map_eq_some_iff.mp he
    rw [mapConstants,meaning,Run.argument,hslot]
    exact .pure hrep
  | readLocal index rep =>
    simp only [isTyped,decide_eq_true_eq] at he
    obtain ⟨slot,hslot,hrep⟩ := hs _ he
    rw [mapConstants,meaning,hslot]
    exact .pure hrep
  | invoke m es ih =>
    simp only [isTyped,Bool.and_eq_true,areTyped_iff] at he
    rw [mapConstants,meaning]
    have each : EndsIn (fun slots => slots.map Slot.rep=es.map Expr.rep)
        (Blames host args pool ⟨scope,invoke m es,s⟩) (meanings host args scope (mapConstantsOf pool es)) s := by
      apply operands_endsIn
      · intro e hmem t
        have apart : ∀ i∈e.bound, i∉inside.map Prod.fst :=
          fun i hi => hn i (by simpa [bound] using ⟨e,hmem,hi⟩)
        have called : e.methods⊆ms := fun m' hm' => hm (by simp [methods]; exact .inr ⟨e,hmem,hm'⟩)
        exact ih e hmem (he.2 e hmem) apart hs called t
      · rintro before e after slots t rfl ran
        exact .argument ran
    apply each.bind
    intro slots t ran hslots
    have taken : slots.map Slot.rep=m.params := hslots.trans (Method.rep_of_isOk he.1)
    have count : slots.length=m.routine.params.length := by
      rw [←List.length_map Slot.rep,taken]
      rfl
    apply EndsIn.of_cases
    · intro slot u result
      exact (Run.call_ensures hk (hm (by simp [methods])) taken).result result
    · intro fault u failed
      obtain ⟨hr,absent,rfl⟩|⟨present,error,u',rfl,entered⟩ := Run.call_error count failed
      · exact (Raises.receiver ran hr absent).blames
      · exact (Raises.body ran taken present entered).blames
  | list es ih =>
    simp only [isTyped,areTyped_iff] at he
    rw [mapConstants,meaning]
    have each : EndsIn (fun slots => slots.map Slot.rep=es.map Expr.rep)
        (Blames host args pool ⟨scope,list es,s⟩) (meanings host args scope (mapConstantsOf pool es)) s := by
      apply operands_endsIn
      · intro e hmem t
        have apart : ∀ i∈e.bound, i∉inside.map Prod.fst :=
          fun i hi => hn i (by simpa [bound] using ⟨e,hmem,hi⟩)
        have called : e.methods⊆ms := fun m' hm' => hm (by simp [methods]; exact ⟨e,hmem,hm'⟩)
        exact ih e hmem (he e hmem) apart hs called t
      · rintro before e after slots t rfl ran
        exact .item ran
    exact each.bind fun slots t _ _ => .pure rfl
  | convert e target ih =>
    simp only [isTyped,Bool.and_eq_true] at he
    obtain ⟨⟨hrep,htarget⟩,he⟩ := he
    rw [mapConstants,meaning]
    apply ((ih he hn hs hm s).within .converted).bind
    intro slot t _ hslot
    obtain ⟨s',hs'⟩ := slot.convert_native (hslot ▸ hrep) htarget
    rw [hs']
    exact .pure (Slot.rep_of_convert hs')
  | box e ih => exact ((ih he hn hs hm s).within .boxed).bind fun slot t _ _ => .pure rfl
  | unbox e target ih =>
    simp only [isTyped,Bool.and_eq_true,decide_eq_true_eq] at he
    rw [mapConstants,meaning]
    apply ((ih he.2 hn hs hm s).within .unboxed).bind
    intro slot t ran hslot
    obtain ⟨v,rfl⟩ := Slot.exists_boxed (hslot.trans he.1)
    apply EndsIn.lift
    · exact fun slot h => Slot.rep_of_convert (s := .boxed v) h
    · exact fun error h => (Raises.unboxing ran h).blames
  | isNull e ih => exact ((ih he hn hs hm s).within .tested).bind fun slot t _ _ => .pure rfl
  | not e ih =>
    simp only [isTyped,Bool.and_eq_true,decide_eq_true_eq] at he
    rw [mapConstants,meaning]
    apply ((ih he.2 hn hs hm s).within .negated).bind
    intro slot t _ hslot
    obtain ⟨b,hb⟩ := slot.toBool_native (hslot.trans he.1)
    rw [hb]
    exact .pure rfl
  | bind index value body ihv ihb =>
    simp only [isTyped,Bool.and_eq_true] at he
    obtain ⟨⟨hi,hv⟩,hb⟩ := he
    have hnv : ∀ i∈value.bound, i∉inside.map Prod.fst := fun i h => hn i (by simp [bound,h])
    have hnb : ∀ i∈body.bound, i∉(typedInBody index value body inside).map Prod.fst := by
      rw [map_typedInBody]
      exact not_mem_inBody index fun i h => hn i (by simp [bound,h])
    rw [mapConstants,meaning]
    have first := ihv hv hnv hs (fun m h => hm (by simp [methods,h])) s
    apply (first.within .value).bind
    intro slot t ran hslot
    have inner := ihb hb hnb (hs.bind hslot (hn index (by simp [bound]))) (fun m h => hm (by simp [methods,h])) t
    exact inner.within (.body ran)
  | select c t f ihc iht ihf =>
    simp only [isTyped,Bool.and_eq_true,decide_eq_true_eq] at he
    obtain ⟨⟨⟨⟨hc,hsame⟩,hec⟩,het⟩,hef⟩ := he
    rw [mapConstants,meaning]
    have asked := ihc hec (fun i h => hn i (by simp [bound,h])) hs (fun m h => hm (by simp [methods,h])) s
    apply (asked.within .condition).bind
    intro slot u ran hslot
    obtain ⟨b,rfl⟩ := Slot.exists_bool (hslot.trans hc)
    have whenTrue := iht het (fun i h => hn i (by simp [bound,h])) hs (fun m h => hm (by simp [methods,h])) u
    have whenFalse := ihf hef (fun i h => hn i (by simp [bound,h])) hs (fun m h => hm (by simp [methods,h])) u
    cases b with
    | true => exact whenTrue.within (.branch ran)
    | false =>
      have held := whenFalse.mono (fun slot h => h.trans hsame.symm) fun _ h => h
      exact held.within (.branch ran)
  | compare k lhs rhs ihl ihr =>
    simp only [isTyped,Bool.and_eq_true,decide_eq_true_eq] at he
    obtain ⟨⟨⟨hnative,hsame⟩,hl⟩,hr⟩ := he
    rw [mapConstants,meaning]
    have first := ihl hl (fun i h => hn i (by simp [bound,h])) hs (fun m h => hm (by simp [methods,h])) s
    apply (first.within .left).bind
    intro a t ran ha
    have second := ihr hr (fun i h => hn i (by simp [bound,h])) hs (fun m h => hm (by simp [methods,h])) t
    apply (second.within (.right ran)).bind
    intro b u _ hb
    obtain ⟨o,ho⟩ := Slot.order_native (ha ▸ hnative) (ha.trans (hsame.trans hb.symm))
    rw [ho]
    exact .pure rfl

/-- What a well typed tree means is in its representation. -/
theorem meaning_rep {e : Expr} (he : e.isTyped (args.map Slot.rep) []) (hk : host.Keeps e.methods) :
    Ensures (fun slot => slot.rep=e.rep) (fun _ => True) (e.meaning host args Scope.empty) := by
  have kept (slot : Slot) : (id slot).rep=slot.rep := rfl
  intro s
  have ended := meaning_endsIn kept hk e he (by simp) .empty (fun _ h => h) s
  rw [mapConstants_id] at ended
  exact ended.mono (fun _ h => h) fun _ _ => trivial

/-- A well typed tree ends with a slot in its representation or with the error of a routine; the machine itself finds
nothing wrong. The error is raised by a node of the tree that the evaluation comes to, with constants from the pool: an
unboxing of a value that cannot be unboxed so, the body of a routine, or a call that finds no receiver. That the number
of arguments is wrong is said by a body, if at all. -/
theorem evaluate_safe {e : Expr} {c : Chunk} (hc : e.emit=.ok c) (he : e.isTyped (args.map Slot.rep) [])
    (hk : host.Keeps e.methods) (s : σ) :
    match (e.evaluate host args s).1 with
    | .ok slot => slot.rep=e.rep
    | .error fault => ∃ error, fault=.routine error ∧
        (∃ w, Relation.ReflTransGen (Begins host args c.pooled) ⟨Scope.empty,e,s⟩ w ∧
          w.Raises host args c.pooled error) ∧
        ∀ routine expected actual, error=.argumentCount routine expected actual → host.Answers e.methods error := by
  have closed : e.isClosed [] := isClosed_of_isTyped e he
  have ended := meaning_endsIn c.rep_pooled hk e he (by simp) .empty (fun m hm => hm) s
  rw [evaluate_closed hc closed]
  rcases hx : (e.mapConstants c.pooled).meaning host args Scope.empty s with ⟨fault|slot,t⟩
  · obtain ⟨error,rfl,w,reached,raised⟩ := ended.fault hx
    refine ⟨error,rfl,⟨w,reached,raised⟩,?_⟩
    rintro routine expected actual rfl
    obtain ⟨m,hm,answered⟩ := raised.argumentCount
    exact ⟨m,methods_subset_of_reached reached hm,answered⟩
  · exact ended.result hx

end Expr

/-- The basic routines keep their word. -/
theorem Instances.host_keeps (bodies : Instances.Bodies) {ms : List Method}
    (h : ∀ m∈ms, m.routine∈standardRoutines) : (Instances.host bodies).Keeps ms := by
  have builtin : ∀ r∈standardRoutines, ∃ b, r.body=.builtin b ∧ b.returns=r.returns := by
    intro r hr
    simp only [standardRoutines,List.mem_cons,List.not_mem_nil,or_false] at hr
    obtain rfl|rfl|rfl|rfl|rfl|rfl|rfl|rfl|rfl|rfl|rfl := hr <;> exact ⟨_,rfl,rfl⟩
  intro m hm slots _ s slot t he
  obtain ⟨b,hb,hr⟩ := builtin m.routine (h m hm)
  exact (Instances.rep_of_enter hb he).trans hr

namespace Expr

open Evaluation

/-- A drawn number is kept: if it is small, the box in the first argument is opened, otherwise a float is
rounded. -/
def drawnChoice : Expr :=
  .bind 0 (.invoke ⟨randomIntRoutine,false⟩ [.int 10]) (.select (.compare .lt (.readLocal 0 .int64) (.int 5))
    (.unbox (.arg 0 .boxed) .int64)
    (.convert (.invoke ⟨Builtin.nativeCeil.routine mathOwner [.float64] .float64,true⟩ [.arg 1 .float64]) .int64))

theorem evaluate_safe_drawnChoice :
    let host := Instances.host fun _ _ _ => .error (.missingReceiver "Host")
    let args : List Slot := [.boxed (.bool true),.float64 (.ofInt 3)]
    ∃ c, drawnChoice.emit=.ok c ∧ drawnChoice.isTyped (args.map Slot.rep) [] ∧ host.Keeps drawnChoice.methods ∧
      ∀ s : Instances, match (drawnChoice.evaluate host args s).1 with
        | .ok slot => slot.rep=.int64
        | .error fault => ∃ error, fault=.routine error ∧
            (∃ w, Relation.ReflTransGen (Begins host args c.pooled) ⟨Scope.empty,drawnChoice,s⟩ w ∧
              w.Raises host args c.pooled error) ∧
            ∀ routine expected actual, error=.argumentCount routine expected actual →
              host.Answers drawnChoice.methods error := by
  intro host args
  obtain ⟨c,hc⟩ : ∃ c, drawnChoice.emit=.ok c := ⟨_,by cbv⟩
  have typed : drawnChoice.isTyped (args.map Slot.rep) [] := by decide
  have keeps : host.Keeps drawnChoice.methods := Instances.host_keeps _ (by decide)
  exact ⟨c,hc,typed,keeps,evaluate_safe hc typed keeps⟩

end Expr

end CallLowering
