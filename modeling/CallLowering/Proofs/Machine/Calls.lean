import CallLowering.Proofs.Expr.Methods
import CallLowering.Proofs.Machine.Ensures
import CallLowering.Proofs.Machine.Simulation

namespace CallLowering

variable {σ : Type} {host : Host σ} {c : Chunk} {args : List Slot} {s t : σ} {slot : Slot}

/-- What is called, and with which arguments. -/
abbrev Invocation : Type := Method × List Slot

/-- The record of one call, which is empty if it may be repeated. -/
def Method.record (m : Method) (slots : List Slot) : List Invocation := if m.cheap then [] else [(m,slots)]

namespace Machine

/-- The record of the call that an instruction makes. -/
def record (c : Chunk) (m : Machine) : Instr → List Invocation
  | .invoke method count =>
      match c.methods[method.toNat]?,m.take? count.toNat with
      | some method,some (taken,_) => method.record taken
      | _,_ => []
  | _ => []

/-- The calls of at most `steps` instructions. -/
def calls (host : Host σ) (c : Chunk) (args : List Slot) : Nat → Machine → σ → List Invocation
  | 0,_,_ => []
  | steps+1,m,s =>
      match c.code[m.place]? with
      | none => []
      | some i => m.record c i++
          match m.step host c args i s with
          | (.ok m,s) => calls host c args steps m s
          | (.error _,_) => []

end Machine

namespace Expr

/-- The calls that are made to evaluate an expression. -/
def calls (host : Host σ) (args : List Slot) (e : Expr) (s : σ) : List Invocation :=
  match e.emit with
  | .error _ => []
  | .ok c => Machine.calls host c args c.code.size (.start c) s

/-- The values of expressions that are evaluated one after the other, each by its own code. -/
def evaluateEach (host : Host σ) (args : List Slot) : List Expr → Run σ (List Slot)
  | [] => return []
  | e::es => do
      let slot ← e.evaluate host args
      return slot::(← evaluateEach host args es)

/-- The calls that are made on the way. -/
def callsEach (host : Host σ) (args : List Slot) : List Expr → σ → List Invocation
  | [],_ => []
  | e::es,s => e.calls host args s++callsEach host args es (e.evaluate host args s).2

end Expr

/-- The method under a name that tells whether a call of it may be repeated. -/
def Method.marked (m : Method) : Method :=
  let mark := if m.cheap then 'c' else 'e'
  {m with routine := {m.routine with name := String.ofList (mark::m.routine.name.toList)}}

/-- The method that a marked name stands for. -/
def Routine.unmarked (r : Routine) : Method :=
  ⟨{r with name := String.ofList r.name.toList.tail},r.name.toList.head?== 'c'⟩

@[simp] theorem Method.unmarked_marked (m : Method) : m.marked.routine.unmarked=m := by
  have mark : ((if m.cheap then 'c' else 'e')== 'c')=m.cheap := by cases m.cheap <;> rfl
  simp [marked,Routine.unmarked,mark]

/-- The host with a record of the calls that it has answered, to be called by marked names. -/
def Host.recording (host : Host σ) : Host (σ × List Invocation) where
  receives s owner := host.receives s.1 owner
  enter r slots s :=
    let answer := host.enter r.unmarked.routine slots s.1
    (answer.1,(answer.2,s.2++r.unmarked.record slots))

theorem Host.enter_recording {m : Method} {slots : List Slot} {log : List Invocation} :
    host.recording.enter m.marked.routine slots (s,log)=
      ((host.enter m.routine slots s).1,((host.enter m.routine slots s).2,log++m.record slots)) := by
  simp only [recording,Method.unmarked_marked]

theorem Run.call_recording {m : Method} {slots : List Slot}
    (h : Run.call host m.routine slots s=(.ok slot,t)) (log : List Invocation) :
    Run.call host.recording m.marked.routine slots (s,log)=(.ok slot,(t,log++m.record slots)) := by
  obtain ⟨count,receiver,entered⟩ := call_ok h
  have receives : m.marked.routine.onReceiver → host.recording.receives (s,log) m.marked.routine.owner :=
    receiver
  refine call_of_enter (r := m.marked.routine) count receives ?_
  rw [Host.enter_recording,entered]

/-- An answered call adds its record to those before it. -/
theorem Run.call_recorded {m : Method} {slots : List Slot} {log log' : List Invocation}
    (h : Run.call host.recording m.marked.routine slots (s,log)=(.ok slot,(t,log'))) :
    log'=log++m.record slots := by
  obtain ⟨-,-,entered⟩ := call_ok h
  rw [Host.enter_recording] at entered
  exact (congrArg (fun answer => answer.2.2) entered).symm

namespace Machine

theorem mapTop_apart (m : Machine) (f : Slot → Except RoutineError Slot) :
    ∃ r, ∀ (τ : Type) (s : τ), (m.mapTop f : Run τ Machine) s=(r,s) := by
  unfold mapTop
  cases m.stack with
  | nil => exact ⟨_,fun _ _ => rfl⟩
  | cons slot rest =>
    simp only
    cases f slot with
    | error e => exact ⟨_,fun _ _ => rfl⟩
    | ok slot => exact ⟨_,fun _ _ => rfl⟩

/-- An instruction that is no call has nothing to do with the host. -/
theorem step_apart (m : Machine) {i : Instr} (hi : ∀ method count, i≠.invoke method count) :
    ∃ r, ∀ (τ : Type) (host : Host τ) (methods : Array Method) (s : τ),
      m.step host {c with methods} args i s=(r,s) := by
  cases i with
  | invoke method count => exact absurd rfl (hi method count)
  | const index =>
    simp only [step]
    cases c.constants[index.toNat]? <;> exact ⟨_,fun _ _ _ _ => rfl⟩
  | loadArg index =>
    simp only [step]
    cases args[index.toNat]? <;> exact ⟨_,fun _ _ _ _ => rfl⟩
  | loadLocal index =>
    simp only [step]
    rcases m.locals[index.toNat]? with _|_|slot <;> exact ⟨_,fun _ _ _ _ => rfl⟩
  | storeLocal index =>
    simp only [step]
    cases m.stack with
    | nil => exact ⟨_,fun _ _ _ _ => rfl⟩
    | cons slot rest =>
      by_cases h : index.toNat < m.locals.size
      · simp only [if_pos h]
        exact ⟨_,fun _ _ _ _ => rfl⟩
      · simp only [if_neg h]
        exact ⟨_,fun _ _ _ _ => rfl⟩
  | convert target =>
    obtain ⟨r,hr⟩ := m.mapTop_apart fun s => s.convert target
    exact ⟨r,fun τ _ _ => hr τ⟩
  | box =>
    obtain ⟨r,hr⟩ := m.mapTop_apart fun s => .ok s.box
    exact ⟨r,fun τ _ _ => hr τ⟩
  | unbox target =>
    obtain ⟨r,hr⟩ := m.mapTop_apart fun s => s.unbox target
    exact ⟨r,fun τ _ _ => hr τ⟩
  | isNull =>
    obtain ⟨r,hr⟩ := m.mapTop_apart fun s => .ok (.bool s.isNullish)
    exact ⟨r,fun τ _ _ => hr τ⟩
  | not =>
    obtain ⟨r,hr⟩ := m.mapTop_apart fun s => do return .bool (!(← s.toBool))
    exact ⟨r,fun τ _ _ => hr τ⟩
  | newList count =>
    simp only [step]
    cases m.take? count.toNat <;> exact ⟨_,fun _ _ _ _ => rfl⟩
  | jump target => exact ⟨_,fun _ _ _ _ => rfl⟩
  | jumpIfFalse target =>
    simp only [step]
    cases m.stack with
    | nil => exact ⟨_,fun _ _ _ _ => rfl⟩
    | cons slot rest =>
      simp only
      rcases slot.toBool with _|_|_ <;> exact ⟨_,fun _ _ _ _ => rfl⟩
  | compare k =>
    simp only [step]
    rcases m.stack with _|⟨rhs,_|⟨lhs,rest⟩⟩
    · exact ⟨_,fun _ _ _ _ => rfl⟩
    · exact ⟨_,fun _ _ _ _ => rfl⟩
    · simp only
      cases lhs.order rhs <;> exact ⟨_,fun _ _ _ _ => rfl⟩

end Machine

/-- The chunk with marked names in its pool. -/
def Chunk.marked (c : Chunk) : Chunk := {c with methods := c.methods.map Method.marked}

namespace Machine

theorem step_recording {m m' : Machine} {i : Instr} (h : m.step host c args i s=(.ok m',t))
    (log : List Invocation) :
    m.step host.recording c.marked args i (s,log)=(.ok m',(t,log++m.record c i)) := by
  by_cases hi : ∃ method count, i=.invoke method count
  · obtain ⟨n,count,rfl⟩ := hi
    simp only [step] at h
    cases hm : c.methods[n.toNat]? with
    | none =>
      rw [hm] at h
      cases h
    | some method =>
      cases ht : m.take? count.toNat with
      | none =>
        rw [hm,ht] at h
        cases h
      | some p =>
        obtain ⟨taken,rest⟩ := p
        rw [hm,ht] at h
        obtain ⟨slot,u,called,done⟩ := Failure.bind_state_ok h
        cases done
        have marked : c.marked.methods[n.toNat]?=some method.marked := by simp [Chunk.marked,hm]
        simp only [step,marked,ht,record,hm,Failure.bind_apply,Run.call_recording called]
        rfl
  · obtain ⟨r,hr⟩ := m.step_apart (fun method count eq => hi ⟨method,count,eq⟩)
    have before : m.step host c args i s=(r,s) := hr σ host c.methods s
    rw [before] at h
    cases h
    have nothing : m.record c i=[] := by
      cases i with
      | invoke method count => exact absurd ⟨method,count,rfl⟩ hi
      | _ => rfl
    rw [nothing,List.append_nil]
    exact hr _ host.recording c.marked.methods (s,log)

/-- The end of a run has nothing to do with the host either. -/
theorem finish_apart (m : Machine) : ∃ r, ∀ (τ : Type) (s : τ), (m.finish : Run τ Slot) s=(r,s) := by
  unfold finish
  rcases m.stack with _|⟨top,_|⟨next,rest⟩⟩ <;> exact ⟨_,fun _ _ => rfl⟩

theorem finish_recording {m : Machine} (h : m.finish s=(.ok slot,t)) (log : List Invocation) :
    (m.finish : Run (σ × List Invocation) Slot) (s,log)=(.ok slot,(t,log)) := by
  obtain ⟨r,hr⟩ := m.finish_apart
  rw [hr] at h
  cases h
  exact hr _ (s,log)

theorem run_recording {steps : Nat} {m : Machine} (h : m.run host c args steps s=(.ok slot,t))
    (log : List Invocation) :
    m.run host.recording c.marked args steps (s,log)=(.ok slot,(t,log++calls host c args steps m s)) := by
  induction steps generalizing m s log with
  | zero =>
    by_cases hp : m.place < c.code.size
    · rw [run,if_pos hp] at h
      cases h
    · rw [run,if_neg hp] at h
      have marked : ¬m.place < c.marked.code.size := hp
      rw [run,if_neg marked,calls,List.append_nil]
      exact finish_recording h log
  | succ steps ih =>
    cases hi : c.code[m.place]? with
    | none =>
      have marked : c.marked.code[m.place]?=none := hi
      rw [run,hi] at h
      rw [run,marked,calls,hi,List.append_nil]
      exact finish_recording h log
    | some i =>
      have marked : c.marked.code[m.place]?=some i := hi
      rw [run,hi] at h
      obtain ⟨m',u,hstep,hrun⟩ := Failure.bind_state_ok h
      rw [run,marked,calls,hi]
      simp only [Failure.bind_apply,step_recording hstep log,hstep,ih hrun,List.append_assoc]

end Machine

namespace Expr

/-- The tree that calls methods by marked names. -/
def marked : Expr → Expr := mapMethods Method.marked

@[simp] theorem codeSize_marked (e : Expr) : e.marked.codeSize=e.codeSize := codeSize_mapMethods _ e

theorem codeSizes_marked (es : List Expr) : codeSizes (es.map marked)=codeSizes es :=
  codeSizes_map fun e _ => e.codeSize_marked

end Expr

namespace Chunk

theorem containsAll_marked {es : List Expr}
    (ih : ∀ e∈es, ∀ p, c.Contains p e → c.marked.Contains p e.marked) {p : Nat} (h : c.ContainsAll p es) :
    c.marked.ContainsAll p (es.map Expr.marked) := by
  induction es generalizing p with
  | nil => trivial
  | cons e es ihs =>
    refine ⟨ih e (by simp) p h.1,?_⟩
    rw [Expr.codeSize_marked]
    exact ihs (fun e he => ih e (by simp [he])) h.2

/-- Where the code of a tree stands, the marked chunk has the code of the tree with marked names. -/
theorem contains_marked (e : Expr) {p : Nat} (h : c.Contains p e) : c.marked.Contains p e.marked := by
  induction e generalizing p with
  | const slot => exact h
  | arg index rep => exact h
  | readLocal index rep => exact h
  | invoke m es ih =>
    obtain ⟨hes,n,k,hi,hm,hk⟩ := h
    rw [Expr.marked,Expr.mapMethods,Expr.mapMethodsOf_eq,←Expr.marked,Contains,Expr.codeSizes_marked,
      List.length_map]
    exact ⟨containsAll_marked (fun e he p => ih e he) hes,n,k,hi,by simp [marked,hm],hk⟩
  | list es ih =>
    obtain ⟨hes,k,hi,hk⟩ := h
    rw [Expr.marked,Expr.mapMethods,Expr.mapMethodsOf_eq,←Expr.marked,Contains,Expr.codeSizes_marked,
      List.length_map]
    exact ⟨containsAll_marked (fun e he p => ih e he) hes,k,hi,hk⟩
  | convert e target ih =>
    refine ⟨ih h.1,?_⟩
    rw [Expr.codeSize_mapMethods]
    exact h.2
  | box e ih =>
    refine ⟨ih h.1,?_⟩
    rw [Expr.codeSize_mapMethods]
    exact h.2
  | unbox e target ih =>
    refine ⟨ih h.1,?_⟩
    rw [Expr.codeSize_mapMethods]
    exact h.2
  | isNull e ih =>
    refine ⟨ih h.1,?_⟩
    rw [Expr.codeSize_mapMethods]
    exact h.2
  | not e ih =>
    refine ⟨ih h.1,?_⟩
    rw [Expr.codeSize_mapMethods]
    exact h.2
  | bind index value body ihv ihb =>
    obtain ⟨hv,hi,hb⟩ := h
    rw [Expr.marked,Expr.mapMethods,←Expr.marked,Contains,Expr.codeSize_marked]
    exact ⟨ihv hv,hi,ihb hb⟩
  | select e t f ihe iht ihf =>
    obtain ⟨he,branch,ht,skip,hf⟩ := h
    rw [Expr.marked,Expr.mapMethods,←Expr.marked,Contains]
    simp only [Expr.codeSize_marked]
    exact ⟨ihe he,branch,iht ht,skip,ihf hf⟩
  | compare k lhs rhs ihl ihr =>
    obtain ⟨hl,hr,hi⟩ := h
    rw [Expr.marked,Expr.mapMethods,←Expr.marked,Contains]
    simp only [Expr.codeSize_marked]
    exact ⟨ihl hl,ihr hr,hi⟩

theorem Realizes.marked {e : Expr} (h : c.Realizes e) : c.marked.Realizes e.marked where
  forward := h.forward
  size := h.size.trans e.codeSize_marked.symm
  contains := contains_marked e h.contains
  room := by
    rw [Expr.marked,Expr.bound_mapMethods]
    exact h.room

end Chunk

/-- Constants that are equal are the same. -/
def Slot.Distinct (slots : List Slot) : Prop := ∀ a∈slots, ∀ b∈slots, a.equals b → a=b

theorem Slot.Distinct.mono {slots slots' : List Slot} (h : Distinct slots') (hs : slots⊆slots') :
    Distinct slots :=
  fun a ha b hb => h a (hs ha) b (hs hb)

namespace Expr

variable {scope : Scope}

/-- What a tree means on the host that keeps a record. -/
def recorded (host : Host σ) (args : List Slot) (scope : Scope) (e : Expr) : Run (σ × List Invocation) Slot :=
  e.marked.meaning host.recording args scope

def recordedAll (host : Host σ) (args : List Slot) (scope : Scope) (es : List Expr) :
    Run (σ × List Invocation) (List Slot) :=
  meanings host.recording args scope (es.map marked)

theorem recorded_invoke (m : Method) (es : List Expr) : (invoke m es).recorded host args scope=(do
    Run.call host.recording m.marked.routine (← recordedAll host args scope es)) := by
  rw [recorded,recordedAll,marked,mapMethods,mapMethodsOf_eq,meaning]

theorem recorded_bind (index : UInt16) (value body : Expr) :
    (bind index value body).recorded host args scope=(do
      let slot ← value.recorded host args scope
      body.recorded host args (scope.bind index slot)) := rfl

theorem recorded_convert (e : Expr) (target : Rep) : (convert e target).recorded host args scope=(do
    Run.lift ((← e.recorded host args scope).convert target)) := rfl

theorem recorded_unbox (e : Expr) (target : Rep) : (unbox e target).recorded host args scope=(do
    Run.lift ((← e.recorded host args scope).unbox target)) := rfl

theorem recorded_box (e : Expr) :
    (box e).recorded host args scope=(do return (← e.recorded host args scope).box) := rfl

theorem recorded_isNull (e : Expr) :
    (isNull e).recorded host args scope=(do return .bool (← e.recorded host args scope).isNullish) := rfl

theorem recorded_not (e : Expr) : (not e).recorded host args scope=(do
    return .bool (!(← Run.lift (← e.recorded host args scope).toBool))) := rfl

theorem recordedAll_cons (e : Expr) (es : List Expr) : recordedAll host args scope (e::es)=(do
    let slot ← e.recorded host args scope
    return slot::(← recordedAll host args scope es)) := rfl

theorem recorded_congr {e : Expr} {inside : List UInt16} {scope' : Scope} (he : e.isClosed inside)
    (h : ∀ i∈inside, scope i=scope' i) : e.recorded host args scope=e.recorded host args scope' :=
  meaning_congr _ args e.marked (isClosed_mapMethods _ e he) h

/-- If an expression has a value, the tree has it too on the host that keeps a record, and adds the calls of the
run to the record. -/
theorem evaluate_recorded {e : Expr} (hs : e.isClosed []) (hk : Slot.Distinct e.constants)
    (h : e.evaluate host args s=(.ok slot,t)) (log : List Invocation) :
    e.recorded host args Scope.empty (s,log)=(.ok slot,(t,log++e.calls host args s)) := by
  cases hc : e.emit with
  | error error =>
    rw [evaluate_refused hc] at h
    cases h
  | ok c =>
    rw [evaluate,hc] at h
    have ran := Machine.run_recording h log
    have closed : e.marked.isClosed [] := isClosed_mapMethods _ e hs
    have own : ∀ slot∈e.constants, c.pooled slot=slot := pooled_eq_self hc hk
    have pool : ∀ slot∈e.marked.constants, c.marked.pooled slot=slot := by
      rw [marked,constants_mapMethods]
      exact own
    have meant : c.marked.run host.recording args c.marked.code.size=
        (e.marked.mapConstants c.marked.pooled).meaning host.recording args Scope.empty :=
      (emit_realizes hc).marked.run_closed closed
    rw [mapConstants_eq_self e.marked pool] at meant
    rw [recorded,calls,hc,←meant]
    exact ran

theorem evaluateEach_recorded {es : List Expr} (hs : ∀ e∈es, e.isClosed [])
    (hk : ∀ e∈es, Slot.Distinct e.constants) {slots : List Slot}
    (h : evaluateEach host args es s=(.ok slots,t)) (log : List Invocation) :
    recordedAll host args Scope.empty es (s,log)=(.ok slots,(t,log++callsEach host args es s)) := by
  induction es generalizing s slots log with
  | nil =>
    cases h
    rw [callsEach,List.append_nil]
    rfl
  | cons e es ih =>
    obtain ⟨slot,u,first,h⟩ := Failure.bind_state_ok h
    obtain ⟨rest,v,others,h⟩ := Failure.bind_state_ok h
    cases h
    have head := evaluate_recorded (hs e (by simp)) (hk e (by simp)) first log
    have tail := ih (fun e he => hs e (by simp [he])) (fun e he => hk e (by simp [he])) others
      (log++e.calls host args s)
    rw [recordedAll_cons]
    simp only [Failure.bind_apply,head,tail,callsEach,first,List.append_assoc]
    rfl

end Expr

end CallLowering
