import CallLowering.Proofs.Chunk.Pooling
import CallLowering.Proofs.Library.Standard
import CallLowering.Proofs.Lowering.Direct

namespace CallLowering

open Library CallLowering.Expr

/-- A call of a basic function whose arguments may be calls of basic functions again. -/
inductive Nesting
  | constant (slot : Slot) (type : SemanticType)
  | argument (index : UInt16) (rep : Rep) (type : SemanticType)
  | call (f : PureFunction) (ns : List Nesting)

namespace Nesting

/-- What a nesting is lowered to, from the inside out. No call is refused or reported, and none takes a local
that its arguments bind. -/
inductive Lowered (r : Registry) : Nesting → TypedExpr → Prop
  | constant (slot : Slot) (type : SemanticType) : Lowered r (constant slot type) ⟨.const slot,type⟩
  | argument (index : UInt16) (rep : Rep) (type : SemanticType) :
      Lowered r (argument index rep type) ⟨.arg index rep,type⟩
  | call {f : PureFunction} {ns : List Nesting} {es : List TypedExpr} (site : CallSite) (log : DiagnosticLog)
      (hargs : List.Forall₂ (Lowered r) ns es) (hname : site.function=f.name)
      (htypes : site.argTypes=es.map TypedExpr.type)
      (hlocals : ∀ e∈es, ∀ i∈e.expr.bound, i.toNat < site.firstLocal.toNat) {t : TypedExpr}
      (h : r.lower site (.bytecode es) log=(.ok (.expression t),log)) : Lowered r (call f ns) t

/-- The arguments that a nesting refers to are there, in the representations that it says. -/
inductive Fits (args : List Slot) : Nesting → Prop
  | constant (slot : Slot) (type : SemanticType) : Fits args (constant slot type)
  | argument {index : UInt16} {rep : Rep} (h : args[index.toNat]?.map Slot.rep=some rep)
      (type : SemanticType) : Fits args (argument index rep type)
  | call (f : PureFunction) {ns : List Nesting} (h : ∀ n∈ns, Fits args n) : Fits args (call f ns)

mutual

/-- What the functions say, if all of them say something. -/
def value (args : List Slot) : Nesting → Option Value
  | constant slot _ => some slot.toValue
  | argument index _ _ => args[index.toNat]?.map Slot.toValue
  | call f ns => (values args ns).bind f.apply

def values (args : List Slot) : List Nesting → Option (List Value)
  | [] => some []
  | n::ns => do return (← n.value args)::(← values args ns)

end

theorem values_eq (args : List Slot) (ns : List Nesting) : values args ns=(ns.map (value args)).mapM id := by
  induction ns with
  | nil => rfl
  | cons n ns ih => rw [values,ih,List.map_cons,List.mapM_cons,id]

/-- Induction over the calls of a nesting gives the hypothesis for all arguments. -/
theorem Lowered.induction {r : Registry} {motive : Nesting → TypedExpr → Prop}
    (constant : ∀ slot type, motive (.constant slot type) ⟨.const slot,type⟩)
    (argument : ∀ index rep type, motive (.argument index rep type) ⟨.arg index rep,type⟩)
    (call : ∀ (f : PureFunction) {ns : List Nesting} {es : List TypedExpr} {site : CallSite}
      {log : DiagnosticLog} {t : TypedExpr}, List.Forall₂ motive ns es → site.function=f.name →
      (∀ e∈es, ∀ i∈e.expr.bound, i.toNat < site.firstLocal.toNat) →
      r.lower site (.bytecode es) log=(.ok (.expression t),log) → motive (.call f ns) t)
    {n : Nesting} {t : TypedExpr} (h : Lowered r n t) : motive n t :=
  @Lowered.rec r (fun n t _ => motive n t) (fun ns es _ => List.Forall₂ motive ns es) constant argument
    (@fun f _ _ _ _ _ hname _ hlocals _ h ih => call f ih hname hlocals h) .nil
    (fun _ _ hn hns => .cons hn hns) n t h

variable (bodies : Instances.Bodies) {args : List Slot} {config : Config} {n : Nesting} {t t' : TypedExpr}

theorem sound_all {ns : List Nesting} {es : List TypedExpr}
    (h : List.Forall₂ (fun n (t : TypedExpr) => n.Fits args → Sound bodies args t.expr (n.value args)) ns es)
    (hf : ∀ n∈ns, n.Fits args) :
    List.Forall₂ (fun (e : TypedExpr) v => Sound bodies args e.expr v) es (ns.map (value args)) := by
  induction h with
  | nil => exact .nil
  | @cons n e ns es hn hns ih => exact .cons (hn (hf n (by simp))) (ih fun n hn => hf n (by simp [hn]))

/-- Whatever the configuration says, the expression for a nesting computes what the functions say. -/
theorem Lowered.sound (h : Lowered ⟨standardEntries,config⟩ n t) (hf : n.Fits args) :
    Sound bodies args t.expr (n.value args) := by
  refine Lowered.induction (motive := fun n t => n.Fits args → Sound bodies args t.expr (n.value args))
    ?_ ?_ ?_ h hf
  · intro slot type _
    rw [value]
    exact .of_some (.const slot)
  · intro index rep type hf
    rw [value]
    cases hf with
    | argument h _ =>
      obtain ⟨slot,hslot,hrep⟩ := Option.map_eq_some_iff.mp h
      rw [hslot]
      exact .of_some (.arg hslot hrep)
  · intro f ns es site log t ih hname hlocals h hf
    obtain ⟨e,he,hc⟩ := f.find_standard config
    obtain ⟨t',b',ht,hexpr⟩ := Registry.lower_expression h (hname ▸ he) hc
    rw [value,values_eq,hexpr]
    cases hf with
    | call _ hf => exact f.sound (sound_all bodies ih hf) hlocals ht

def specializing (config : Config) (specialize : Bool) : Config := {config with bytecode := ⟨specialize⟩}

/-- Two runs from one state of the host, which leave it as it is: both fail, or both give the same value, up to
the sign of zeros and the payload of what is not a number. -/
inductive SameOutcome (i : Instances) : Except Fault Slot × Instances → Except Fault Slot × Instances → Prop
  | failed (fault fault' : Fault) : SameOutcome i (.error fault,i) (.error fault',i)
  | gave {slot slot' : Slot} (h : slot.toValue.canonical=slot'.toValue.canonical) :
      SameOutcome i (.ok slot,i) (.ok slot',i)

/-- Two trees that compute one value. -/
theorem SameOutcome.of_sound {e e' : Expr} {v : Option Value} {c c' : Chunk} (h : Sound bodies args e v)
    (h' : Sound bodies args e' v) (hc : e.emit=.ok c) (hc' : e'.emit=.ok c') (i : Instances) :
    SameOutcome i (e.evaluate (Instances.host bodies) args i) (e'.evaluate (Instances.host bodies) args i) := by
  obtain ⟨x,hx,hv⟩ := h.computes
  obtain ⟨y,hy,hw⟩ := h'.computes
  have same : x.map Slot.toValue=y.map Slot.toValue := hv.trans hw.symm
  have runs := evaluate_of_computes hx hc i
  have runs' := evaluate_of_computes hy hc' i
  cases x with
  | none =>
    cases y with
    | none =>
      obtain ⟨fault,hfault⟩ := runs
      obtain ⟨fault',hfault'⟩ := runs'
      rw [hfault,hfault']
      exact .failed fault fault'
    | some y => cases same
  | some x =>
    cases y with
    | none => cases same
    | some y =>
      obtain ⟨slot,hslot,hcanonical⟩ := runs
      obtain ⟨slot',hslot',hcanonical'⟩ := runs'
      rw [hslot,hslot']
      apply SameOutcome.gave
      calc slot.toValue.canonical
          _=slot.canonical.toValue := slot.toValue_canonical.symm
          _=x.canonical.toValue := by rw [hcanonical]
          _=y.canonical.toValue := by rw [x.toValue_canonical,y.toValue_canonical,Option.some.inj same]
          _=slot'.canonical.toValue := by rw [hcanonical']
          _=slot'.toValue.canonical := slot'.toValue_canonical

/-- Of two expressions for one nesting, one that uses native numbers and one that does not, nobody can tell by
their values which is which, unless only one of them can be emitted. Each can be that is not too large for its own
jumps. -/
theorem Lowered.specialize_unobservable {r r' : Registry}
    (hr : build (specializing config true) RoutineTable.standard=.ok r)
    (hr' : build (specializing config false) RoutineTable.standard=.ok r') (h : Lowered r n t)
    (h' : Lowered r' n t') (hf : n.Fits args) :
    (t.expr.codeSize < 2^32 → ∃ c, t.expr.emit=.ok c) ∧ (t'.expr.codeSize < 2^32 → ∃ c, t'.expr.emit=.ok c) ∧
      (((∃ c, t.expr.emit=.ok c) ↔ ∃ c, t'.expr.emit=.ok c) → ∀ i : Instances,
        SameOutcome i (t.expr.evaluate (Instances.host bodies) args i)
          (t'.expr.evaluate (Instances.host bodies) args i)) := by
  cases (build_standard (specializing config true)).symm.trans hr
  cases (build_standard (specializing config false)).symm.trans hr'
  have sound : Sound bodies args t.expr (n.value args) := h.sound bodies hf
  have sound' : Sound bodies args t'.expr (n.value args) := h'.sound bodies hf
  refine ⟨sound.emitted,sound'.emitted,fun both i => ?_⟩
  cases hc : t.expr.emit with
  | ok c =>
    obtain ⟨c',hc'⟩ := both.mp ⟨c,hc⟩
    exact .of_sound bodies sound sound' hc hc' i
  | error e =>
    cases hc' : t'.expr.emit with
    | ok c' =>
      obtain ⟨c,emitted⟩ := both.mpr ⟨c',hc'⟩
      cases hc.symm.trans emitted
    | error e' =>
      rw [evaluate_refused hc,evaluate_refused hc']
      exact .failed (.lower e) (.lower e')

-- locals are checked one by one; there are too many to ask each whether it is one of them
instance (priority := high) decidableLocals (p : UInt16 → Prop) [DecidablePred p] (is : List UInt16) :
    Decidable (∀ i∈is, p i) := List.decidableBAll p is

/-- The smaller of the larger of two numbers and a third, rounded. -/
def clamped : Nesting :=
  call .ceiling [call .min [call .max [argument 0 .float64 .float,argument 1 .float64 .float],
    constant (.float64 (.ofInt 7)) .float]]

theorem Lowered.specialize_unobservable_clamped :
    let bodies : Instances.Bodies := fun _ _ _ => .error (.missingReceiver "Host")
    let args : List Slot := [.float64 (.ofInt 5),.float64 (.ofInt 9)]
    ∃ t t', Lowered ⟨standardEntries,specializing .default true⟩ clamped t ∧
      Lowered ⟨standardEntries,specializing .default false⟩ clamped t' ∧
      SameOutcome .empty (t.expr.evaluate (Instances.host bodies) args .empty)
        (t'.expr.evaluate (Instances.host bodies) args .empty) := by
  intro bodies args
  let place : SourceLocation := ⟨0,0,4⟩
  have lowered (on : Bool) : ∃ t, Lowered ⟨standardEntries,specializing .default on⟩ clamped t ∧
      t.expr.codeSize < 2^32 := by
    cases on <;>
      exact ⟨_,.call ⟨"ceiling",[.float],place,3⟩ .empty (.cons
        (.call ⟨"min",[.float,.float],place,2⟩ .empty (.cons
          (.call ⟨"max",[.float,.float],place,0⟩ .empty (.cons (.argument 0 _ _) (.cons (.argument 1 _ _) .nil))
            rfl rfl (by decide) rfl)
          (.cons (.constant _ _) .nil)) rfl rfl (by decide) rfl) .nil) rfl rfl (by decide) rfl,by decide⟩
  obtain ⟨t,h,hsize⟩ := lowered true
  obtain ⟨t',h',hsize'⟩ := lowered false
  have fits : clamped.Fits args := by
    have first : Fits args (.argument 0 .float64 .float) := .argument rfl _
    have second : Fits args (.argument 1 .float64 .float) := .argument rfl _
    have third : Fits args (.constant (.float64 (.ofInt 7)) .float) := .constant _ _
    have larger : Fits args (.call .max [.argument 0 .float64 .float,.argument 1 .float64 .float]) :=
      .call _ (by simp [first,second])
    exact .call _ (List.forall_mem_singleton.mpr (.call _ (by simp [larger,third])))
  obtain ⟨emits,emits',same⟩ :=
    h.specialize_unobservable bodies (build_standard _) (build_standard _) h' fits
  exact ⟨t,t',h,h',same (iff_of_true (emits hsize) (emits' hsize')) .empty⟩

/-- The larger of a boxed number and of the larger of two native ones; then of two such nestings, and so on. -/
def doubled : Nat → Nesting
  | 0 => call .max [argument 0 .boxed .number,call .max [argument 1 .int64 .int,argument 1 .int64 .int]]
  | d+1 => call .max [doubled d,doubled d]

/-- What all these calls become but for the innermost ones, which become `leaf`. -/
def tower (leaf : Expr) : Nat → Expr
  | 0 => .invoke standardMax.dynamic [.arg 0 .boxed,leaf]
  | d+1 => .invoke standardMax.dynamic [tower leaf d,tower leaf d]

/-- The innermost call, with and without native numbers. -/
def innermost : Bool → Expr
  | true => .box (.select (.compare .gt (.arg 1 .int64) (.arg 1 .int64)) (.arg 1 .int64) (.arg 1 .int64))
  | false => .invoke standardMax.dynamic [.box (.arg 1 .int64),.box (.arg 1 .int64)]

section

variable (leaf : Expr) (d : Nat)

theorem codeSize_tower : (tower leaf d).codeSize+1=(leaf.codeSize+3)*2^d := by
  induction d with
  | zero => simp [tower,codeSize,codeSizes,Nat.add_comm 1]
  | succ d ih =>
    simp only [tower,codeSize,codeSizes]
    rw [Nat.pow_succ,←Nat.mul_assoc,←ih]
    omega

theorem bound_tower (h : leaf.bound=[]) : (tower leaf d).bound=[] := by
  induction d with
  | zero => simp [tower,bound,boundIn,h]
  | succ d ih => simp [tower,bound,boundIn,ih]

/-- Behind the last of the innermost calls only the calls around it are left. -/
theorem exists_last_tower (place : Nat) :
    ∃ p, (p,leaf)∈(tower leaf d).nodes place ∧ p+leaf.codeSize+d+1=place+(tower leaf d).codeSize := by
  induction d generalizing place with
  | zero =>
    refine ⟨place+1,?_,?_⟩
    · cases leaf <;> simp [tower,nodes,nodesOf,codeSize]
    · simp only [tower,codeSize,codeSizes]
      omega
  | succ d ih =>
    obtain ⟨p,last,behind⟩ := ih (place+(tower leaf d).codeSize)
    refine ⟨p,?_,?_⟩
    · simp [tower,nodes,nodesOf,last]
    · simp only [tower,codeSize,codeSizes]
      omega

end

theorem lowered_doubled (on : Bool) (d : Nat) :
    Lowered ⟨standardEntries,specializing .default on⟩ (doubled d) ⟨tower (innermost on) d,.number⟩ := by
  let place : SourceLocation := ⟨0,0,4⟩
  have none : (innermost on).bound=[] := by cases on <;> rfl
  induction d with
  | zero =>
    cases on <;>
      exact .call ⟨"max",[.number,.int],place,0⟩ .empty (.cons (.argument 0 _ _) (.cons
        (.call ⟨"max",[.int,.int],place,0⟩ .empty (.cons (.argument 1 _ _) (.cons (.argument 1 _ _) .nil))
          rfl rfl (by decide) rfl) .nil)) rfl rfl (by decide) rfl
  | succ d ih =>
    have free : ∀ e∈[(⟨tower (innermost on) d,.number⟩ : TypedExpr),⟨tower (innermost on) d,.number⟩],
        ∀ i∈e.expr.bound, i.toNat < (0 : UInt16).toNat := by simp [bound_tower _ d none]
    cases on <;> cases d <;>
      exact .call ⟨"max",[.number,.number],place,0⟩ .empty (.cons ih (.cons ih .nil)) rfl rfl free rfl

theorem fits_doubled (d : Nat) : (doubled d).Fits [.boxed (.int 1),.int64 2] := by
  induction d with
  | zero =>
    have first : Fits [.boxed (.int 1),.int64 2] (argument 0 .boxed .number) := .argument rfl _
    have second : Fits [.boxed (.int 1),.int64 2] (argument 1 .int64 .int) := .argument rfl _
    have inner : Fits [.boxed (.int 1),.int64 2] (call .max [argument 1 .int64 .int,argument 1 .int64 .int]) :=
      .call _ (by simp [second])
    exact .call _ (by simp [first,inner])
  | succ d ih => exact .call _ (by simp [ih])

theorem value_doubled (d : Nat) : (doubled d).value [.boxed (.int 1),.int64 2]=some (.int 2) := by
  induction d with
  | zero => rfl
  | succ d ih =>
    rw [doubled,value,values,values,values,ih]
    rfl

/-- Native numbers are chosen between by jumps, and the last jump has to reach nearly the end of the code. -/
theorem reaches_of_emit_tower {d : Nat} {c : Chunk} (h : (tower (innermost true) d).emit=.ok c) :
    11*2^d < 2^32+d+3 := by
  have size : (tower (innermost true) d).codeSize+1=11*2^d := codeSize_tower _ d
  obtain ⟨p,last,behind⟩ := exists_last_tower (innermost true) d 0
  have stands : c.Contains p (innermost true) := Chunk.contains_of_mem_nodes _ last (emit_realizes h).contains
  obtain ⟨⟨-,-,-,⟨done,-,reached⟩,-⟩,-⟩ := stands
  have within : done.toNat < 2^32 := done.toNat_lt
  have ends : p+8+d+1=0+(tower (innermost true) d).codeSize := behind
  have target : done.toNat=p+3+1+1+1+1 := reached
  omega

/-- Of a nesting of thirty-one levels the code with native numbers is too large for its own jumps. The code without
them has no jumps, and computes a value. -/
theorem not_specialize_unobservable :
    let bodies : Instances.Bodies := fun _ _ _ => .error (.missingReceiver "Host")
    let args : List Slot := [.boxed (.int 1),.int64 2]
    ∃ r r' t t', build (specializing .default true) RoutineTable.standard=.ok r ∧
      build (specializing .default false) RoutineTable.standard=.ok r' ∧ Lowered r (doubled 29) t ∧
      Lowered r' (doubled 29) t' ∧ (doubled 29).Fits args ∧
      ¬SameOutcome .empty (t.expr.evaluate (Instances.host bodies) args .empty)
        (t'.expr.evaluate (Instances.host bodies) args .empty) := by
  intro bodies args
  have lowered' := lowered_doubled false 29
  have fits : (doubled 29).Fits args := fits_doubled 29
  refine ⟨_,_,_,_,build_standard _,build_standard _,lowered_doubled true 29,lowered',fits,?_⟩
  have refused : ∃ e, (tower (innermost true) 29).emit=.error e := by
    cases h : (tower (innermost true) 29).emit with
    | error e => exact ⟨e,rfl⟩
    | ok c => exact absurd (reaches_of_emit_tower h) (by decide)
  obtain ⟨e,he⟩ := refused
  have sound' : Sound bodies args (tower (innermost false) 29) ((doubled 29).value args) :=
    lowered'.sound bodies fits
  have small : (tower (innermost false) 29).codeSize < 2^32 := by
    have size : (tower (innermost false) 29).codeSize+1=8*2^29 := codeSize_tower _ 29
    omega
  obtain ⟨c,hc⟩ := sound'.emitted small
  obtain ⟨x,hx,hv⟩ := sound'.computes
  rw [value_doubled] at hv
  obtain ⟨y,rfl,-⟩ := Option.map_eq_some_iff.mp hv
  obtain ⟨slot,gave,-⟩ := evaluate_of_computes hx hc .empty
  rw [evaluate_refused he,gave]
  intro same
  cases same

end Nesting

end CallLowering
