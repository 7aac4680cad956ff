import CallLowering.Proofs.Expr.Promises
import CallLowering.Proofs.Library.Forms
import CallLowering.Proofs.Lowering.Direct
import CallLowering.Proofs.Routine.Results
import Mathlib

namespace CallLowering

variable {σ : Type} {host : Host σ} {args : List Slot}

/-- The host runs the built-in routines; of a random number it is only asked to be an integer. -/
structure Host.RunsBuiltins (host : Host σ) : Prop where
  runs : ∀ r b, r.body=.builtin b → b≠.randomInt → ∀ slots s, host.enter r slots s=(b.run slots,s)
  draws : ∀ r, r.body=.builtin .randomInt → ∀ slots s slot t, host.enter r slots s=(.ok slot,t) →
    ∃ n, slot=.int64 n

theorem Instances.host_runsBuiltins (bodies : Instances.Bodies) : (Instances.host bodies).RunsBuiltins where
  runs _ _ hb hne := enter_of_builtin bodies hb hne
  draws _ hb _ _ _ _ he := Slot.exists_int64 (rep_of_enter hb he)

theorem Host.RunsBuiltins.result (hh : host.RunsBuiltins) {r : Routine} {b : Builtin} (hb : r.body=.builtin b)
    {slots : List Slot} {s t : σ} {slot : Slot} (he : host.enter r slots s=(.ok slot,t)) :
    slot.rep=b.returns ∧ b.type.admits slot.toValue := by
  by_cases hne : b=.randomInt
  · subst b
    obtain ⟨n,rfl⟩ := hh.draws r hb slots s slot t he
    exact ⟨rfl,rfl⟩
  · have run : b.run slots=.ok slot := by
      rw [hh.runs r b hb hne] at he
      exact congrArg Prod.fst he
    exact ⟨Builtin.rep_of_run run,Builtin.admits_of_run run⟩

namespace Slot

/-- A slot in this representation, with a value of this type. -/
def Fits (rep : Rep) (type : SemanticType) (slot : Slot) : Prop :=
  slot.rep=rep ∧ type.admits slot.toValue

variable {s s' : Slot}

theorem rep_of_canonical (h : s'.canonical=s.canonical) : s'.rep=s.rep := by
  have rep_canonical (s : Slot) : s.canonical.rep=s.rep := by cases s <;> rfl
  rw [←rep_canonical s',h,rep_canonical]

theorem admits_of_canonical (h : s'.canonical=s.canonical) (type : SemanticType) :
    type.admits s'.toValue=type.admits s.toValue := by
  rw [←type.admits_canonical s'.toValue,←toValue_canonical,h,toValue_canonical,type.admits_canonical]

theorem Fits.of_canonical {rep : Rep} {type : SemanticType} (h : s.Fits rep type)
    (hc : s'.canonical=s.canonical) : s'.Fits rep type :=
  ⟨(rep_of_canonical hc).trans h.1,(admits_of_canonical hc type).trans h.2⟩

theorem fits_int (h : s.rep=.int64) : s.Fits .int64 .int := by
  cases s with
  | int64 n => exact ⟨rfl,rfl⟩
  | _ => cases h

theorem admits_number (h : s.rep.isNativeNumeric) : SemanticType.number.admits s.toValue := by
  cases s with
  | int64 n => rfl
  | float64 x => rfl
  | _ => cases h

theorem toValue_of_convert_boxed (h : s.convert .boxed=.ok s') : s'.toValue=s.toValue := by
  cases s <;> cases h <;> rfl

end Slot

/-- Whatever the host does, the expression gives values of its type, in its representation. -/
structure TypedExpr.Conforms (host : Host σ) (args : List Slot) (t : TypedExpr) : Prop where
  closed : t.expr.isClosed []
  promises : t.expr.Promises host args [] (Slot.Fits t.expr.rep t.type)

theorem TypedExpr.Conforms.const {slot : Slot} {type : SemanticType} (h : type.admits slot.toValue) :
    Conforms host args ⟨.const slot,type⟩ :=
  ⟨rfl,.const fun _ hc => Slot.Fits.of_canonical ⟨rfl,h⟩ hc⟩

/-- A box holds the value that was put into it. -/
theorem Expr.Coerced.promises {e e' : Expr} (h : Expr.Coerced .boxed e e') {type : SemanticType}
    {known : List (UInt16 × (Slot → Prop))}
    (he : e.Promises host args known fun s => type.admits s.toValue) :
    e'.Promises host args known fun s => type.admits s.toValue := by
  have same (s s' : Slot) (hs : type.admits s.toValue) (hc : s.convert .boxed=.ok s') :
      type.admits s'.toValue := by rwa [Slot.toValue_of_convert_boxed hc]
  cases h with
  | same hr => exact he
  | @folded slot slot' hc =>
    intro pool hp scope hs s
    have base : type.admits slot.toValue := he id (fun _ => rfl) scope hs s
    exact (Slot.admits_of_canonical (hp slot') type).trans (same slot slot' base hc)
  | boxed hb => exact he.box fun s hs => hs
  | unboxed => exact he.unbox same
  | converted => exact he.convert same

theorem Cached.rep_finish (c : Cached) (body : Expr) : (c.finish body).rep=body.rep := by
  cases c <;> rfl

theorem Cached.rep_reference {e : Expr} {low high : Nat} {c : Cached} (h : Build.Kept e low high c) :
    c.reference.rep=e.rep := by
  cases h <;> rfl

namespace Build.Kept

variable {e body : Expr} {low high : Nat} {c : Cached} {P Q : Slot → Prop}
  {known : List (UInt16 × (Slot → Prop))}

theorem promises_reference (h : Kept e low high c) (he : e.Promises host args [] P)
    (hk : ∀ i∈c.locals, (i,P)∈known) : c.reference.Promises host args known P := by
  cases h with
  | inlined hc hle => exact he.weaken
  | bound hl hh hi => exact .readLocal (hk _ List.mem_cons_self)

theorem promises_finish (h : Kept e low high c) (he : e.Promises host args [] P)
    (hl : ∀ l∈known, l.1.toNat < low)
    (hbody : body.Promises host args (c.locals.map (fun i => (i,P))++known) Q) :
    (c.finish body).Promises host args known Q := by
  cases h with
  | inlined hc hle => exact hbody
  | @bound index hlow hh hi =>
    apply he.weaken.bind _ hbody
    intro hm
    obtain ⟨l,hmem,heq⟩ := List.mem_map.mp hm
    have := hl l hmem
    rw [heq] at this
    omega

end Build.Kept

namespace Library

open CallLowering.Expr

/-- What the standard routines of a function return: values of the type of the call, or one of two numbers. -/
theorem Function.Resolved.own_builtin {f : Function} (hf : f.Resolved RoutineTable.standard) {m : Method}
    (hm : m∈f.own) : ∃ b, m.routine.body=.builtin b ∧ b.returns=m.returns ∧
      ((∀ types, f.type types=b.type) ∨
        (b=.max ∨ b=.min) ∧ m.params=[.boxed,.boxed] ∧ ∃ g, f=.extremum g) := by
  cases hf with
  | ceiling h =>
    cases (show Rounding.ceiling RoutineTable.standard=.ok standardCeiling from rfl).symm.trans h
    cases List.mem_singleton.mp hm
    exact ⟨.ceil,rfl,rfl,.inl fun _ => rfl⟩
  | floor h =>
    cases (show Rounding.floor RoutineTable.standard=.ok standardFloor from rfl).symm.trans h
    cases List.mem_singleton.mp hm
    exact ⟨.floor,rfl,rfl,.inl fun _ => rfl⟩
  | range h =>
    cases (show RangeFunction.resolve RoutineTable.standard=.ok standardRange from rfl).symm.trans h
    simp only [Function.own,List.mem_cons,List.not_mem_nil,or_false] at hm
    obtain rfl|rfl|rfl := hm <;> exact ⟨_,rfl,rfl,.inl fun _ => rfl⟩
  | isNull h => cases hm
  | isNonnull h => cases hm
  | max h =>
    cases (show Extremum.max RoutineTable.standard=.ok standardMax from rfl).symm.trans h
    cases List.mem_singleton.mp hm
    exact ⟨.max,rfl,rfl,.inr ⟨.inl rfl,rfl,_,rfl⟩⟩
  | min h =>
    cases (show Extremum.min RoutineTable.standard=.ok standardMin from rfl).symm.trans h
    cases List.mem_singleton.mp hm
    exact ⟨.min,rfl,rfl,.inr ⟨.inr rfl,rfl,_,rfl⟩⟩
  | randomInt h =>
    cases (show RandomInt.resolve RoutineTable.standard=.ok ⟨⟨randomIntRoutine,false⟩⟩ from rfl).symm.trans h
    cases List.mem_singleton.mp hm
    exact ⟨.randomInt,rfl,rfl,.inl fun _ => rfl⟩

/-- Two operands of one type of numbers have it as their result; all others have numbers. -/
theorem Function.type_extremum (f : Extremum) (types : List SemanticType) :
    (∃ type, types=[type,type] ∧ type.isNumeric ∧ (extremum f).type types=type) ∨
      (extremum f).type types=.number := by
  match types with
  | [a,b] =>
    by_cases h : a=b ∧ a.isNumeric
    · obtain ⟨rfl,hn⟩ := h
      exact .inl ⟨a,rfl,hn,if_pos ⟨rfl,hn⟩⟩
    · exact .inr (if_neg h)
  | [] => exact .inr rfl
  | [_] => exact .inr rfl
  | _::_::_::_ => exact .inr rfl

theorem Extremum.promises_select {f : Extremum} {first second : Expr} {rep : Rep}
    {known : List (UInt16 × (Slot → Prop))} {P : Slot → Prop} (h : Promises host args known P first)
    (h' : Promises host args known P second) : Promises host args known P (f.select first second rep) := by
  rw [select]
  split
  · exact .select _ h' (.select _ h' h)
  · exact .select _ h' h

end Library

namespace Host.RunsBuiltins

open CallLowering.Expr

variable {m : Method} {b : Builtin}

/-- Whatever its arguments are, a call of a built-in routine gives what the routine returns. -/
theorem promises (hh : host.RunsBuiltins) (hb : m.routine.body=.builtin b) (es : List Expr) :
    Promises host args [] (Slot.Fits b.returns b.type) (.invoke m es) := by
  have anything : List.Forall₂ (fun e P => Promises host args [] P e) es (es.map fun _ _ => True) := by
    rw [List.forall₂_map_right_iff]
    exact List.forall₂_same.mpr fun e _ => Promises.nothing e
  apply Promises.invoke anything
  intro slots s slot t _ he
  exact hh.result hb he

/-- The greater and the smaller of two values of one type of numbers are of this type. -/
theorem promises_choice (hh : host.RunsBuiltins) (hb : m.routine.body=.builtin b) (hc : b=.max ∨ b=.min)
    {type : SemanticType} (hn : type.isNumeric) {first second : Expr}
    (h : Promises host args [] (fun s => type.admits s.toValue) first)
    (h' : Promises host args [] (fun s => type.admits s.toValue) second) :
    Promises host args [] (Slot.Fits b.returns type) (.invoke m [first,second]) := by
  have hne : b≠.randomInt := by
    rintro rfl
    simp at hc
  apply Promises.invoke (.cons h (.cons h' .nil))
  intro slots s slot t hslots he
  obtain ⟨x,rest,hx,hrest,rfl⟩ := List.forall₂_cons_right_iff.mp hslots
  obtain ⟨y,rest',hy,hrest',rfl⟩ := List.forall₂_cons_right_iff.mp hrest
  cases hrest'
  have run : b.run [x,y]=.ok slot := by
    rw [hh.runs m.routine b hb hne] at he
    exact congrArg Prod.fst he
  exact ⟨Builtin.rep_of_run run,Builtin.admits_of_choice hc hn hx hy run⟩

end Host.RunsBuiltins

namespace Library

open CallLowering.Expr

namespace Form

variable {f : Function} {es : List Expr} {types : List SemanticType}

/-- A routine that is called with the values of the arguments gives a value of the type of the call. -/
theorem promises_called (hh : host.RunsBuiltins) (hf : f.Resolved RoutineTable.standard) {m : Method}
    (hm : m∈f.own) {es' : List Expr} (hc : AllCoerced m.params es es')
    (hes : List.Forall₂ (fun e type => TypedExpr.Conforms host args ⟨e,type⟩) es types) :
    Promises host args [] (Slot.Fits m.returns (f.type types)) (.invoke m es') := by
  obtain ⟨b,hb,hret,htype⟩ := hf.own_builtin hm
  rw [←hret]
  obtain same|⟨hchoice,hparams,g,rfl⟩ := htype
  · rw [same]
    exact hh.promises hb es'
  · obtain ⟨type,rfl,hn,htype⟩|htype := Function.type_extremum g types
    · -- the routine gets the values of the operands, each in a box
      have boxed {e e' : Expr} (he : TypedExpr.Conforms host args ⟨e,type⟩)
          (hc : ∃ p∈m.params, Coerced p e e') : e'.Promises host args [] fun s => type.admits s.toValue := by
        obtain ⟨p,hp,hc⟩ := hc
        obtain rfl : p=.boxed := by simpa [hparams] using hp
        exact hc.promises (he.promises.mono fun s hs => hs.2)
      obtain ⟨first,rest,hfirst,hrest,rfl⟩ := List.forall₂_cons_right_iff.mp hes
      obtain ⟨second,rest',hsecond,hrest',rfl⟩ := List.forall₂_cons_right_iff.mp hrest
      cases hrest'
      obtain ⟨first',rest,coerced,hrest,rfl⟩ := List.forall₂_cons_left_iff.mp hc
      obtain ⟨second',rest',coerced',hrest',rfl⟩ := List.forall₂_cons_left_iff.mp hrest
      cases hrest'
      rw [htype]
      exact hh.promises_choice hb hchoice hn (boxed hfirst coerced) (boxed hsecond coerced')
    · have number : b.type=.number := by obtain rfl|rfl := hchoice <;> rfl
      rw [htype,←number]
      exact hh.promises hb es'

/-- One of two kept values of native numbers is a value of the type of the call. -/
theorem promises_chosen {f : Extremum} {first second : Expr} {type type' : SemanticType} {c c' : Cached}
    {low mid high : Nat} {rep : Rep} (h : Build.Kept first low mid c) (h' : Build.Kept second mid high c')
    (hr : first.rep=rep) (hr' : second.rep=rep) (hn : rep.isNativeNumeric)
    (hfirst : TypedExpr.Conforms host args ⟨first,type⟩)
    (hsecond : TypedExpr.Conforms host args ⟨second,type'⟩) :
    Promises host args [] (Slot.Fits rep ((Function.extremum f).type [type,type']))
      (c.finish (c'.finish (f.select c.reference c'.reference rep))) := by
  have result (slot : Slot) (hrep : slot.rep=rep)
      (hadmits : type.admits slot.toValue ∨ type'.admits slot.toValue) :
      slot.Fits rep ((Function.extremum f).type [type,type']) := by
    obtain ⟨t,htypes,-,htype⟩|htype := Function.type_extremum f [type,type']
    · cases htypes
      rw [htype]
      exact ⟨hrep,hadmits.elim id id⟩
    · rw [htype]
      exact ⟨hrep,Slot.admits_number (hrep ▸ hn)⟩
  have given : first.Promises host args [] (Slot.Fits rep ((Function.extremum f).type [type,type'])) :=
    hfirst.promises.mono fun slot hs => result slot (hs.1.trans hr) (.inl hs.2)
  have given' : second.Promises host args [] (Slot.Fits rep ((Function.extremum f).type [type,type'])) :=
    hsecond.promises.mono fun slot hs => result slot (hs.1.trans hr') (.inr hs.2)
  apply h.promises_finish given (by simp)
  apply h'.promises_finish given'
  · intro l hl
    rw [List.append_nil] at hl
    obtain ⟨i,hi,rfl⟩ := List.mem_map.mp hl
    exact (h.locals_range i hi).2
  · apply Extremum.promises_select
    · exact h.promises_reference given fun i hi => by simp [hi]
    · exact h'.promises_reference given' fun i hi => by simp [hi]

/-- The forms of lowered calls give values of the type of the call, if the arguments give values of theirs. -/
theorem promises (hh : host.RunsBuiltins) {low : Nat} (hf : f.Resolved RoutineTable.standard) {e : Expr}
    (h : Form low f es e)
    (hes : List.Forall₂ (fun e type => TypedExpr.Conforms host args ⟨e,type⟩) es types) :
    e.Promises host args [] (Slot.Fits e.rep (f.type types)) := by
  cases h with
  | @passed f e hr =>
    obtain ⟨type,rest,he,-,rfl⟩ := List.forall₂_cons_left_iff.mp hes
    apply he.promises.mono
    intro slot hslot
    rw [hr]
    exact Slot.fits_int (hslot.1.trans hr)
  | rounded h =>
    exact (Promises.nothing _).convert fun _ slot _ hc => Slot.fits_int (Slot.rep_of_convert hc)
  | called hm hc => exact promises_called hh hf hm hc hes
  | tested => exact .isNull (fun b => ⟨rfl,rfl⟩) _
  | testedNot => exact .not (fun b => ⟨rfl,rfl⟩) _
  | @kept f e c high h b =>
    obtain ⟨type,rest,he,-,rfl⟩ := List.forall₂_cons_left_iff.mp hes
    apply h.promises_finish he.promises (by simp)
    apply Promises.const
    intro slot hc
    rw [Cached.rep_finish]
    exact Slot.Fits.of_canonical ⟨rfl,rfl⟩ hc
  | @chosen f first second c c' mid high rep h h' hr hr' hn =>
    obtain ⟨type,rest,hfirst,hrest,rfl⟩ := List.forall₂_cons_left_iff.mp hes
    obtain ⟨type',rest',hsecond,hrest',rfl⟩ := List.forall₂_cons_left_iff.mp hrest
    cases hrest'
    have rep_choice : (c.finish (c'.finish (f.select c.reference c'.reference rep))).rep=rep := by
      rw [Cached.rep_finish,Cached.rep_finish]
      exact (Cached.rep_reference h').trans hr'
    rw [rep_choice]
    exact promises_chosen h h' hr hr' hn hfirst hsecond

end Form

theorem admits_number_of_isNumeric {type : SemanticType} (hn : type.isNumeric) {v : Value}
    (h : type.admits v) : SemanticType.number.admits v := by
  cases type with
  | int =>
    obtain ⟨n,rfl⟩ := SemanticType.exists_int h
    rfl
  | float =>
    obtain ⟨x,rfl⟩ := SemanticType.exists_float h
    rfl
  | number => exact h
  | _ => cases hn

/-- The functions that the standard registry holds. What they declare to return is never less than the type of
a call. -/
theorem standard_function {config : Config} {name : String} {e : FunctionEntry}
    (he : Registry.find? ⟨standardEntries,config⟩ name=some e) :
    ∃ f : Function, f.Resolved RoutineTable.standard ∧ e.capabilities.bytecode=some f.bytecode ∧
      ∀ o∈e.signature.overloads, ∀ types v, (f.type types).admits v → o.returns.admits v := by
  have number {f : Extremum} (types : List SemanticType) (v : Value)
      (h : ((Function.extremum f).type types).admits v) : SemanticType.number.admits v := by
    obtain ⟨type,-,hn,htype⟩|htype := Function.type_extremum f types
    · rw [htype] at h
      exact admits_number_of_isNumeric hn h
    · rwa [htype] at h
  have mem : e∈standardEntries := List.mem_of_find?_eq_some he
  simp only [standardEntries,List.mem_cons,List.not_mem_nil,or_false] at mem
  obtain rfl|rfl|rfl|rfl|rfl|rfl|rfl|rfl := mem
  · refine ⟨.rounding standardCeiling,.ceiling rfl,rfl,?_⟩
    simp [Rounding.signature,Function.type]
  · refine ⟨.rounding standardFloor,.floor rfl,rfl,?_⟩
    simp [Rounding.signature,Function.type]
  · refine ⟨.range standardRange,.range rfl,rfl,?_⟩
    simp [RangeFunction.signature,Function.type]
  · refine ⟨.nullCheck (standardNullCheck "isNull" false),.isNull rfl,rfl,?_⟩
    simp [NullCheck.signature,Function.type]
  · refine ⟨.nullCheck (standardNullCheck "isNonnull" true),.isNonnull rfl,rfl,?_⟩
    simp [NullCheck.signature,Function.type]
  · refine ⟨.extremum standardMax,.max rfl,rfl,?_⟩
    intro o ho
    cases List.mem_singleton.mp ho
    exact number
  · refine ⟨.extremum standardMin,.min rfl,rfl,?_⟩
    intro o ho
    cases List.mem_singleton.mp ho
    exact number
  · refine ⟨.randomInt ⟨⟨randomIntRoutine,false⟩⟩,.randomInt rfl,rfl,?_⟩
    simp [RandomInt.signature,Function.type]

end Library

/-- The static type of a call is the one that was found for it or the declared one. -/
theorem TypedExpr.Conforms.narrow {t : TypedExpr} (h : t.Conforms host args) {declared : SemanticType}
    (hd : ∀ v, t.type.admits v → declared.admits v) : (t.narrow declared).Conforms host args := by
  rw [TypedExpr.narrow]
  split
  · exact h
  · exact ⟨h.closed,h.promises.mono fun slot hs => ⟨hs.1,hd _ hs.2⟩⟩

open Library

/-- Expressions for calls that are lowered from the inside out with one registry. Constants have the types that
they are given, and arguments are there, in the representations and with the types that they are given. A call
takes no local that its arguments bind; it may be lowered, or refused and replaced. -/
inductive Compiled (r : Registry) (args : List Slot) : TypedExpr → Prop
  | constant {slot : Slot} {type : SemanticType} (h : type.admits slot.toValue) :
      Compiled r args ⟨.const slot,type⟩
  | argument {index : UInt16} {rep : Rep} {type : SemanticType} {slot : Slot}
      (hslot : args[index.toNat]?=some slot) (h : slot.Fits rep type) : Compiled r args ⟨.arg index rep,type⟩
  | call {es : List TypedExpr} {t : TypedExpr} {log log' : DiagnosticLog} (site : CallSite)
      (hargs : ∀ e∈es, Compiled r args e) (htypes : site.argTypes=es.map TypedExpr.type)
      (hlocals : ∀ e∈es, ∀ i∈e.expr.bound, i.toNat < site.firstLocal.toNat)
      (h : r.lower site (.bytecode es) log=(.ok (.expression t),log')) : Compiled r args t

namespace Compiled

variable {config : Config} {t : TypedExpr}

theorem conforms (hh : host.RunsBuiltins) (h : Compiled ⟨standardEntries,config⟩ args t) :
    t.Conforms host args := by
  induction h with
  | constant h => exact .const h
  | argument hslot h => exact ⟨rfl,.arg hslot h⟩
  | @call es t log log' site _ _ hlocals h ih =>
    rw [Registry.lower_eq] at h
    cases hx : (Registry.tryLower (.direct : Runner Id) ⟨standardEntries,config⟩ site (.bytecode es)).run with
    | ok a =>
      rw [hx] at h
      cases h
      obtain ⟨e,o,he,ho,dispatched⟩ := Registry.tryLower_ok hx
      obtain ⟨f,hf,hc,declared⟩ := standard_function he
      obtain ⟨t',b',ht,rfl⟩ := Registry.dispatch_bytecode_ok hc dispatched
      obtain ⟨form,type⟩ := Function.shaped hf.wellFormed ht
      have closed : t'.expr.isClosed [] := by
        apply form.isClosed
        · simpa using fun e he => (ih e he).closed
        · simpa using hlocals
      have conform : List.Forall₂ (fun e type => TypedExpr.Conforms host args ⟨e,type⟩)
          (es.map TypedExpr.expr) (es.map TypedExpr.type) := by
        rw [List.forall₂_map_left_iff,List.forall₂_map_right_iff]
        exact List.forall₂_same.mpr fun e he => ih e he
      have promises := form.promises hh hf conform
      rw [←type] at promises
      have overload : o∈e.signature.overloads := List.mem_of_find?_eq_some (Signature.select_ok ho).1
      apply TypedExpr.Conforms.narrow ⟨closed,promises⟩
      intro v hv
      rw [type] at hv
      exact declared o overload _ v hv
    | error e =>
      rw [hx] at h
      by_cases hu : e.errorClass=.user
      · simp only [if_pos hu] at h
        cases h
        exact .const rfl
      · simp only [if_neg hu] at h
        cases h

/-- If the expression for nested calls of the basic functions gives a value, it is one of its static type. -/
theorem evaluate_admits (hh : host.RunsBuiltins) {r : Registry}
    (hr : build config RoutineTable.standard=.ok r) (ht : Compiled r args t) {s s' : σ} {slot : Slot}
    (h : t.expr.evaluate host args s=(.ok slot,s')) : t.type.admits slot.toValue := by
  cases (build_standard config).symm.trans hr
  have conforms := ht.conforms hh
  cases hc : t.expr.emit with
  | error e =>
    rw [Expr.evaluate_refused hc] at h
    cases h
  | ok c =>
    rw [Expr.evaluate_closed hc conforms.closed] at h
    have promised := conforms.promises c.pooled (Expr.pooled_canonical c) Scope.empty (by simp [Scope.Meets])
    exact (promised.result h).2

/-- The larger of a drawn number and of an argument that is rounded up, of which no type is known. -/
theorem evaluate_admits_largerDrawn :
    let host := Instances.host fun _ _ _ => .error (.missingReceiver "Host")
    let args : List Slot := [.boxed (.int 3)]
    ∃ t : TypedExpr, Compiled ⟨standardEntries,.default⟩ args t ∧ t.type=.int ∧
      ∃ slot s, t.expr.evaluate host args (.standard (.listed [7]) 1)=(.ok slot,s) ∧ t.type.admits slot.toValue := by
  intro host args
  let site (name : String) (types : List SemanticType) : CallSite := ⟨name,types,⟨0,0,4⟩,0⟩
  let drawn : TypedExpr := ⟨.invoke ⟨randomIntRoutine,false⟩ [.int 10],.int⟩
  let rounded : TypedExpr := ⟨.invoke standardCeiling.rounder.dynamic [.arg 0 .boxed],.int⟩
  let larger : TypedExpr := ⟨.invoke standardMax.dynamic [.box drawn.expr,rounded.expr],.int⟩
  have limit : Compiled ⟨standardEntries,.default⟩ args (.ofInt 10) := .constant rfl
  have given : Compiled ⟨standardEntries,.default⟩ args ⟨.arg 0 .boxed,.unknown⟩ := .argument rfl ⟨rfl,rfl⟩
  have compiledDrawn : Compiled ⟨standardEntries,.default⟩ args drawn :=
    @Compiled.call _ _ _ _ .empty _ (site "randomInt" [.int]) (List.forall_mem_singleton.mpr limit) rfl
      (by simp [TypedExpr.ofInt,Expr.int,Expr.bound]) rfl
  have compiledRounded : Compiled ⟨standardEntries,.default⟩ args rounded :=
    @Compiled.call _ _ _ _ .empty _ (site "ceiling" [.unknown]) (List.forall_mem_singleton.mpr given) rfl
      (by simp [Expr.bound]) rfl
  have compiledLarger : Compiled ⟨standardEntries,.default⟩ args larger :=
    @Compiled.call _ _ _ _ .empty _ (site "max" [.int,.int])
      (List.forall_mem_cons.mpr ⟨compiledDrawn,List.forall_mem_singleton.mpr compiledRounded⟩) rfl
      (by simp [drawn,rounded,Expr.int,Expr.bound,Expr.boundIn]) rfl
  have runs : (Instances.host fun _ _ _ => .error (.missingReceiver "Host")).RunsBuiltins :=
    Instances.host_runsBuiltins _
  obtain ⟨slot,s,h⟩ : ∃ slot s, larger.expr.evaluate host args (.standard (.listed [7]) 1)=(.ok slot,s) := ⟨_,_,by cbv⟩
  exact ⟨larger,compiledLarger,rfl,slot,s,h,evaluate_admits runs (build_standard _) compiledLarger h⟩

end Compiled

end CallLowering
