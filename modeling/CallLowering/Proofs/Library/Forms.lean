import CallLowering.Proofs.Expr.Coerced
import CallLowering.Proofs.Library.Standard

namespace CallLowering

/-- The local that a cached tree takes. -/
def Cached.locals : Cached → List UInt16
  | .inlined _ => []
  | .bound index _ => [index]

namespace Build.Kept

open CallLowering.Expr

variable {e body : Expr} {low high : Nat} {c : Cached} {inside : List UInt16}

theorem locals_range (h : Kept e low high c) : ∀ i∈c.locals, low ≤ i.toNat ∧ i.toNat < high := by
  cases h with
  | inlined hc hle => simp [Cached.locals]
  | bound hl hh hi =>
    intro i hm
    rw [List.mem_singleton.mp hm]
    exact ⟨hl,hh⟩

theorem bound_reference (h : Kept e low high c) : c.reference.bound=[] := by
  cases h with
  | inlined hc hle => exact bound_of_isCheap e hc
  | bound hl hh hi => rfl

theorem mem_bound_finish (h : Kept e low high c) {i : UInt16} (hi : i∈(c.finish body).bound) :
    i∈c.locals ∨ i∈e.bound ∨ i∈body.bound := by
  cases h with
  | inlined hc hle => exact .inr (.inr hi)
  | bound hl hh hr => simpa [Cached.finish,Cached.locals,Expr.bound] using hi

theorem isClosed_reference (h : Kept e low high c) (he : e.isClosed inside) :
    c.reference.isClosed (c.locals++inside) := by
  cases h with
  | inlined hc hle => exact he
  | bound hl hh hi => simp [Cached.reference,Cached.locals,isClosed]

theorem isClosed_finish (h : Kept e low high c) (he : e.isClosed inside)
    (hbody : body.isClosed (c.locals++inside)) (hn : ∀ i∈c.locals, i∉body.bound) :
    (c.finish body).isClosed inside := by
  cases h with
  | inlined hc hle => exact hbody
  | @bound index hl hh hi =>
    simp only [Cached.finish,isClosed,Bool.and_eq_true,decide_eq_true_eq]
    rw [inBody,if_neg (hn index List.mem_cons_self)]
    exact ⟨⟨hi,he⟩,hbody⟩

end Build.Kept

namespace Library

theorem Extremum.isClosed_select {f : Extremum} {first second : Expr} {rep : Rep} {inside : List UInt16}
    (h : first.isClosed inside) (h' : second.isClosed inside) :
    (f.select first second rep).isClosed inside := by
  rw [select]
  split <;> simp [Expr.isClosed,h,h']

theorem Extremum.bound_select {f : Extremum} {first second : Expr} {rep : Rep} (h : first.bound=[])
    (h' : second.bound=[]) : (f.select first second rep).bound=[] := by
  rw [select]
  split <;> simp [Expr.bound,h,h']

/-- A basic function, with its routines. -/
inductive Function
  | rounding (f : Rounding)
  | range (f : RangeFunction)
  | nullCheck (f : NullCheck)
  | extremum (f : Extremum)
  | randomInt (f : RandomInt)

namespace Function

def bytecode : Function → BytecodeLowering
  | rounding f => f.bytecode
  | range f => f.bytecode
  | nullCheck f => f.bytecode
  | extremum f => f.bytecode
  | randomInt f => f.bytecode

/-- The type of a call with arguments of these types. -/
def type : Function → List SemanticType → SemanticType
  | rounding _,_ => .int
  | range _,_ => .list .int
  | nullCheck _,_ => .bool
  | extremum _,[a,b] => Extremum.resultType a b
  | extremum _,_ => .number
  | randomInt _,_ => .int

/-- The routines that a call as a whole may be left to. -/
def own : Function → List Method
  | rounding f => [f.rounder.dynamic]
  | range f => [f.upTo,f.between,f.stepped]
  | nullCheck _ => []
  | extremum f => [f.dynamic]
  | randomInt f => [f.routine]

/-- The basic functions with the routines of a table. -/
inductive Resolved (table : RoutineTable) : Function → Prop
  | ceiling {f : Rounding} (h : Rounding.ceiling table=.ok f) : Resolved table (rounding f)
  | floor {f : Rounding} (h : Rounding.floor table=.ok f) : Resolved table (rounding f)
  | range {f : RangeFunction} (h : RangeFunction.resolve table=.ok f) : Resolved table (range f)
  | isNull {f : NullCheck} (h : NullCheck.isNull table=.ok f) : Resolved table (nullCheck f)
  | isNonnull {f : NullCheck} (h : NullCheck.isNonnull table=.ok f) : Resolved table (nullCheck f)
  | max {f : Extremum} (h : Extremum.max table=.ok f) : Resolved table (extremum f)
  | min {f : Extremum} (h : Extremum.min table=.ok f) : Resolved table (extremum f)
  | randomInt {f : RandomInt} (h : RandomInt.resolve table=.ok f) : Resolved table (randomInt f)

/-- The parameters of the routines. Native rounding may be repeated. -/
def WellFormed : Function → Prop
  | rounding f =>
      f.rounder.native.params=[.float64] ∧ f.rounder.native.cheap ∧ f.rounder.dynamic.params=[.boxed]
  | range f =>
      f.upTo.params=[.int64] ∧ f.between.params=[.int64,.int64] ∧ f.stepped.params=[.int64,.int64,.int64]
  | nullCheck _ => True
  | extremum f => f.dynamic.params=[.boxed,.boxed]
  | randomInt f => f.routine.params=[.int64]

end Function

theorem params_of_resolve {table : RoutineTable} {owner name : String} {params : List Rep} {m : Method}
    (h : Method.resolve table owner name params=.ok m) : m.params=params := by
  unfold Method.resolve at h
  split at h
  · next r hr =>
    cases h
    exact RoutineTable.params_of_lookup hr
  · cases h

theorem Rounder.wellFormed {table : RoutineTable} {routine : String} {r : Rounder}
    (h : Rounder.resolve table routine=.ok r) :
    r.native.params=[.float64] ∧ r.native.cheap ∧ r.dynamic.params=[.boxed] := by
  obtain ⟨native,hn,h⟩ := Failure.bind_ok h
  obtain ⟨dynamic,hd,h⟩ := Failure.bind_ok h
  cases h
  have params : native.params=[.float64] := params_of_resolve hn
  exact ⟨params,rfl,params_of_resolve hd⟩

theorem Function.Resolved.wellFormed {table : RoutineTable} {f : Function} (h : f.Resolved table) :
    f.WellFormed := by
  cases h with
  | ceiling h =>
    obtain ⟨r,hr,h⟩ := Failure.bind_ok h
    cases h
    exact Rounder.wellFormed hr
  | floor h =>
    obtain ⟨r,hr,h⟩ := Failure.bind_ok h
    cases h
    exact Rounder.wellFormed hr
  | range h =>
    obtain ⟨upTo,hu,h⟩ := Failure.bind_ok h
    obtain ⟨between,hb,h⟩ := Failure.bind_ok h
    obtain ⟨stepped,hs,h⟩ := Failure.bind_ok h
    cases h
    exact ⟨params_of_resolve hu,params_of_resolve hb,params_of_resolve hs⟩
  | isNull h => trivial
  | isNonnull h => trivial
  | max h =>
    obtain ⟨m,hm,h⟩ := Failure.bind_ok h
    cases h
    exact params_of_resolve hm
  | min h =>
    obtain ⟨m,hm,h⟩ := Failure.bind_ok h
    cases h
    exact params_of_resolve hm
  | randomInt h =>
    obtain ⟨m,hm,h⟩ := Failure.bind_ok h
    cases h
    exact params_of_resolve hm

/-- What a call with these arguments becomes, where the locals from `low` on are free. -/
inductive Form (low : Nat) : Function → List Expr → Expr → Prop
  /-- An integer rounds to itself. -/
  | passed {f : Rounding} {e : Expr} (hr : e.rep=.int64) : Form low (.rounding f) [e] e
  /-- A float is rounded natively. -/
  | rounded {f : Rounding} {e e' : Expr} (h : Expr.Coerced .float64 e e') :
      Form low (.rounding f) [e] (.convert (.invoke f.rounder.native [e']) .int64)
  /-- The call is left to a routine. -/
  | called {f : Function} {m : Method} {es es' : List Expr} (hm : m∈f.own)
      (h : Expr.AllCoerced m.params es es') : Form low f es (.invoke m es')
  | tested {f : NullCheck} {e : Expr} : Form low (.nullCheck f) [e] (.isNull e)
  | testedNot {f : NullCheck} {e : Expr} : Form low (.nullCheck f) [e] (.not (.isNull e))
  /-- The answer is known, and the argument computed for its effects. -/
  | kept {f : NullCheck} {e : Expr} {c : Cached} {high : Nat} (h : Build.Kept e low high c) (b : Bool) :
      Form low (.nullCheck f) [e] (c.finish (.bool b))
  /-- One of two values is chosen in place. -/
  | chosen {f : Extremum} {first second : Expr} {c c' : Cached} {mid high : Nat} {rep : Rep}
      (h : Build.Kept first low mid c) (h' : Build.Kept second mid high c') (hr : first.rep=rep)
      (hr' : second.rep=rep) (hn : rep.isNativeNumeric) :
      Form low (.extremum f) [first,second] (c.finish (c'.finish (f.select c.reference c'.reference rep)))

/-- A call of a routine with as many arguments as it has parameters. -/
theorem invoke_coerced {m : Method} {es : List Expr} {e : Expr} {b b' : Builder}
    (hl : es.length=m.params.length) (h : Build.invoke m es b=(.ok e,b')) :
    ∃ es', Expr.AllCoerced m.params es es' ∧ e=.invoke m es' := by
  obtain ⟨es',hc,-,rfl⟩ := Build.invoke_ok h
  exact ⟨es',coerceAll_coerced hl hc,rfl⟩

namespace Function

variable {f : Function} {es : List TypedExpr} {t : TypedExpr} {b b' : Builder}

/-- What the bytecode capability gives has one of the forms, and the type of the call. -/
def Shaped (f : Function) (es : List TypedExpr) (t : TypedExpr) (b : Builder) : Prop :=
  Form b.nextLocal.toNat f (es.map TypedExpr.expr) t.expr ∧ t.type=f.type (es.map TypedExpr.type)

theorem rounding_shaped {f : Rounding} (hf : (rounding f).WellFormed)
    (h : f.bytecode es b=(.ok t,b')) : (rounding f).Shaped es t b := by
  obtain ⟨native,-,dynamic⟩ := hf
  obtain ⟨e,hone,lowered⟩ := Failure.bind_lift_ok h
  cases one_ok hone
  have chosen := Failure.bind_get lowered
  cases hp : NumericPath.select e.rep b.config.bytecode.specializeNumeric with
  | passThrough =>
    simp only [hp] at chosen
    cases chosen
    exact ⟨.passed (NumericPath.rep_of_select hp),rfl⟩
  | native =>
    simp only [hp] at chosen
    obtain ⟨i,u,hi,done⟩ := Failure.bind_state_ok chosen
    cases done
    obtain ⟨es',hc,rfl⟩ := invoke_coerced (by rw [native]; rfl) hi
    rw [native] at hc
    obtain ⟨e',rest,⟨p,hp,hc⟩,hrest,rfl⟩ := List.forall₂_cons_left_iff.mp hc
    cases hrest
    cases List.mem_singleton.mp hp
    exact ⟨.rounded hc,rfl⟩
  | dynamic =>
    simp only [hp] at chosen
    obtain ⟨i,u,hi,done⟩ := Failure.bind_state_ok chosen
    cases done
    obtain ⟨es',hc,rfl⟩ := invoke_coerced (by rw [dynamic]; rfl) hi
    exact ⟨.called List.mem_cons_self hc,rfl⟩

theorem range_shaped {f : RangeFunction} (hf : (range f).WellFormed)
    (h : f.bytecode es b=(.ok t,b')) : (range f).Shaped es t b := by
  obtain ⟨upTo,between,stepped⟩ := hf
  -- the call behind the check of the step
  have called {m : Method} (hm : m∈(range f).own) (hl : es.length=m.params.length)
      (h : (do return ⟨← Build.invoke m (es.map TypedExpr.expr),.list .int⟩ : Build TypedExpr) b=(.ok t,b')) :
      (range f).Shaped es t b := by
    obtain ⟨i,u,hi,done⟩ := Failure.bind_state_ok h
    cases done
    obtain ⟨es',hc,rfl⟩ := invoke_coerced (by rw [List.length_map,hl]) hi
    exact ⟨.called hm hc,rfl⟩
  obtain ⟨_,hcount,checked⟩ := Failure.bind_lift_ok h
  have same : List.Forall₂ Eq es es := List.forall₂_same.mpr fun _ _ => rfl
  obtain ⟨e,_,-,rfl,-⟩|⟨e,e',_,_,-,-,rfl,-⟩|⟨e,e',step,_,_,_,-,-,-,rfl,-⟩ := upToThree_related same hcount
  · exact called (by simp [own]) (by rw [upTo]; rfl) checked
  · exact called (by simp [own]) (by rw [between]; rfl) checked
  · obtain ⟨_,-,checked⟩ := Failure.bind_lift_ok checked
    exact called (by simp [own]) (by rw [stepped]; rfl) checked

theorem nullCheck_shaped {f : NullCheck} (h : f.bytecode es b=(.ok t,b')) :
    (nullCheck f).Shaped es t b := by
  obtain ⟨e,hone,lowered⟩ := Failure.bind_lift_ok h
  cases one_ok hone
  by_cases hrep : e.rep=.boxed
  · simp only [if_pos hrep] at lowered
    cases lowered
    cases hn : f.negated with
    | false => exact ⟨by simpa [hn] using Form.tested,rfl⟩
    | true => exact ⟨by simpa [hn] using Form.testedNot,rfl⟩
  · simp only [if_neg hrep] at lowered
    obtain ⟨c,u,hc,done⟩ := Failure.bind_state_ok lowered
    cases done
    exact ⟨.kept (Build.cache_ok hc) _,rfl⟩

theorem extremum_shaped {f : Extremum} (hf : (extremum f).WellFormed)
    (h : f.bytecode es b=(.ok t,b')) : (extremum f).Shaped es t b := by
  obtain ⟨⟨e,e'⟩,htwo,lowered⟩ := Failure.bind_lift_ok h
  cases two_ok htwo
  have chosen := Failure.bind_get lowered
  by_cases hrep : (decide (e.rep=e'.rep) && b.specializes e.rep)=true
  · simp only [if_pos hrep] at chosen
    obtain ⟨c,b₁,hc,rest⟩ := Failure.bind_state_ok chosen
    obtain ⟨c',b₂,hc',done⟩ := Failure.bind_state_ok rest
    cases done
    simp only [Bool.and_eq_true,decide_eq_true_eq,Builder.specializes] at hrep
    obtain ⟨same,-,native⟩ := hrep
    exact ⟨.chosen (Build.cache_ok hc) (Build.cache_ok hc') rfl same.symm native,rfl⟩
  · simp only [if_neg hrep] at chosen
    obtain ⟨i,u,hi,done⟩ := Failure.bind_state_ok chosen
    cases done
    obtain ⟨es',hc,rfl⟩ := invoke_coerced (by rw [show f.dynamic.params=_ from hf]; rfl) hi
    exact ⟨.called List.mem_cons_self hc,rfl⟩

theorem randomInt_shaped {f : RandomInt} (hf : (randomInt f).WellFormed)
    (h : f.bytecode es b=(.ok t,b')) : (randomInt f).Shaped es t b := by
  obtain ⟨e,hone,lowered⟩ := Failure.bind_lift_ok h
  cases one_ok hone
  obtain ⟨_,-,checked⟩ := Failure.bind_lift_ok lowered
  obtain ⟨i,u,hi,done⟩ := Failure.bind_state_ok checked
  cases done
  obtain ⟨es',hc,rfl⟩ := invoke_coerced (by rw [show f.routine.params=_ from hf]; rfl) hi
  exact ⟨.called List.mem_cons_self hc,rfl⟩

theorem shaped (hf : f.WellFormed) (h : f.bytecode es b=(.ok t,b')) : f.Shaped es t b := by
  cases f with
  | rounding f => exact rounding_shaped hf h
  | range f => exact range_shaped hf h
  | nullCheck f => exact nullCheck_shaped h
  | extremum f => exact extremum_shaped hf h
  | randomInt f => exact randomInt_shaped hf h

end Function

/-- Closed arguments make a closed tree, if the locals that they bind are not taken again. -/
theorem Form.isClosed {low : Nat} {f : Function} {es : List Expr} {t : Expr} (h : Form low f es t)
    (hc : ∀ e∈es, e.isClosed []) (hb : ∀ e∈es, ∀ i∈e.bound, i.toNat < low) : t.isClosed [] := by
  cases h with
  | passed hr => exact hc _ List.mem_cons_self
  | rounded h =>
    have inner := h.isClosed (hc _ List.mem_cons_self)
    simp [Expr.isClosed,inner]
  | called hm h =>
    have inner := Expr.AllCoerced.areClosed h hc
    simpa only [Expr.isClosed,Expr.areClosed_iff] using inner
  | @tested f e =>
    have inner := hc e (by simp)
    simpa only [Expr.isClosed] using inner
  | @testedNot f e =>
    have inner := hc e (by simp)
    simpa only [Expr.isClosed] using inner
  | kept h b => exact h.isClosed_finish (hc _ List.mem_cons_self) rfl (by simp [Expr.bool,Expr.bound])
  | @chosen f first second c c' mid high rep h h' hr hr' hn =>
    have hfirst := hc first (by simp)
    have hsecond := Expr.isClosed_mono second (List.nil_subset c.locals) (hc second (by simp))
    let choice := f.select c.reference c'.reference rep
    have unbound : choice.bound=[] := Extremum.bound_select h.bound_reference h'.bound_reference
    have closed : choice.isClosed (c'.locals++c.locals) := by
      have first := Expr.isClosed_mono c.reference (List.subset_append_right c'.locals _)
        (h.isClosed_reference hfirst)
      rw [List.append_nil] at first
      exact Extremum.isClosed_select first (h'.isClosed_reference hsecond)
    have inner : (c'.finish choice).isClosed c.locals := by
      apply h'.isClosed_finish hsecond closed
      rw [unbound]
      simp
    apply h.isClosed_finish hfirst (by rwa [List.append_nil])
    -- the local of the first is neither that of the second nor bound in it
    intro i hi hm
    have range := h.locals_range i hi
    obtain hm|hm|hm := h'.mem_bound_finish hm
    · have := (h'.locals_range i hm).1
      omega
    · have := hb second (by simp) i hm
      omega
    · rw [unbound] at hm
      cases hm

end Library

end CallLowering
