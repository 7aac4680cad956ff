import CallLowering.Library.Extremum
import CallLowering.Library.NullCheck
import CallLowering.Library.Range
import CallLowering.Library.Rounding
import CallLowering.Proofs.Library.Sound

namespace CallLowering

open CallLowering.Expr Library

variable {bodies : Instances.Bodies} {args : List Slot} {b b' : Builder} {t : TypedExpr}

/-- Boxing what a function of values gives changes nothing about it. -/
theorem toValue_boxed (x : Except RoutineError Value) :
    (do return Slot.boxed (← x) : Except RoutineError Slot).toOption.map Slot.toValue=x.toOption := by
  cases x <;> rfl

namespace Library

theorem NumericPath.rep_of_select {rep : Rep} {specialize : Bool} {path : NumericPath}
    (h : select rep specialize=path) : match path with
      | .passThrough => rep=.int64
      | .native => rep=.float64
      | .dynamic => True := by
  cases path with
  | dynamic => trivial
  | passThrough =>
    cases rep <;> cases specialize <;> cases h
    rfl
  | native =>
    cases rep <;> cases specialize <;> cases h
    rfl

/-- The functions that round: integers stay as they are, floats are rounded natively, and all other values as
they are when the template is rendered. -/
theorem Rounder.lower_sound {native dynamic : Builtin} (hn : native≠.randomInt) (hd : dynamic≠.randomInt)
    {f : Binary64 → Binary64} {g : Value → Except RoutineError Value}
    (hdr : dynamic.returns=.boxed)
    (hnative : ∀ x, native.run [.float64 x]=.ok (.float64 (f x)))
    (hdynamic : ∀ v, dynamic.run [.boxed v]=(do return .boxed (← g v)))
    (hint : ∀ n, g (.int n)=.ok (.int n)) (hfloat : ∀ x, g (.float x)=.ok (.int (f x).toInt64))
    {arg : TypedExpr} {v : Option Value} (hs : Sound bodies args arg.expr v)
    (h : Rounder.lower ⟨⟨native.routine mathOwner [.float64] native.returns,true⟩,
      ⟨dynamic.routine basicOwner [.boxed] dynamic.returns,false⟩⟩ arg b=(.ok t,b')) :
    Sound bodies args t.expr (v.bind fun v => (g v).toOption) := by
  unfold Rounder.lower at h
  obtain ⟨b₁,u,hg,h⟩ := Failure.bind_state_ok h
  cases hg
  cases hp : NumericPath.select arg.rep b.config.bytecode.specializeNumeric with
  | passThrough =>
    rw [hp] at h
    cases h
    have hrep : arg.expr.rep=.int64 := NumericPath.rep_of_select hp
    obtain ⟨n,hc,rfl⟩ := hs.int64 hrep
    rw [Option.bind_some,hint]
    exact .of_some hc
  | native =>
    rw [hp] at h
    obtain ⟨e,u,he,h⟩ := Failure.bind_state_ok h
    cases h
    have hrep : arg.expr.rep=.float64 := NumericPath.rep_of_select hp
    obtain ⟨x,hc,rfl⟩ := hs.float64 hrep
    obtain ⟨-,hcomp⟩ := Build.invoke_computes hn he (.cons hs .nil) rfl (by decide)
    have rounded : (((passed [some (.float x)] [.float64]).mapM id).bind fun slots =>
        (native.run slots).toOption)=some (.float64 (f x)) := by
      change (native.run [.float64 x]).toOption=_
      rw [hnative]
      rfl
    rw [rounded] at hcomp
    rw [Option.bind_some,hfloat]
    exact .of_some (hcomp.convert .int64)
  | dynamic =>
    rw [hp] at h
    obtain ⟨e,u,he,h⟩ := Failure.bind_state_ok h
    cases h
    have sound := Build.invoke_sound hd he (.cons hs .nil) rfl (by decide) (by rw [hdr]; rfl)
      (g := fun ws => (ws.head?.bind fun v => (g v).toOption)) (by
        intro ws hl
        obtain ⟨w,rfl⟩ := List.length_eq_one_iff.mp hl
        exact (congrArg (fun x => x.toOption.map Slot.toValue) (hdynamic w)).trans (toValue_boxed (g w)))
    cases v <;> exact sound

/-- The values that a null check tells apart. -/
theorem NullCheck.bytecode_sound {f : NullCheck} {arg : TypedExpr} {v : Option Value}
    (hs : Sound bodies args arg.expr v) (h : f.bytecode [arg] b=(.ok t,b')) :
    Sound bodies args t.expr (v.map fun v => .bool (if f.negated then !v.isNullish else v.isNullish)) := by
  obtain ⟨x,hx,rfl⟩ := hs.computes
  unfold NullCheck.bytecode at h
  obtain ⟨_,u,harg,h⟩ := Failure.bind_state_ok h
  cases harg
  by_cases hrep : arg.rep=.boxed
  · simp only [if_pos hrep] at h
    cases h
    cases hn : f.negated with
    | false =>
      have sound := Sound.of_unsettled hx.isNull rfl rfl
      simp only [Option.map_map,Function.comp_def,Slot.isNullish_toValue] at sound ⊢
      exact sound
    | true =>
      have null : (x.map fun s => Slot.bool s.isNullish)=
          (x.map fun s => s.toValue.isNullish).map Slot.bool := by
        simp only [Option.map_map,Function.comp_def,Slot.isNullish_toValue]
      have sound := Sound.of_unsettled (null ▸ hx.isNull).not rfl rfl
      simp only [Option.map_map,Function.comp_def] at sound ⊢
      exact sound
  · -- what is not boxed is computed for its faults only
    simp only [if_neg hrep] at h
    obtain ⟨c,u,hcache,h⟩ := Failure.bind_state_ok h
    cases h
    have answer (slot : Slot) (hslot : x=some slot) :
        (if f.negated then !slot.toValue.isNullish else slot.toValue.isNullish)=f.negated := by
      have hne : slot.rep≠.boxed := fun eq => hrep ((hx.rep slot hslot).symm.trans eq)
      rw [Slot.not_isNullish hne]
      cases f.negated <;> rfl
    cases Build.cache_ok hcache with
    | inlined hc _ =>
      obtain ⟨slot,rfl⟩ := Option.isSome_iff_exists.mp (Option.isSome_map .. ▸ hs.settled (.inr hc))
      rw [Option.map_some,Option.map_some,answer slot rfl]
      exact .of_some (.const _)
    | bound _ _ hi =>
      cases x with
      | none => exact .of_unsettled (hx.bind_none hi (by simp) rfl rfl) rfl rfl
      | some slot =>
        rw [Option.map_some,Option.map_some,answer slot rfl]
        exact .of_some (hx.bind hi (by simp) (.const _))

/-- The second operand if it wins, or if the first is not a number; else the first. -/
theorem Extremum.select_computes {f : Extremum} {known : List (UInt16 × Slot)} {first second : Expr}
    {x y : Slot} {rep : Rep} (hx : Computes bodies args known first (some x))
    (hy : Computes bodies args known second (some y)) {o o' : Option Ordering} (ho : y.order x=.ok o)
    (ho' : x.order x=.ok o') (hrx : x.rep=rep) (hry : y.rep=rep) :
    Computes bodies args known (f.select first second rep)
      (some (if f.wins.holds o then y else if rep=.float64 ∧ Comparison.ne.holds o' then y else x)) := by
  have same : second.rep=first.rep := by rw [←hx.rep x rfl,←hy.rep y rfl,hrx,hry]
  rw [Extremum.select]
  by_cases hr : rep=.float64
  · rw [if_pos hr]
    have inner := (hx.compare (k := .ne) hx ho').select hy hx same
    have outer := (hy.compare (k := f.wins) hx ho).select hy inner rfl
    simp only [hr,true_and]
    cases hw : f.wins.holds o <;> cases hn : Comparison.ne.holds o' <;> simp only [hw,hn] at outer <;>
      exact outer
  · rw [if_neg hr]
    have outer := (hy.compare (k := f.wins) hx ho).select hy hx same
    simp only [hr,false_and,if_false]
    cases hw : f.wins.holds o <;> simp only [hw] at outer <;> exact outer

/-- Both operands are computed once, the first before the second, and are both in reach of the choice. -/
theorem Extremum.inPlace_computes {f : Extremum} {first second : Expr} {c c' : Cached} {x y : Slot}
    {rep : Rep} {low mid high : Nat} (hx : Computes bodies args [] first (some x))
    (hy : Computes bodies args [] second (some y)) (hc : Build.Kept first low mid c)
    (hc' : Build.Kept second mid high c') (hfirst : ∀ i∈first.bound, i.toNat < low)
    (hsecond : ∀ i∈second.bound, i.toNat < low) {o o' : Option Ordering} (ho : y.order x=.ok o)
    (ho' : x.order x=.ok o') (hrx : x.rep=rep) (hry : y.rep=rep) :
    Computes bodies args [] (c.finish (c'.finish (f.select c.reference c'.reference rep)))
      (some (if f.wins.holds o then y else if rep=.float64 ∧ Comparison.ne.holds o' then y else x)) := by
  let known := c'.known y++(c.known x++[])
  have above : ∀ l∈known, low ≤ l.1.toNat := by
    intro l hl
    have hle := hc.le
    obtain hl|hl := List.mem_append.mp hl
    · have := (hc'.known_range l hl).1
      omega
    · rw [List.append_nil] at hl
      exact (hc.known_range l hl).1
  have apart {e : Expr} (he : ∀ i∈e.bound, i.toNat < low) : ∀ i∈e.bound, i∉known.map Prod.fst := by
    intro i hi hm
    obtain ⟨l,hl,heq⟩ := List.mem_map.mp hm
    have hlow := above l hl
    rw [heq] at hlow
    have := he i hi
    omega
  have readFirst : Computes bodies args known c.reference (some x) :=
    hc.reference hx (fun l hl => List.mem_append_right _ (List.mem_append_left _ hl)) (apart hfirst)
  have readSecond : Computes bodies args known c'.reference (some y) :=
    hc'.reference hy (fun l hl => List.mem_append_left _ hl) (apart hsecond)
  have choice := Extremum.select_computes (f := f) readFirst readSecond ho ho' hrx hry
  apply hc.finish hx (by simp)
  have between : ∀ i∈second.bound, i∉(c.known x++[]).map Prod.fst := by
    intro i hi hm
    exact apart hsecond i hi (by rw [List.map_append]; exact List.mem_append_right _ hm)
  apply hc'.finish (hy.weaken between) _ choice
  intro l hl
  rw [List.append_nil] at hl
  exact (hc.known_range l hl).2

/-- The functions that choose one of two numbers. -/
theorem Extremum.bytecode_sound {f : Extremum} {dynamic : Builtin} (hd : dynamic≠.randomInt)
    (hdr : dynamic.returns=.boxed)
    (hf : f.dynamic=⟨dynamic.routine basicOwner [.boxed,.boxed] dynamic.returns,false⟩)
    {g : Value → Value → Except RoutineError Value}
    (hdynamic : ∀ v w, dynamic.run [.boxed v,.boxed w]=(do return .boxed (← g v w)))
    (hint : ∀ m n : Int64, g (.int m) (.int n)=
      .ok (.int (if f.wins.holds (some (compare n.toInt m.toInt)) then n else m)))
    (hfloat : ∀ x y, g (.float x) (.float y)=
      .ok (.float (if f.wins.holds (y.order x) then y else if Comparison.ne.holds (x.order x) then y else x)))
    {first second : TypedExpr} {v w : Option Value} (hv : Sound bodies args first.expr v)
    (hw : Sound bodies args second.expr w) (hfirst : ∀ i∈first.expr.bound, i.toNat < b.nextLocal.toNat)
    (hsecond : ∀ i∈second.expr.bound, i.toNat < b.nextLocal.toNat)
    (h : f.bytecode [first,second] b=(.ok t,b')) :
    Sound bodies args t.expr (v.bind fun v => w.bind fun w => (g v w).toOption) := by
  unfold Extremum.bytecode at h
  obtain ⟨_,u,hargs,h⟩ := Failure.bind_state_ok h
  cases hargs
  obtain ⟨_,u,hg,h⟩ := Failure.bind_state_ok h
  cases hg
  by_cases hrep : (decide (first.rep=second.rep) && b.specializes first.rep)=true
  · simp only [if_pos hrep] at h
    obtain ⟨c,b₁,hc,h⟩ := Failure.bind_state_ok h
    obtain ⟨c',b₂,hc',h⟩ := Failure.bind_state_ok h
    cases h
    have hk := Build.cache_ok hc
    have hk' := Build.cache_ok hc'
    simp only [Bool.and_eq_true,decide_eq_true_eq,Builder.specializes] at hrep
    obtain ⟨same,-,native⟩ := hrep
    cases hr : first.rep with
    | int64 =>
      obtain ⟨m,hm,rfl⟩ := hv.int64 hr
      obtain ⟨n,hn,rfl⟩ := hw.int64 (same.symm.trans hr)
      have place := Extremum.inPlace_computes (f := f) hm hn hk hk' hfirst hsecond rfl rfl rfl rfl
      rw [Option.bind_some,Option.bind_some,hint]
      cases hwins : f.wins.holds (some (compare n.toInt m.toInt)) <;> simp [hwins] at place <;>
        exact .of_some place
    | float64 =>
      obtain ⟨x,hx,rfl⟩ := hv.float64 hr
      obtain ⟨y,hy,rfl⟩ := hw.float64 (same.symm.trans hr)
      have place := Extremum.inPlace_computes (f := f) hx hy hk hk' hfirst hsecond rfl rfl rfl rfl
      rw [Option.bind_some,Option.bind_some,hfloat]
      cases hwins : f.wins.holds (y.order x) <;> cases hnan : Comparison.ne.holds (x.order x) <;>
        simp [hwins,hnan] at place <;> exact .of_some place
    | bool =>
      rw [hr] at native
      cases native
    | boxed =>
      rw [hr] at native
      cases native
  · simp only [if_neg hrep,hf] at h
    obtain ⟨e,u,he,h⟩ := Failure.bind_state_ok h
    cases h
    have sound := Build.invoke_sound hd he (.cons hv (.cons hw .nil)) rfl (by decide) (by rw [hdr]; rfl)
      (g := fun ws => do (g (← ws[0]?) (← ws[1]?)).toOption) (by
        intro ws hl
        obtain ⟨v,w,rfl⟩ := List.length_eq_two.mp hl
        exact (congrArg (fun x => x.toOption.map Slot.toValue) (hdynamic v w)).trans (toValue_boxed (g v w)))
    cases v <;> cases w <;> exact sound

/-- A progression from one, two or three numbers. -/
def progression : List Value → Except RoutineError Value
  | [stop] => do Value.range 0 (← stop.toInt) 1
  | [start,stop] => do Value.range (← start.toInt) (← stop.toInt) 1
  | [start,stop,step] => do Value.range (← start.toInt) (← stop.toInt) (← step.toInt)
  | vs => .error (.argumentCount RangeFunction.name 1 vs.length)

/-- One, two or three arguments, each related to what belongs to it. -/
theorem upToThree_related {α β : Type} {R : α → β → Prop} {function : String} {as : List α} {bs : List β}
    {u : Unit} (hs : List.Forall₂ R as bs) (h : upToThree function as=.ok u) :
    (∃ x y, R x y ∧ as=[x] ∧ bs=[y]) ∨
      (∃ x₁ x₂ y₁ y₂, R x₁ y₁ ∧ R x₂ y₂ ∧ as=[x₁,x₂] ∧ bs=[y₁,y₂]) ∨
      ∃ x₁ x₂ x₃ y₁ y₂ y₃, R x₁ y₁ ∧ R x₂ y₂ ∧ R x₃ y₃ ∧ as=[x₁,x₂,x₃] ∧ bs=[y₁,y₂,y₃] := by
  have few : as.length ≤ 3 := by
    rw [upToThree] at h
    split at h
    · next size => exact size.2
    · cases h
  match hs with
  | .nil => cases h
  | .cons hx .nil => exact .inl ⟨_,_,hx,rfl,rfl⟩
  | .cons hx (.cons hy .nil) => exact .inr (.inl ⟨_,_,_,_,hx,hy,rfl,rfl⟩)
  | .cons hx (.cons hy (.cons hz .nil)) => exact .inr (.inr ⟨_,_,_,_,_,_,hx,hy,hz,rfl,rfl⟩)
  | .cons _ (.cons _ (.cons _ (.cons _ _))) =>
    simp only [List.length_cons] at few
    omega

theorem RangeFunction.bytecode_sound {f : RangeFunction}
    (h₁ : f.upTo=⟨Builtin.rangeTo.routine basicOwner [.int64] .boxed,false⟩)
    (h₂ : f.between=⟨Builtin.rangeBetween.routine basicOwner [.int64,.int64] .boxed,false⟩)
    (h₃ : f.stepped=⟨Builtin.rangeBy.routine basicOwner [.int64,.int64,.int64] .boxed,false⟩)
    {es : List TypedExpr} {vs : List (Option Value)}
    (hs : List.Forall₂ (fun (e : TypedExpr) v => Sound bodies args e.expr v) es vs)
    (h : f.bytecode es b=(.ok t,b')) :
    Sound bodies args t.expr ((vs.mapM id).bind fun vs => (progression vs).toOption) := by
  unfold RangeFunction.bytecode at h
  obtain ⟨_,u,hcount,h⟩ := Failure.bind_state_ok h
  obtain ⟨e,v,hv,rfl,rfl⟩|⟨e,e',v,w,hv,hw,rfl,rfl⟩|⟨e,e',e'',v,w,x,hv,hw,hx,rfl,rfl⟩ :=
    upToThree_related hs (Failure.lift_ok hcount).1
  · obtain ⟨m,u',hm,h⟩ := Failure.bind_state_ok h
    cases hm
    obtain ⟨e,u',he,h⟩ := Failure.bind_state_ok h
    cases h
    rw [h₁] at he
    apply Build.invoke_sound (by decide) he (.cons hv .nil) rfl (by decide) rfl
    intro ws hl
    obtain ⟨w,rfl⟩ := List.length_eq_one_iff.mp hl
    rw [unboxAll,progression]
    simp only [List.zipWith,Slot.unboxValue]
    cases w.toInt with
    | error e => rfl
    | ok n => exact toValue_boxed (Value.range 0 n 1)
  · obtain ⟨m,u',hm,h⟩ := Failure.bind_state_ok h
    cases hm
    obtain ⟨e,u',he,h⟩ := Failure.bind_state_ok h
    cases h
    rw [h₂] at he
    apply Build.invoke_sound (by decide) he (.cons hv (.cons hw .nil)) rfl (by decide) rfl
    intro ws hl
    obtain ⟨v,w,rfl⟩ := List.length_eq_two.mp hl
    rw [unboxAll,progression]
    simp only [List.zipWith,Slot.unboxValue]
    cases v.toInt with
    | error e => rfl
    | ok m =>
      cases w.toInt with
      | error e => rfl
      | ok n => exact toValue_boxed (Value.range m n 1)
  · obtain ⟨_,u',hstep,h⟩ := Failure.bind_state_ok h
    obtain ⟨-,rfl⟩ := Failure.lift_ok hstep
    obtain ⟨m,u',hm,h⟩ := Failure.bind_state_ok h
    cases hm
    obtain ⟨e,u',he,h⟩ := Failure.bind_state_ok h
    cases h
    rw [h₃] at he
    apply Build.invoke_sound (by decide) he (.cons hv (.cons hw (.cons hx .nil))) rfl (by decide) rfl
    intro ws hl
    obtain ⟨v,w,x,rfl⟩ := List.length_eq_three.mp hl
    rw [unboxAll,progression]
    simp only [List.zipWith,Slot.unboxValue]
    cases v.toInt with
    | error e => rfl
    | ok m =>
      cases w.toInt with
      | error e => rfl
      | ok n =>
        cases x.toInt with
        | error e => rfl
        | ok k => exact toValue_boxed (Value.range m n k)

end Library

end CallLowering
