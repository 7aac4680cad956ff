import CallLowering.Proofs.Expr.Behind
import CallLowering.Proofs.Expr.Repeated
import CallLowering.Proofs.Library.Operands
import CallLowering.Proofs.Library.Rounded

namespace CallLowering

open CallLowering.Expr

variable {σ : Type} {host : Host σ} {args : List Slot} {scope : Scope} {s : σ}

/-- Built-in routines that need no receiver may be called again. -/
theorem Host.RunsBuiltins.repeats (hh : host.RunsBuiltins) {ms : List Method}
    (h : ∀ m∈ms, m.cheap → m.routine.builtin?.isSome) : host.Repeats ms := by
  intro m hm hc slots
  obtain ⟨b,hb⟩ := Option.isSome_iff_exists.mp (h m hm hc)
  exact ⟨_,hh.answer hb slots⟩

namespace Expr

/-- Expressions whose runs give their meanings, one after the other. -/
theorem evaluateEach_eq_meanings {es : List Expr}
    (h : ∀ e∈es, e.evaluate host args=e.meaning host args Scope.empty) :
    evaluateEach host args es=meanings host args Scope.empty es := by
  induction es with
  | nil => rfl
  | cons e es ih =>
    rw [evaluateEach,meanings,h e (by simp),ih fun e he => h e (by simp [he])]

/-- An operand that cannot be emitted, or one before it, fails. -/
theorem evaluateEach_of_not_areCounted (host : Host σ) (args : List Slot) {es : List Expr} (h : ¬areCounted es)
    (s : σ) : ∃ fault t, evaluateEach host args es s=(.error fault,t) := by
  induction es generalizing s with
  | nil => exact absurd rfl h
  | cons e es ih =>
    rw [evaluateEach,Failure.bind_apply]
    by_cases counted : e.isCounted
    · rcases e.evaluate host args s with ⟨fault|slot,t⟩
      · exact ⟨fault,t,rfl⟩
      · have rest : ¬areCounted es := by simpa [areCounted,counted] using h
        obtain ⟨fault,u,failed⟩ := ih rest t
        exact ⟨fault,u,by simp only [Failure.bind_apply,failed]⟩
    · have nothing : Run.Gives (e.evaluate host args) none := evaluate_of_not_isCounted counted
      obtain ⟨fault,failed⟩ := nothing.exists_throw
      rw [failed]
      exact ⟨fault,s,rfl⟩

end Expr

namespace Build.Kept

variable {e body : Expr} {low high : Nat} {c : Cached}

theorem isCounted_reference (h : Kept e low high c) (he : e.isCounted) : c.reference.isCounted := by
  cases h with
  | inlined hc hle => exact he
  | bound hl hh hi => rfl

/-- What is kept is counted with the body: either there, or before it. -/
theorem isCounted_finish (h : Kept e low high c) (hb : body.isCounted → c.reference.isCounted) :
    (c.finish body).isCounted ↔ e.isCounted ∧ body.isCounted := by
  cases h with
  | inlined hc hle => exact ⟨fun counted => ⟨hb counted,counted⟩,And.right⟩
  | bound hl hh hi => simp [Cached.finish,isCounted]

theorem codeSize_finish (h : Kept e low high c) (hb : c.reference.codeSize ≤ body.codeSize) :
    e.codeSize ≤ (c.finish body).codeSize ∧ body.codeSize ≤ (c.finish body).codeSize := by
  cases h with
  | inlined hc hle => exact ⟨hb,Nat.le_refl _⟩
  | bound hl hh hi =>
    rw [Cached.finish,codeSize]
    omega

end Build.Kept

namespace Library

variable {f : Extremum} {x y d d' t : Expr} {a b : Slot} {rep : Rep}

namespace Extremum

theorem isCounted_select (hr : x.rep=y.rep) : (f.select x y rep).isCounted ↔ x.isCounted ∧ y.isCounted := by
  rw [select]
  split <;> simp [Expr.isCounted,Expr.rep,hr] <;> tauto

theorem codeSize_select :
    x.codeSize ≤ (f.select x y rep).codeSize ∧ y.codeSize ≤ (f.select x y rep).codeSize := by
  rw [select]
  split <;> simp only [Expr.codeSize] <;> omega

/-- Two cheap operands that are held alike are chosen between in place. -/
theorem bytecode_of_isCheap {x y : TypedExpr} {builder : Builder} (hr : x.rep=y.rep)
    (hn : builder.specializes x.rep) (hx : x.expr.isCheap) (hy : y.expr.isCheap) :
    f.bytecode [x,y] builder=(.ok ⟨f.select x.expr y.expr x.rep,resultType x.type y.type⟩,builder) := by
  have cached {e : Expr} (h : e.isCheap) : Build.cache e builder=(.ok (.inlined e),builder) := by
    rw [Build.cache,if_pos h]
    rfl
  have native : (decide (x.rep=y.rep) && builder.specializes x.rep)=true := by simp [hr,hr ▸ hn]
  change (if (decide (x.rep=y.rep) && builder.specializes x.rep)=true then (_ : Build TypedExpr) else _) builder=_
  rw [if_pos native,Failure.bind_apply,cached hx]
  simp only [Failure.bind_apply,cached hy]
  rfl

/-- The choice between two slots. -/
theorem select_gives {o o' : Option Ordering} (hx : Run.Gives (x.meaning host args scope) (some a))
    (hy : Run.Gives (y.meaning host args scope) (some b)) (ho : b.order a=.ok o) (ho' : a.order a=.ok o') :
    Run.Gives ((f.select x y rep).meaning host args scope) (some (if f.wins.holds o then b
      else if rep=.float64 ∧ Comparison.ne.holds o' then b else a)) := by
  rw [select]
  by_cases hr : rep=.float64
  · rw [if_pos hr]
    have inner := gives_select (gives_compare (k := .ne) hx hx ho') hy hx
    have outer := gives_select (gives_compare (k := f.wins) hy hx ho) hy inner
    simp only [hr,true_and]
    cases hw : f.wins.holds o <;> cases hn : Comparison.ne.holds o' <;> simp only [hw,hn] at outer <;>
      exact outer
  · rw [if_neg hr]
    have outer := gives_select (gives_compare (k := f.wins) hy hx ho) hy hx
    simp only [hr,false_and,if_false]
    cases hw : f.wins.holds o <;> simp only [hw] at outer <;> exact outer

/-- There is nothing to choose where one of the two faults. -/
theorem select_none {r r' : Option Slot} (hx : Run.Gives (x.meaning host args scope) r)
    (hy : Run.Gives (y.meaning host args scope) r') (h : r=none ∨ r'=none) :
    Run.Gives ((f.select x y rep).meaning host args scope) none := by
  have compared : Run.Gives ((compare f.wins y x).meaning host args scope) none := by
    rw [meaning]
    cases r' with
    | none => exact hy.bind_none
    | some b =>
      obtain rfl|h := h
      · exact hy.bind_some hx.bind_none
      · cases h
  rw [select,meaning]
  exact compared.bind_none

namespace Way

variable {low : Nat}

/-- Just where both operands can be counted, what they become can be. -/
theorem isCounted_iff (h : f.Way low x y t) (hr : x.rep=y.rep) : t.isCounted ↔ x.isCounted ∧ y.isCounted := by
  cases h with
  | @chosen c c' mid high h h' =>
    have same : c.reference.rep=c'.reference.rep := by
      rw [Cached.rep_reference h,Cached.rep_reference h',hr]
    have choice : (f.select c.reference c'.reference x.rep).isCounted ↔ _ := isCounted_select same
    have second := h'.isCounted_finish fun counted => (choice.mp counted).2
    have first := h.isCounted_finish fun counted => (choice.mp (second.mp counted).2).1
    rw [first,second,choice]
    exact ⟨fun ⟨hx,hy,_⟩ => ⟨hx,hy⟩,
      fun ⟨hx,hy⟩ => ⟨hx,hy,h.isCounted_reference hx,h'.isCounted_reference hy⟩⟩
  | called h h' => simp [Expr.isCounted,Expr.areCounted,h.isCounted_iff,h'.isCounted_iff]

theorem codeSize_le (h : f.Way low x y t) : x.codeSize ≤ t.codeSize ∧ y.codeSize ≤ t.codeSize := by
  cases h with
  | @chosen c c' mid high h h' =>
    let choice := f.select c.reference c'.reference x.rep
    have larger : c.reference.codeSize ≤ choice.codeSize ∧ c'.reference.codeSize ≤ choice.codeSize := codeSize_select
    have second := h'.codeSize_finish larger.2
    have first := h.codeSize_finish (larger.1.trans second.2)
    exact ⟨first.1,second.1.trans first.2⟩
  | called h h' =>
    have first := h.codeSize_le
    have second := h'.codeSize_le
    simp only [Expr.codeSize,Expr.codeSizes]
    omega

end Way

end Extremum

/-- A function that chooses with the standard routines, and what its routine says of two values. -/
inductive Picks : Extremum → (Value → Value → Except RoutineError Value) → Prop
  | max {f : Extremum} (h : Extremum.max RoutineTable.standard=.ok f) : Picks f Value.max
  | min {f : Extremum} (h : Extremum.min RoutineTable.standard=.ok f) : Picks f Value.min

variable {pick : Value → Value → Except RoutineError Value}

/-- Two operands, evaluated one after the other, and what their call was lowered to: either all have a value, and
that of the call is what the routine says of those of the operands, up to the sign of zeros and the payload of what
is not a number; or neither ends well. -/
inductive Agreed (pick : Value → Value → Except RoutineError Value) :
    Except Fault (List Slot) × σ → Except Fault Slot × σ → Prop
  | gave {a b slot : Slot} {v : Value} (s : σ) (h : pick a.toValue b.toValue=.ok v)
      (hv : slot.toValue.canonical=v.canonical) : Agreed pick (.ok [a,b],s) (.ok slot,s)
  | failed (fault fault' : Fault) (s s' : σ) : Agreed pick (.error fault,s) (.error fault',s')

/-- Two well typed operands in one native representation, the locals from that of the builder on free, and one
constant of all that are equal. -/
structure Operands (args : List Slot) (b : Builder) (x y : Expr) : Prop where
  first : x.isTyped (args.map Slot.rep) []
  second : y.isTyped (args.map Slot.rep) []
  rep : x.rep=y.rep
  native : x.rep.isNativeNumeric
  below : ∀ i∈x.bound++y.bound, i.toNat < b.nextLocal.toNat
  locals : b.nextLocal.toNat ≤ 65533
  constants : Slot.Distinct (constantsOf [x,y])

namespace Picks

theorem pick_int (h : Picks f pick) (m n : Int64) : pick (.int m) (.int n)=
    .ok (.int (if f.wins.holds (some (Ord.compare n.toInt m.toInt)) then n else m)) := by
  cases h with
  | max h =>
    cases h
    exact Value.max_int m n
  | min h =>
    cases h
    exact Value.min_int m n

theorem pick_float (h : Picks f pick) (x y : Binary64) : pick (.float x) (.float y)=
    .ok (.float (if f.wins.holds (y.order x) then y else if Comparison.ne.holds (x.order x) then y else x)) := by
  cases h with
  | max h =>
    cases h
    exact congrArg (fun x => Except.ok (Value.float x)) (Binary64.max_eq_choice x y)
  | min h =>
    cases h
    exact congrArg (fun x => Except.ok (Value.float x)) (Binary64.min_eq_choice x y)

theorem call_dynamic (h : Picks f pick) (hh : host.RunsBuiltins) (a b : Slot) :
    Run.call host f.dynamic.routine [a,b]=Run.lift (do return .boxed (← pick a.toValue b.toValue)) := by
  cases h with
  | max h =>
    cases h
    exact hh.call (b := .max) rfl _
  | min h =>
    cases h
    exact hh.call (b := .min) rfl _

theorem takes (h : Picks f pick) : Takes f.dynamic [.boxed,.boxed] := by
  cases h with
  | max h =>
    cases h
    exact ⟨rfl,rfl⟩
  | min h =>
    cases h
    exact ⟨rfl,rfl⟩

theorem exists_pick (h : Picks f pick) (hn : a.rep.isNativeNumeric) (hab : a.rep=b.rep) :
    ∃ v, pick a.toValue b.toValue=.ok v := by
  obtain ⟨m,n,rfl,rfl⟩|⟨x,y,rfl,rfl⟩ := Slot.exists_numbers hn hab
  · exact ⟨_,h.pick_int m n⟩
  · exact ⟨_,h.pick_float x y⟩

/-- Of two numbers that are held alike, the choice gives the one that the routine says. -/
theorem select_gives (h : Picks f pick) (hn : a.rep.isNativeNumeric) (hab : a.rep=b.rep)
    (hx : Run.Gives (x.meaning host args scope) (some a)) (hy : Run.Gives (y.meaning host args scope) (some b)) :
    ∃ slot, Run.Gives ((f.select x y a.rep).meaning host args scope) (some slot) ∧
      pick a.toValue b.toValue=.ok slot.toValue := by
  obtain ⟨m,n,rfl,rfl⟩|⟨u,v,rfl,rfl⟩ := Slot.exists_numbers hn hab
  · refine ⟨_,Extremum.select_gives hx hy rfl rfl,?_⟩
    rw [Slot.toValue,Slot.toValue,h.pick_int]
    cases f.wins.holds (some (Ord.compare n.toInt m.toInt)) <;> simp [Slot.rep,Slot.toValue]
  · refine ⟨_,Extremum.select_gives hx hy rfl rfl,?_⟩
    rw [Slot.toValue,Slot.toValue,h.pick_float]
    cases f.wins.holds (v.order u) <;> cases Comparison.ne.holds (u.order u) <;> simp [Slot.rep,Slot.toValue]

end Picks

namespace Operands

variable {builder : Builder}

theorem closed (h : Operands args builder x y) : x.isClosed [] ∧ y.isClosed [] :=
  ⟨isClosed_of_isTyped x h.first,isClosed_of_isTyped y h.second⟩

/-- The slots of the operands are numbers that are held alike. -/
theorem reps (h : Operands args builder x y) (hk : host.Keeps (methodsOf [x,y])) {t u : σ}
    (hx : x.meaning host args Scope.empty s=(.ok a,t)) (hy : y.meaning host args Scope.empty t=(.ok b,u)) :
    a.rep=x.rep ∧ a.rep=b.rep := by
  have keeps {e : Expr} (hm : e∈[x,y]) : host.Keeps e.methods :=
    fun m called => hk m (mem_methodsOf.mpr ⟨e,hm,called⟩)
  have first : a.rep=x.rep := (meaning_rep h.first (keeps (by simp))).result hx
  have second : b.rep=y.rep := (meaning_rep h.second (keeps (by simp))).result hy
  exact ⟨first,first.trans (h.rep.trans second.symm)⟩

end Operands

namespace Picks

variable {builder : Builder} {low : Nat}

/-- The operands one after the other, and the choice between what is kept of them. -/
theorem agreed_chosen (h : Picks f pick) (ho : Operands args builder x y) (hk : host.Keeps (methodsOf [x,y]))
    (hq : host.Repeats (methodsOf [x,y])) {c c' : Cached} {mid high : Nat} (kept : Build.Kept x low mid c)
    (kept' : Build.Kept y mid high c') (s : σ) : Agreed pick (meanings host args Scope.empty [x,y] s)
      ((c.finish (c'.finish (f.select c.reference c'.reference x.rep))).meaning host args Scope.empty s) := by
  obtain ⟨⟨fault,t,failed⟩,fault',t',body⟩|⟨r,r',scope,t,ready⟩ := kept.ready_both kept' ho.closed.1 ho.closed.2 hq s
  · rw [failed,body]
    exact .failed ..
  rw [ready.body]
  by_cases nothing : r=none ∨ r'=none
  · obtain ⟨fault,u,failed⟩ := ready.failed nothing
    obtain ⟨fault',chosen⟩ := (Extremum.select_none ready.first ready.second nothing).exists_throw
    rw [failed,chosen]
    exact .failed ..
  obtain ⟨a,rfl⟩ := Option.ne_none_iff_exists'.mp (not_or.mp nothing).1
  obtain ⟨b,rfl⟩ := Option.ne_none_iff_exists'.mp (not_or.mp nothing).2
  obtain ⟨u,hx,hy⟩ := ready.gave a b rfl rfl
  obtain ⟨held,same⟩ := ho.reps hk hx hy
  obtain ⟨slot,chosen,picked⟩ := h.select_gives (held ▸ ho.native) same ready.first ready.second
  rw [meanings_pair,← held,chosen.eq_pure]
  simp only [Failure.bind_apply,hx,hy]
  exact .gave t picked rfl

/-- The operands one after the other, and the call of the routine on both in boxes. -/
theorem agreed_called (h : Picks f pick) (hh : host.RunsBuiltins) (ho : Operands args builder x y)
    (hk : host.Keeps (methodsOf [x,y])) (boxed : Expr.Boxed x d) (boxed' : Expr.Boxed y d') (s : σ) :
    Agreed pick (meanings host args Scope.empty [x,y] s)
      ((invoke f.dynamic [d,d']).meaning host args Scope.empty s) := by
  have called : (invoke f.dynamic [d,d']).meaning host args Scope.empty=(do
      let a ← x.meaning host args Scope.empty
      let b ← y.meaning host args Scope.empty
      Run.lift (do return .boxed (← pick a.toValue b.toValue))) := by
    simp only [meaning,meanings_pair,bind_assoc,pure_bind,h.call_dynamic hh]
    rw [boxed.meaning_bind fun a a' same => by rw [same]]
    congr 1
    funext a
    exact boxed'.meaning_bind (fun b b' same => by rw [same]) _
  rw [called,meanings_pair]
  simp only [Failure.bind_apply]
  rcases hx : x.meaning host args Scope.empty s with ⟨fault|a,t⟩
  · exact .failed ..
  dsimp only
  rcases hy : y.meaning host args Scope.empty t with ⟨fault|b,u⟩
  · exact .failed ..
  obtain ⟨held,same⟩ := ho.reps hk hx hy
  obtain ⟨v,picked⟩ := h.exists_pick (held ▸ ho.native) same
  dsimp only
  rw [picked]
  exact .gave u picked rfl

/-- The runs of the operands, and that of what they became in either way. -/
theorem agreed_way (h : Picks f pick) (hh : host.RunsBuiltins) (ho : Operands args builder x y)
    (hk : host.Keeps (methodsOf [x,y])) (hq : host.Repeats (methodsOf [x,y])) (way : f.Way low x y t)
    (closed : t.isClosed []) (distinct : Slot.Distinct t.constants) (size : t.codeSize < 2^32) (s : σ) :
    Agreed pick (evaluateEach host args [x,y] s) (t.evaluate host args s) := by
  by_cases counted : t.isCounted
  · obtain ⟨hx,hy⟩ := (way.isCounted_iff ho.rep).mp counted
    obtain ⟨sizeX,sizeY⟩ := way.codeSize_le
    have own (e : Expr) (he : e∈[x,y]) : Slot.Distinct e.constants :=
      ho.constants.mono fun k hk => mem_constantsOf.mpr ⟨e,he,hk⟩
    have first : x.evaluate host args=x.meaning host args Scope.empty :=
      evaluate_of_isCounted hx (by omega) ho.closed.1 (own x (by simp))
    have second : y.evaluate host args=y.meaning host args Scope.empty :=
      evaluate_of_isCounted hy (by omega) ho.closed.2 (own y (by simp))
    rw [evaluateEach_eq_meanings (by simp [first,second]),evaluate_of_isCounted counted size closed distinct]
    cases way with
    | chosen kept kept' => exact h.agreed_chosen ho hk hq kept kept' s
    | called boxed boxed' => exact h.agreed_called hh ho hk boxed boxed' s
  · have uncounted : ¬areCounted [x,y] := by simpa [way.isCounted_iff ho.rep] using counted
    obtain ⟨fault,u,failed⟩ := evaluateEach_of_not_areCounted host args uncounted s
    have nothing : Run.Gives (t.evaluate host args) none := evaluate_of_not_isCounted counted
    obtain ⟨fault',failed'⟩ := nothing.exists_throw
    rw [failed,failed']
    exact .failed ..

/-- The larger, or the smaller, of two numbers that are held alike, lowered with any configuration and any first
local that leaves room for two. If the routines of the operands keep their word and the cheap ones answer alike
whenever they are asked, the expression has a value just where both operands have one, and it is what the routine
for values says of theirs; but for two equal constants of which one takes the place of the other, and for code that
is too large for its own jumps. -/
theorem lowered_agrees (h : Picks f pick) (hh : host.RunsBuiltins) {x y : TypedExpr}
    (ho : Operands args builder x.expr y.expr) (hk : host.Keeps (methodsOf [x.expr,y.expr]))
    (hq : host.Repeats (methodsOf [x.expr,y.expr])) :
    ∃ t builder', f.bytecode [x,y] builder=(.ok t,builder') ∧
      (Slot.Distinct t.expr.constants → t.expr.codeSize < 2^32 → ∀ s,
        Agreed pick (evaluateEach host args [x.expr,y.expr] s) (t.expr.evaluate host args s)) := by
  obtain ⟨t,way,lowered⟩ := Extremum.exists_bytecode h.takes x y ho.locals
  have lowered : f.bytecode [x,y] builder=(.ok t,(f.bytecode [x,y] builder).2) := Prod.ext lowered rfl
  have wellFormed : (Function.extremum f).WellFormed := h.takes.2
  obtain ⟨form,-⟩ := Function.shaped wellFormed lowered
  have closed : t.expr.isClosed [] := by
    apply form.isClosed
    · simp [ho.closed]
    · simpa [or_imp,forall_and] using ho.below
  exact ⟨t,_,lowered,h.agreed_way hh ho hk hq way closed⟩

/-- A drawn number is kept, and a rounded one is rounded again wherever it is used. -/
theorem lowered_agrees_drawn :
    let host := Instances.host fun _ _ _ => .error (.missingReceiver "Host")
    let args : List Slot := [.float64 (.ofInt 3)]
    let drawn : TypedExpr := ⟨.convert (.invoke ⟨randomIntRoutine,false⟩ [.int 10]) .float64,.float⟩
    let raised : TypedExpr :=
      ⟨.invoke ⟨Builtin.nativeCeil.routine mathOwner [.float64] .float64,true⟩ [.arg 0 .float64],.float⟩
    let read : Expr := .readLocal 5 .float64
    let larger : TypedExpr := ⟨.bind 5 drawn.expr (.select (.compare .gt raised.expr read) raised.expr
      (.select (.compare .ne read read) raised.expr read)),.float⟩
    standardMax.bytecode [drawn,raised] ⟨"max",.default,[],5⟩=(.ok larger,⟨"max",.default,[],6⟩) ∧
      ∀ s, Agreed Value.max (evaluateEach host args [drawn.expr,raised.expr] s)
        (larger.expr.evaluate host args s) := by
  intro host args drawn raised read larger
  have picks : Picks standardMax Value.max := .max rfl
  have runs : host.RunsBuiltins := Instances.host_runsBuiltins _
  have operands : Operands args ⟨"max",.default,[],5⟩ drawn.expr raised.expr :=
    ⟨by decide,by decide,rfl,rfl,by simp [drawn,raised,bound,boundIn,int],by decide,
      by simp [Slot.Distinct,drawn,raised,constantsOf,constants,int]⟩
  have keeps : host.Keeps (methodsOf [drawn.expr,raised.expr]) := Instances.host_keeps _ (by decide)
  have repeats : host.Repeats (methodsOf [drawn.expr,raised.expr]) := runs.repeats (by decide)
  have lowered : standardMax.bytecode [drawn,raised] ⟨"max",.default,[],5⟩=
    (.ok larger,⟨"max",.default,[],6⟩) := rfl
  obtain ⟨t,builder',lowered',agrees⟩ := picks.lowered_agrees runs operands keeps repeats
  cases lowered.symm.trans lowered'
  exact ⟨lowered,agrees (by simp [Slot.Distinct,larger,drawn,raised,read,constantsOf,constants,int]) (by decide)⟩

end Picks

/-- Operands as they should be, of which the larger is lowered to an expression that does not agree with them. -/
structure Disagrees (host : Host σ) (args : List Slot) (builder : Builder) (x y t : TypedExpr) (s : σ) :
    Prop where
  lowered : (standardMax.bytecode [x,y] builder).1=.ok t
  operands : Operands args builder x.expr y.expr
  apart : ¬Agreed Value.max (evaluateEach host args [x.expr,y.expr] s) (t.expr.evaluate host args s)

/-- A host that counts: one routine counts on, all others only say how far it has come. -/
def tickingHost : Host Nat where
  receives _ _ := true
  enter r _ n := (.ok (.int64 (.ofNat n)),if r.name="next" then n+1 else n)

/-- Routines that tell the zero without a sign from all other values. -/
def signs : Instances.Bodies := fun _ _ slots =>
  .ok (.float64 (match slots with
    | [.boxed (.float x)] => if x.bits=0 then ⟨1⟩ else ⟨0⟩
    | _ => ⟨0⟩))

section

variable {n : Nat} {e : Expr}

/-- A cheap routine that is registered for this many integers. -/
def total (n : Nat) : Method := ⟨⟨"Host","total",List.replicate n .int64,.int64,false,.foreign "total"⟩,true⟩

/-- A call of the routine on one operand over and over. -/
def totalOf (n : Nat) (e : Expr) : Expr := .invoke (total n) (List.replicate n e)

theorem isCheap_totalOf (h : e.isCheap) : (totalOf n e).isCheap := by
  simp only [totalOf,isCheap,total,Bool.true_and,areCheap_iff]
  exact fun d hd => List.eq_of_mem_replicate hd ▸ h

theorem codeSize_totalOf : (totalOf n e).codeSize=n*e.codeSize+1 := by
  have copies (n : Nat) : codeSizes (List.replicate n e)=n*e.codeSize := by
    induction n with
    | zero => rw [List.replicate_zero,codeSizes,Nat.zero_mul]
    | succ n ih => rw [List.replicate_succ,codeSizes,ih,Nat.succ_mul,Nat.add_comm]
  rw [totalOf,codeSize,copies]

theorem constants_totalOf (h : e.constants=[]) : (totalOf n e).constants=[] := by
  rw [totalOf,constants,List.eq_nil_iff_forall_not_mem]
  intro slot hslot
  obtain ⟨d,hd,hslot⟩ := mem_constantsOf.mp hslot
  rw [List.eq_of_mem_replicate hd,h] at hslot
  cases hslot

theorem methods_totalOf (h : ∀ m∈e.methods, m=total n) : ∀ m∈(totalOf n e).methods, m=total n := by
  intro m hm
  rw [totalOf,methods,List.mem_cons,mem_methodsOf] at hm
  obtain rfl|⟨d,hd,hm⟩ := hm
  · rfl
  · exact h m (List.eq_of_mem_replicate hd ▸ hm)

theorem isCounted_totalOf (hn : n < 0x10000) (h : e.isCounted) : (totalOf n e).isCounted := by
  simp only [totalOf,isCounted,List.length_replicate,Bool.and_eq_true,decide_eq_true_eq,areCounted_iff]
  exact ⟨hn,fun d hd => List.eq_of_mem_replicate hd ▸ h⟩

theorem isTyped_totalOf {params : List Rep} (hr : e.rep=.int64) (h : e.isTyped params []) :
    (totalOf n e).isTyped params [] := by
  have fits : (List.replicate n e).map Expr.rep=(total n).params := by
    rw [List.map_replicate,hr]
    rfl
  simp only [totalOf,isTyped,Method.invoke_of_rep fits,Bool.and_eq_true,areTyped_iff]
  exact ⟨rfl,fun d hd => List.eq_of_mem_replicate hd ▸ h⟩

theorem meaning_totalOf {bodies : Instances.Bodies} {slot answer : Slot}
    (hb : ∀ slots, bodies "total" none slots=.ok answer)
    (h : e.meaning (Instances.host bodies) args scope=pure slot) :
    (totalOf n e).meaning (Instances.host bodies) args scope=pure answer := by
  have copies (n : Nat) : meanings (Instances.host bodies) args scope (List.replicate n e)=
      pure (List.replicate n slot) := by
    induction n with
    | zero => rfl
    | succ n ih =>
      rw [List.replicate_succ,meanings,h,ih]
      rfl
  rw [totalOf,meaning,copies,pure_bind]
  funext s
  apply Run.call_of_enter
  · simp [total]
  · intro received
    cases received
  · exact congrArg (·,s) (hb _)

end

/-- One argument as often as a call can take calls that take it as often. -/
def wide (n : Nat) : Expr := totalOf n (totalOf n (.arg 0 .int64))

/-- An operand that is repeated may be small enough, and the choice too large for its own jumps. -/
theorem disagrees_wide {n : Nat} (hn : n < 0x10000) (fits : n*(n+1)+1 < 2^32) (h : 2^32 ≤ 4*(n*(n+1)+1)+3)
    (k m : Int64) (s : Instances) :
    let host := Instances.host fun _ _ _ => .ok (.int64 k)
    let x : TypedExpr := ⟨wide n,.int⟩
    let t : TypedExpr := ⟨.select (.compare .gt x.expr x.expr) x.expr x.expr,.int⟩
    Disagrees host [.int64 m] ⟨"max",.default,[],0⟩ x x t s ∧ host.Keeps (methodsOf [x.expr,x.expr]) ∧
      host.Repeats (methodsOf [x.expr,x.expr]) ∧ Slot.Distinct t.expr.constants := by
  intro host x t
  have cheap : x.expr.isCheap := isCheap_totalOf (isCheap_totalOf rfl)
  have held : x.expr.rep=.int64 := rfl
  have typed : x.expr.isTyped [.int64] [] := isTyped_totalOf rfl (isTyped_totalOf rfl rfl)
  have constants : x.expr.constants=[] := constants_totalOf (constants_totalOf rfl)
  have size : x.expr.codeSize=n*(n+1)+1 := by
    rw [show x.expr=totalOf n (totalOf n (.arg 0 .int64)) from rfl,codeSize_totalOf,codeSize_totalOf,codeSize,
      Nat.mul_one]
  have called : ∀ m∈methodsOf [x.expr,x.expr], m=total n := by
    intro m hm
    obtain ⟨e,he,hm⟩ := mem_methodsOf.mp hm
    have same : e=x.expr := by simpa using he
    rw [same] at hm
    exact methods_totalOf (methods_totalOf (by simp [methods])) m hm
  have operands : Operands [.int64 m] ⟨"max",.default,[],0⟩ x.expr x.expr :=
    ⟨typed,typed,rfl,by rw [held]; rfl,by simp [bound_of_isCheap _ cheap],by decide,
      by simp [Slot.Distinct,constantsOf,constants]⟩
  have lowered : (standardMax.bytecode [x,x] ⟨"max",.default,[],0⟩).1=.ok t :=
    congrArg Prod.fst (Extremum.bytecode_of_isCheap rfl rfl cheap cheap)
  have ran : x.expr.evaluate host [.int64 m]=pure (.int64 k) := by
    have counted : x.expr.isCounted := isCounted_totalOf hn (isCounted_totalOf hn rfl)
    rw [evaluate_of_isCounted counted (by rwa [size]) operands.closed.1 (by simp [Slot.Distinct,constants])]
    have given : (arg 0 .int64).meaning host [.int64 m] Scope.empty=pure (.int64 m) := rfl
    have inner : (totalOf n (.arg 0 .int64)).meaning host [.int64 m] Scope.empty=pure (.int64 k) :=
      meaning_totalOf (fun _ => rfl) given
    exact meaning_totalOf (fun _ => rfl) inner
  have both : evaluateEach host [.int64 m] [x.expr,x.expr] s=(.ok [.int64 k,.int64 k],s) := by
    rw [evaluateEach,evaluateEach,evaluateEach,ran]
    rfl
  have apart : ¬Agreed Value.max (evaluateEach host [.int64 m] [x.expr,x.expr] s)
      (t.expr.evaluate host [.int64 m] s) := by
    rw [both]
    intro agreed
    cases hc : t.expr.emit with
    | error error =>
      rw [evaluate_refused hc] at agreed
      cases agreed
    | ok c =>
      obtain ⟨-,-,-,⟨done,-,place⟩,-⟩ := (emit_realizes hc).contains
      have range : done.toNat < 2^32 := done.toNat_lt
      simp only [codeSize,size] at place
      omega
  refine ⟨⟨lowered,operands,apart⟩,?_,?_,by simp [t,Expr.constants,constants,Slot.Distinct]⟩
  · intro m hm slots _ s slot u answered
    rw [called m hm] at answered ⊢
    cases answered
    rfl
  · intro m hm _ slots
    rw [called m hm]
    by_cases count : slots.length≠(total n).routine.params.length
    · exact ⟨_,fun s => if_pos count⟩
    · exact ⟨.ok (.int64 k),fun s => if_neg count⟩

/-- None of the conditions can be left out. A routine may answer in another representation than it declares; a
cheap one may answer anew while nothing but the other operand changes the host; a constant may take the place of
another once it is in a box; and an operand that is repeated may be small, and its choice too large for its own
jumps. -/
theorem Picks.not_lowered_agrees :
    (let host := Instances.host fun _ _ _ => .ok (.int64 0)
      let zero : Method := ⟨⟨"Host","zero",[],.float64,false,.foreign "zero"⟩,false⟩
      let x : TypedExpr := ⟨.invoke zero [],.number⟩
      let y : TypedExpr := ⟨.float ⟨0⟩,.number⟩
      let read : Expr := .readLocal 0 .float64
      let t : TypedExpr := ⟨.bind 0 x.expr (.select (.compare .gt y.expr read) y.expr
        (.select (.compare .ne read read) y.expr read)),.number⟩
      Disagrees host [] ⟨"max",.default,[],0⟩ x y t .empty ∧ host.Repeats (methodsOf [x.expr,y.expr]) ∧
        Slot.Distinct t.expr.constants ∧ t.expr.codeSize < 2^32) ∧
    (let count : Method := ⟨⟨"Host","count",[],.int64,true,.foreign "count"⟩,true⟩
      let next : Method := ⟨⟨"Host","next",[],.int64,true,.foreign "next"⟩,false⟩
      let x : TypedExpr := ⟨.invoke count [],.int⟩
      let y : TypedExpr := ⟨.invoke next [],.int⟩
      let read : Expr := .readLocal 0 .int64
      let t : TypedExpr := ⟨.bind 0 y.expr (.select (.compare .gt read x.expr) read x.expr),.int⟩
      Disagrees tickingHost [] ⟨"max",.default,[],0⟩ x y t 0 ∧ tickingHost.Keeps (methodsOf [x.expr,y.expr]) ∧
        tickingHost.Quiet (methodsOf [x.expr,y.expr]) ∧ Slot.Distinct t.expr.constants ∧ t.expr.codeSize < 2^32) ∧
    (let host := Instances.host signs
      let sign : Method := ⟨⟨"Host","sign",[.boxed],.float64,false,.foreign "sign"⟩,false⟩
      let config : Config := {Config.default with bytecode := ⟨false⟩}
      let x : TypedExpr := ⟨.float ⟨0⟩,.number⟩
      let y : TypedExpr := ⟨.invoke sign [.const (.boxed (.float ⟨0x8000000000000000⟩))],.number⟩
      let t : TypedExpr := ⟨.invoke standardMax.dynamic [.const (.boxed (.float ⟨0⟩)),.box y.expr],.number⟩
      Disagrees host [] ⟨"max",config,[],0⟩ x y t .empty ∧
        host.Keeps (methodsOf [x.expr,y.expr]) ∧ host.Repeats (methodsOf [x.expr,y.expr]) ∧
        t.expr.codeSize < 2^32) ∧
    (let host := Instances.host fun _ _ _ => .ok (.int64 0)
      let x : TypedExpr := ⟨wide (2^15),.int⟩
      let t : TypedExpr := ⟨.select (.compare .gt x.expr x.expr) x.expr x.expr,.int⟩
      Disagrees host [.int64 0] ⟨"max",.default,[],0⟩ x x t .empty ∧
        host.Keeps (methodsOf [x.expr,x.expr]) ∧ host.Repeats (methodsOf [x.expr,x.expr]) ∧
        Slot.Distinct t.expr.constants) := by
  refine ⟨?_,?_,?_,disagrees_wide (by decide) (by decide) (by decide) 0 0 .empty⟩
  · intro host zero x y read t
    have operands : Operands [] ⟨"max",.default,[],0⟩ x.expr y.expr :=
      ⟨by decide,by decide,rfl,rfl,by simp [x,y,bound,boundIn,float],by decide,
        by simp [Slot.Distinct,x,y,constantsOf,constants,float]⟩
    have gave : evaluateEach host [] [x.expr,y.expr] .empty=(.ok [.int64 0,.float64 ⟨0⟩],.empty) := by cbv
    have failed : t.expr.evaluate host [] .empty=(.error (.routine (.wrongType "f64" "i64")),.empty) := by cbv
    refine ⟨⟨rfl,operands,?_⟩,?_,?_,by decide⟩
    · rw [gave,failed]
      intro agreed
      cases agreed
    · simp [Host.Repeats,x,y,zero,methodsOf,methods,float]
    · simp [Slot.Distinct,t,x,y,read,constantsOf,constants,float]
  · intro count next x y read t
    have operands : Operands [] ⟨"max",.default,[],0⟩ x.expr y.expr :=
      ⟨by decide,by decide,rfl,rfl,by simp [x,y,bound,boundIn],by decide,
        by simp [Slot.Distinct,x,y,constantsOf,constants]⟩
    have each : evaluateEach tickingHost [] [x.expr,y.expr] 0=(.ok [.int64 0,.int64 0],1) := by cbv
    have late : t.expr.evaluate tickingHost [] 0=(.ok (.int64 1),1) := by cbv
    refine ⟨⟨rfl,operands,?_⟩,?_,?_,?_,by decide⟩
    · rw [each,late]
      rintro (⟨_,picked,same⟩|_)
      cases picked
      cases same
    · simp [Host.Keeps,x,y,count,next,methodsOf,methods,tickingHost,Slot.rep,Method.returns]
    · simp [Host.Quiet,x,y,count,next,methodsOf,methods,tickingHost]
    · simp [Slot.Distinct,t,x,y,read,constantsOf,constants]
  · intro host sign config x y t
    have operands : Operands [] ⟨"max",config,[],0⟩ x.expr y.expr :=
      ⟨by decide,by decide,rfl,rfl,by simp [x,y,bound,boundIn,float],by decide,
        by simp [Slot.Distinct,x,y,constantsOf,constants,float,Slot.equals]⟩
    have each : evaluateEach host [] [x.expr,y.expr] .empty=(.ok [.float64 ⟨0⟩,.float64 ⟨0⟩],.empty) := by cbv
    have taken : t.expr.evaluate host [] .empty=(.ok (.boxed (.float ⟨1⟩)),.empty) := by cbv
    refine ⟨⟨rfl,operands,?_⟩,?_,?_,by decide⟩
    · rw [each,taken]
      rintro (⟨_,picked,same⟩|_)
      cases picked
      cases same
    · simp only [Host.Keeps,x,y,methodsOf,methods,float,List.append_nil,List.nil_append,List.forall_mem_singleton]
      rintro slots - s slot u ⟨⟩
      rfl
    · simp [Host.Repeats,x,y,sign,methodsOf,methods,float]

end Library

end CallLowering
