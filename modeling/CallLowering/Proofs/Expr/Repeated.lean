import CallLowering.Proofs.Expr.Typed
import CallLowering.Proofs.Library.Forms
import Mathlib.Tactic.Choose

namespace CallLowering

variable {σ : Type} {host : Host σ} {args : List Slot} {scope : Scope}

/-- The methods that may be called again answer a call in one way whatever the state of the host is, and leave it
as it is. -/
def Host.Repeats (host : Host σ) (ms : List Method) : Prop :=
  ∀ m∈ms, m.cheap → ∀ slots, ∃ answer, ∀ s, host.call m.routine slots s=(answer,s)

theorem Host.Repeats.mono {ms ms' : List Method} (h : host.Repeats ms) (hm : ms'⊆ms) : host.Repeats ms' :=
  fun m hmem => h m (hm hmem)

namespace Run.Gives

variable {α : Type} {x : Run σ α}

theorem eq_pure {a : α} (h : Gives x (.some a)) : x=pure a := by
  cases h
  assumption

theorem exists_throw (h : Gives x .none) : ∃ fault, x=throw fault := by
  cases h
  exact ⟨_,‹_›⟩

theorem call {r : Routine} {slots : List Slot} {answer : Except RoutineError Slot}
    (h : ∀ s, host.call r slots s=(answer,s)) : Gives (Run.call host r slots) answer.toOption := by
  rw [Run.call_eq_lift h]
  exact .lift answer

end Run.Gives

namespace Expr

theorem exists_meanings_gives {es : List Expr} (h : ∀ e∈es, ∃ r, Run.Gives (e.meaning host args scope) r) :
    ∃ rs, Run.Gives (meanings host args scope es) rs := by
  induction es with
  | nil => exact ⟨_,.some rfl⟩
  | cons e es ih =>
    obtain ⟨r,hr⟩ := h e (by simp)
    obtain ⟨rs,hrs⟩ := ih fun e he => h e (by simp [he])
    exact ⟨_,hr.bind fun slot _ => hrs.map (slot::·)⟩

theorem meanings_pair (x y : Expr) : meanings host args scope [x,y]=(do
    let a ← x.meaning host args scope
    let b ← y.meaning host args scope
    return [a,b]) := by
  simp only [meanings,bind_assoc,pure_bind]

theorem exists_gives_of_isCheap (args : List Slot) (scope : Scope) (e : Expr) (hc : e.isCheap)
    (hq : host.Repeats e.methods) : ∃ r, Run.Gives (e.meaning host args scope) r := by
  induction e with
  | const slot => exact ⟨_,.some rfl⟩
  | arg index rep =>
    rw [meaning,Run.argument]
    cases args[index.toNat]? with
    | some slot => exact ⟨_,.some rfl⟩
    | none => exact ⟨_,.none rfl⟩
  | readLocal index rep =>
    rw [meaning]
    cases scope index with
    | some slot => exact ⟨_,.some rfl⟩
    | none => exact ⟨_,.none rfl⟩
  | invoke m es ih =>
    simp only [isCheap,Bool.and_eq_true,areCheap_iff] at hc
    obtain ⟨rs,hrs⟩ := exists_meanings_gives fun e he =>
      ih e he (hc.2 e he) (hq.mono fun m hm => by simpa [methods] using .inr ⟨e,he,hm⟩)
    choose answer answered using hq m (by simp [methods]) hc.1
    rw [meaning]
    exact ⟨_,hrs.bind fun slots _ => .call (answered slots)⟩
  | convert e target ih =>
    obtain ⟨r,hr⟩ := ih hc hq
    exact ⟨_,hr.bind fun slot _ => .lift _⟩
  | box e ih =>
    obtain ⟨r,hr⟩ := ih hc hq
    exact ⟨_,hr.map Slot.box⟩
  | unbox e target ih =>
    obtain ⟨r,hr⟩ := ih hc hq
    exact ⟨_,hr.bind fun slot _ => .lift _⟩
  | list es ih => cases hc
  | bind index value body ihv ihb => cases hc
  | select c t f ihc iht ihf => cases hc
  | compare k lhs rhs ihl ihr => cases hc
  | isNull e ih => cases hc
  | not e ih => cases hc

end Expr

/-- An operand that has been computed, or is about to be, where the body begins: from there on its reference gives
`r` in the locals, which are the ones before but for its own. -/
structure Cached.Ready (host : Host σ) (args : List Slot) (e : Expr) (c : Cached) (scope : Scope) (s : σ)
    (r : Option Slot) (scope' : Scope) (t : σ) : Prop where
  body : ∀ body : Expr, (c.finish body).meaning host args scope s=body.meaning host args scope' t
  reference : Run.Gives (c.reference.meaning host args scope') r
  others : ∀ i∉c.locals, scope' i=scope i
  gave : ∀ slot, r=some slot → e.meaning host args Scope.empty s=(.ok slot,t)
  failed : r=none → ∃ fault, e.meaning host args Scope.empty s=(.error fault,t)

namespace Build.Kept

open CallLowering.Expr

variable {e : Expr} {low high : Nat} {c : Cached}

/-- Either the operand fails before the body begins, or it is ready there. -/
theorem ready (h : Kept e low high c) (he : e.isClosed []) (hq : host.Repeats e.methods) (scope : Scope) (s : σ) :
    (∃ fault t, e.meaning host args Scope.empty s=(.error fault,t) ∧
      ∀ body : Expr, (c.finish body).meaning host args scope s=(.error fault,t)) ∨
    ∃ r scope' t, c.Ready host args e scope s r scope' t := by
  have anywhere : e.meaning host args scope=e.meaning host args Scope.empty :=
    meaning_congr host args e he (by simp)
  cases h with
  | inlined hc hle =>
    obtain ⟨r,hr⟩ := exists_gives_of_isCheap args scope e hc hq
    refine .inr ⟨r,scope,s,fun _ => rfl,hr,fun _ _ => rfl,?_,?_⟩
    · rintro slot rfl
      rw [← anywhere,hr.eq_pure]
      rfl
    · rintro rfl
      obtain ⟨fault,failed⟩ := hr.exists_throw
      rw [← anywhere,failed]
      exact ⟨fault,rfl⟩
  | @bound index hl hh hi =>
    rcases hx : e.meaning host args Scope.empty s with ⟨fault|slot,t⟩
    · left
      refine ⟨fault,t,rfl,fun body => ?_⟩
      rw [Cached.finish,meaning,anywhere,Failure.bind_apply,hx]
    · right
      refine ⟨some slot,scope.bind index slot,t,fun body => ?_,?_,?_,?_,fun failed => by cases failed⟩
      · rw [Cached.finish,meaning,anywhere,Failure.bind_apply,hx]
      · rw [Cached.reference,meaning,Scope.bind_self]
        exact .some rfl
      · intro i hn
        exact Scope.bind_of_ne _ _ fun heq => hn (by simp [heq,Cached.locals])
      · rintro _ ⟨⟩
        exact hx

/-- What is ready for one body is ready for the next: the locals that are taken later are others. -/
theorem gives_reference (h : Kept e low high c) (he : e.isClosed []) {scope' : Scope} {r : Option Slot}
    (hr : Run.Gives (c.reference.meaning host args scope) r) (hs : ∀ i∈c.locals, scope' i=scope i) :
    Run.Gives (c.reference.meaning host args scope') r := by
  have closed : c.reference.isClosed c.locals := by
    have reference := h.isClosed_reference he
    rwa [List.append_nil] at reference
  rwa [meaning_congr host args c.reference closed hs]

end Build.Kept

/-- Two operands that have been computed, or are about to be, where the body begins. -/
structure Cached.ReadyBoth (host : Host σ) (args : List Slot) (x y : Expr) (c c' : Cached) (s : σ)
    (r r' : Option Slot) (scope : Scope) (t : σ) : Prop where
  body : ∀ body : Expr, (c.finish (c'.finish body)).meaning host args Scope.empty s=body.meaning host args scope t
  first : Run.Gives (c.reference.meaning host args scope) r
  second : Run.Gives (c'.reference.meaning host args scope) r'
  gave : ∀ a b, r=some a → r'=some b →
    ∃ u, x.meaning host args Scope.empty s=(.ok a,u) ∧ y.meaning host args Scope.empty u=(.ok b,t)
  failed : r=none ∨ r'=none → ∃ fault u, Expr.meanings host args Scope.empty [x,y] s=(.error fault,u)

namespace Build.Kept

open CallLowering.Expr

/-- Of two operands that are kept one after the other, either one fails before the body begins, or both are ready
there: the local of the second is not that of the first. -/
theorem ready_both {x y : Expr} {low mid high : Nat} {c c' : Cached} (h : Kept x low mid c) (h' : Kept y mid high c')
    (hx : x.isClosed []) (hy : y.isClosed []) (hq : host.Repeats (methodsOf [x,y])) (s : σ) :
    ((∃ fault t, meanings host args Scope.empty [x,y] s=(.error fault,t)) ∧ ∃ fault t,
      ∀ body : Expr, (c.finish (c'.finish body)).meaning host args Scope.empty s=(.error fault,t)) ∨
    ∃ r r' scope t, Cached.ReadyBoth host args x y c c' s r r' scope t := by
  rw [meanings_pair,Failure.bind_apply]
  obtain ⟨fault,t,failed,body⟩|⟨r,scope,t,first⟩ :=
    h.ready hx (hq.mono fun m hm => mem_methodsOf.mpr ⟨x,by simp,hm⟩) Scope.empty s
  · rw [failed]
    exact .inl ⟨⟨fault,t,rfl⟩,fault,t,fun _ => body _⟩
  obtain ⟨fault,u,failed,body⟩|⟨r',scope',u,second⟩ :=
    h'.ready hy (hq.mono fun m hm => mem_methodsOf.mpr ⟨y,by simp,hm⟩) scope t
  · refine .inl ⟨?_,fault,u,fun _ => (first.body _).trans (body _)⟩
    cases r with
    | none =>
      obtain ⟨fault,nothing⟩ := first.failed rfl
      rw [nothing]
      exact ⟨fault,t,rfl⟩
    | some a =>
      rw [first.gave a rfl]
      simp only [Failure.bind_apply,failed]
      exact ⟨fault,u,rfl⟩
  · right
    have apart : ∀ i∈c.locals, scope' i=scope i := by
      intro i hi
      apply second.others
      intro hi'
      have range := h.locals_range i hi
      have range' := h'.locals_range i hi'
      omega
    refine ⟨r,r',scope',u,⟨fun _ => (first.body _).trans (second.body _),
      h.gives_reference hx first.reference apart,second.reference,?_,?_⟩⟩
    · exact fun a b ha hb => ⟨t,first.gave a ha,second.gave b hb⟩
    · intro nothing
      rw [meanings_pair,Failure.bind_apply]
      cases r with
      | none =>
        obtain ⟨fault,failed⟩ := first.failed rfl
        rw [failed]
        exact ⟨fault,t,rfl⟩
      | some a =>
        obtain ⟨fault,failed⟩ := second.failed (nothing.resolve_left (Option.some_ne_none a))
        rw [first.gave a rfl]
        simp only [Failure.bind_apply,failed]
        exact ⟨fault,u,rfl⟩

end Build.Kept

end CallLowering
