import CallLowering.Proofs.Expr.Meaning
import CallLowering.Proofs.Value.Canonical
import CallLowering.Routine.Host

namespace CallLowering

/-- The built-in routine behind one that needs no receiver and no source of random numbers. -/
def Routine.builtin? (r : Routine) : Option Builtin :=
  match r.onReceiver,r.body with
  | false,.builtin .randomInt => none
  | false,.builtin b => some b
  | _,_ => none

namespace Expr

mutual

/-- Are all calls to such routines, with no more arguments than an instruction can count, and do the branches
of every choice have one representation? -/
def isPlain : Expr → Bool
  | const _ => true
  | arg _ _ => true
  | readLocal _ _ => true
  | invoke m es => m.routine.builtin?.isSome && decide (es.length < 0x10000) && arePlain es
  | convert e _ => e.isPlain
  | box e => e.isPlain
  | unbox e _ => e.isPlain
  | list es => decide (es.length < 0x10000) && arePlain es
  | bind _ value body => value.isPlain && body.isPlain
  | select c t f => decide (t.rep=f.rep) && c.isPlain && t.isPlain && f.isPlain
  | compare _ lhs rhs => lhs.isPlain && rhs.isPlain
  | isNull e => e.isPlain
  | not e => e.isPlain

def arePlain : List Expr → Bool
  | [] => true
  | e::es => e.isPlain && arePlain es

end

@[simp] theorem arePlain_iff (es : List Expr) : arePlain es ↔ ∀ e∈es, e.isPlain := by
  induction es with
  | nil => simp [arePlain]
  | cons e es ih => simp [arePlain,ih]

end Expr

def Routine.compute (r : Routine) (b : Builtin) (args : List Slot) : Except RoutineError Slot :=
  if args.length≠r.params.length then .error (.argumentCount r.text r.params.length args.length)
  else b.run args

theorem Routine.compute_canonical (r : Routine) (b : Builtin) {as bs : List Slot}
    (h : as.map Slot.canonical=bs.map Slot.canonical) :
    (r.compute b as).map Slot.canonical=(r.compute b bs).map Slot.canonical := by
  have hlen : as.length=bs.length := by simpa using congrArg List.length h
  rw [compute,compute,hlen]
  split
  · rfl
  · rw [←Builtin.run_canonical,h,Builtin.run_canonical]

theorem Routine.of_builtin? {r : Routine} {b : Builtin} (h : r.builtin?=some b) :
    r.onReceiver=false ∧ r.body=.builtin b ∧ b≠.randomInt := by
  obtain ⟨owner,name,params,returns,onReceiver,body⟩ := r
  cases onReceiver with
  | true => cases h
  | false =>
    cases body with
    | foreign name => cases h
    | builtin b' =>
      cases b' with
      | randomInt => cases h
      | _ =>
        cases h
        exact ⟨rfl,rfl,nofun⟩

/-- A call of a routine that is entered as the built-in one that it is. -/
theorem Host.call_of_builtin {σ : Type} {host : Host σ} {r : Routine} {b : Builtin} (h : r.builtin?=some b)
    {args : List Slot} {s : σ} (he : host.enter r args s=(b.run args,s)) :
    host.call r args s=(r.compute b args,s) := by
  rw [Host.call,Routine.compute,(Routine.of_builtin? h).1,he]
  split <;> rfl

/-- A call whose answer does not depend on the host, and leaves it as it is. -/
theorem Run.call_eq_lift {σ : Type} {host : Host σ} {r : Routine} {args : List Slot}
    {answer : Except RoutineError Slot} (h : ∀ s, host.call r args s=(answer,s)) :
    Run.call host r args=Run.lift answer := by
  funext s
  rw [Run.call,h]
  cases answer <;> rfl

theorem Instances.enter_of_builtin (bodies : Instances.Bodies) {r : Routine} {b : Builtin} (hb : r.body=.builtin b)
    (hne : b≠.randomInt) (args : List Slot) (i : Instances) :
    (Instances.host bodies).enter r args i=(b.run args,i) := by
  simp only [Instances.host,hb]
  cases b with
  | randomInt => exact absurd rfl hne
  | _ => rfl

theorem Instances.call_eq_lift (bodies : Instances.Bodies) {r : Routine} {b : Builtin} (h : r.builtin?=some b)
    (args : List Slot) : Run.call (Instances.host bodies) r args=Run.lift (r.compute b args) := by
  obtain ⟨-,hb,hne⟩ := Routine.of_builtin? h
  exact Run.call_eq_lift fun i => Host.call_of_builtin h (enter_of_builtin bodies hb hne args i)

namespace Run.Lockstep

variable {σ α γ : Type}

/-- Results of routines that have the same image. -/
theorem lift {c : α → γ} {x y : Except RoutineError α} (h : x.map c=y.map c) :
    Lockstep (fun a b => c a=c b) (Run.lift x : Run σ α) (Run.lift y) := by
  cases x with
  | error e =>
    cases y with
    | error e' =>
      cases h
      exact .throw _
    | ok b => cases h
  | ok a =>
    cases y with
    | error e => cases h
    | ok b => exact .pure (Except.ok.inj h)

end Run.Lockstep

namespace Scope

/-- Do the scopes bind the same locals, to slots that are the same in canonical form? -/
def Alike (scope scope' : Scope) : Prop := ∀ i, (scope i).map Slot.canonical=(scope' i).map Slot.canonical

theorem Alike.bind {scope scope' : Scope} (h : scope.Alike scope') (index : UInt16) {a b : Slot}
    (hab : a.canonical=b.canonical) : (scope.bind index a).Alike (scope'.bind index b) := by
  intro i
  by_cases eq : i=index
  · rw [eq,bind_self,bind_self,Option.map_some,Option.map_some,hab]
  · rw [bind_of_ne _ _ eq,bind_of_ne _ _ eq]
    exact h i

end Scope

namespace Expr

open Run.Lockstep

/-- Trees one after the other, if each of them cannot tell the constants and locals apart. -/
theorem meanings_canonical {σ : Type} {host : Host σ} {args : List Slot} {f : Slot → Slot}
    {scope scope' : Scope} {es : List Expr}
    (h : ∀ e∈es, Run.Lockstep (fun a b => a.canonical=b.canonical)
      ((e.mapConstants f).meaning host args scope) (e.meaning host args scope')) :
    Run.Lockstep (fun as bs => as.map Slot.canonical=bs.map Slot.canonical)
      (meanings host args scope (mapConstantsOf f es)) (meanings host args scope' es) := by
  induction es with
  | nil => exact .pure rfl
  | cons e es ih =>
    rw [mapConstantsOf,meanings,meanings]
    apply (h e (by simp)).bind
    intro a b hab
    apply (ih fun e he => h e (by simp [he])).bind
    intro as bs h
    exact .pure (by rw [List.map_cons,List.map_cons,hab,h])

/-- A plain tree gives the same slot, in canonical form, with other constants and locals that are the same in
canonical form. -/
theorem meaning_canonical (bodies : Instances.Bodies) (args : List Slot) {f : Slot → Slot}
    (hf : ∀ slot, (f slot).canonical=slot.canonical) (e : Expr) (he : e.isPlain) {scope scope' : Scope}
    (hs : scope.Alike scope') : Run.Lockstep (fun a b => a.canonical=b.canonical)
      ((e.mapConstants f).meaning (Instances.host bodies) args scope)
      (e.meaning (Instances.host bodies) args scope') := by
  induction e generalizing scope scope' with
  | const slot => exact .pure (hf slot)
  | arg index rep => exact (refl _).mono fun a b eq => congrArg Slot.canonical eq
  | readLocal index rep =>
    have h := hs index
    rw [mapConstants,meaning,meaning]
    cases hi : scope index with
    | none =>
      cases hi' : scope' index with
      | none => exact .throw _
      | some b => rw [hi,hi'] at h; cases h
    | some a =>
      cases hi' : scope' index with
      | none => rw [hi,hi'] at h; cases h
      | some b =>
        rw [hi,hi'] at h
        exact .pure (Option.some.inj h)
  | invoke m es ih =>
    simp only [isPlain,Bool.and_eq_true,arePlain_iff,Option.isSome_iff_exists] at he
    obtain ⟨⟨⟨b,hb⟩,-⟩,hes⟩ := he
    rw [mapConstants,meaning,meaning]
    apply (meanings_canonical fun e hm => ih e hm (hes e hm) hs).bind
    intro as bs h
    rw [Instances.call_eq_lift bodies hb,Instances.call_eq_lift bodies hb]
    exact lift (m.routine.compute_canonical b h)
  | list es ih =>
    simp only [isPlain,Bool.and_eq_true,arePlain_iff] at he
    rw [mapConstants,meaning,meaning]
    apply (meanings_canonical fun e hm => ih e hm (he.2 e hm) hs).bind
    intro as bs h
    apply Run.Lockstep.pure
    rw [Slot.canonical_list,h,Slot.canonical_list]
  | convert e target ih =>
    rw [mapConstants,meaning,meaning]
    apply (ih he hs).bind
    intro a b h
    exact lift (by rw [←Slot.convert_canonical,h,Slot.convert_canonical])
  | box e ih =>
    rw [mapConstants,meaning,meaning]
    apply (ih he hs).bind
    intro a b h
    exact .pure (by rw [Slot.canonical_box,h,Slot.canonical_box])
  | unbox e target ih =>
    rw [mapConstants,meaning,meaning]
    apply (ih he hs).bind
    intro a b h
    exact lift (by rw [←Slot.unbox_canonical,h,Slot.unbox_canonical])
  | isNull e ih =>
    rw [mapConstants,meaning,meaning]
    apply (ih he hs).bind
    intro a b h
    exact .pure (by rw [←Slot.isNullish_canonical,h,Slot.isNullish_canonical])
  | not e ih =>
    rw [mapConstants,meaning,meaning]
    apply (ih he hs).bind
    intro a b h
    rw [←a.toBool_canonical,h,b.toBool_canonical]
    exact (refl _).mono fun a b eq => congrArg Slot.canonical eq
  | bind index value body ihv ihb =>
    simp only [isPlain,Bool.and_eq_true] at he
    rw [mapConstants,meaning,meaning]
    apply (ihv he.1 hs).bind
    intro a b h
    exact ihb he.2 (hs.bind index h)
  | select c t g ihc iht ihg =>
    simp only [isPlain,Bool.and_eq_true] at he
    rw [mapConstants,meaning,meaning]
    apply (ihc he.1.1.2 hs).bind
    intro a b h
    rw [←a.toBool_canonical,h,b.toBool_canonical]
    apply (refl (Run.lift b.toBool)).bind
    intro p q eq
    rw [eq]
    cases q with
    | true => exact iht he.1.2 hs
    | false => exact ihg he.2 hs
  | compare k lhs rhs ihl ihr =>
    simp only [isPlain,Bool.and_eq_true] at he
    rw [mapConstants,meaning,meaning]
    apply (ihl he.1 hs).bind
    intro a a' ha
    apply (ihr he.2 hs).bind
    intro b b' hb
    rw [←Slot.order_canonical,ha,hb,Slot.order_canonical]
    exact (refl _).mono fun a b eq => congrArg Slot.canonical eq

end Expr

end CallLowering
