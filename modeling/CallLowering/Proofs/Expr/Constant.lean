import CallLowering.Deferred
import CallLowering.Proofs.Expr.Behind
import CallLowering.Proofs.Number.Integers

namespace CallLowering

namespace Slot

/-- The integer that a slot holds, bare or in a box, as an integer or as a float without a fractional part. -/
def whole? : Slot → Option Int64
  | int64 n => some n
  | boxed (.int n) => some n
  | float64 x => if x.isWhole then some x.toInt64 else none
  | boxed (.float x) => if x.isWhole then some x.toInt64 else none
  | _ => none

variable {s s' : Slot} {n : Int64}

theorem convert_int64 (h : s.whole?=some n) : s.convert .int64=.ok (.int64 n) := by
  have float {x : Binary64} (h : (if x.isWhole then some x.toInt64 else none)=some n) : x.toInt64=n := by
    simpa using (Option.ite_none_right_eq_some.mp h).2
  cases s with
  | int64 m =>
    cases h
    rfl
  | float64 x => exact congrArg (fun m => Except.ok (int64 m)) (float h)
  | bool b => cases h
  | boxed v =>
    cases v with
    | int m =>
      cases h
      rfl
    | float x => exact congrArg (fun m => Except.ok (int64 m)) (float h)
    | _ => cases h

/-- A number does not become a truth value. -/
theorem convert_bool (h : s.whole?=some n) : ∃ error, s.convert .bool=.error error := by
  cases s with
  | bool b => cases h
  | boxed v =>
    cases v with
    | int m => exact ⟨_,rfl⟩
    | float x => exact ⟨_,rfl⟩
    | _ => cases h
  | _ => exact ⟨_,rfl⟩

/-- What one conversion does to an integer. -/
theorem convert_whole {target : Rep} (h : s.whole?=some n) (ht : target≠.bool) :
    ∃ s', s.convert target=.ok s' ∧
      s'.whole?=some (if target=.float64 then Int64.throughFloat n else n) := by
  have ofInt (n : Int64) : whole? (.float64 (.ofInt n.toInt))=some (Int64.throughFloat n) :=
    if_pos (Binary64.isWhole_ofInt (Int64.natAbs_le n))
  have float {x : Binary64} (h : (if x.isWhole then some x.toInt64 else none)=some n) :
      whole? (.float64 x)=some (Int64.throughFloat n) := by
    obtain ⟨whole,rfl⟩ : x.isWhole ∧ x.toInt64=n := by simpa using h
    rw [Int64.throughFloat_toInt64 whole]
    exact if_pos whole
  cases target with
  | bool => exact absurd rfl ht
  | int64 => exact ⟨_,convert_int64 h,rfl⟩
  | float64 =>
    rw [if_pos rfl]
    cases s with
    | int64 m =>
      cases h
      exact ⟨_,rfl,ofInt n⟩
    | float64 x => exact ⟨_,rfl,float h⟩
    | bool b => cases h
    | boxed v =>
      cases v with
      | int m =>
        cases h
        exact ⟨_,rfl,ofInt n⟩
      | float x => exact ⟨_,rfl,float h⟩
      | _ => cases h
  | boxed =>
    rw [if_neg (by decide)]
    cases s with
    | bool b => cases h
    | _ => exact ⟨_,rfl,h⟩

/-- What conversion into several representations does to an integer, one after the other. -/
theorem convert_all_whole {targets : List Rep} (h : s.whole?=some n) (ht : .bool∉targets) :
    ∃ s', targets.foldlM convert s=.ok s' ∧
      s'.whole?=some (if .float64∈targets then Int64.throughFloat n else n) := by
  -- a second float on the way finds a number that is one already
  induction targets generalizing s n with
  | nil => exact ⟨s,rfl,h⟩
  | cons target targets ih =>
    rw [List.mem_cons,not_or] at ht
    obtain ⟨s₁,hs₁,first⟩ := convert_whole h (Ne.symm ht.1)
    obtain ⟨s',hs',rest⟩ := ih first ht.2
    refine ⟨s',by rw [List.foldlM_cons,hs₁]; exact hs',rest.trans ?_⟩
    by_cases here : target=.float64
    · simp [here]
    · simp [here,Ne.symm here]

theorem convert_all_bool {targets : List Rep} (h : s.whole?=some n) (ht : .bool∈targets) :
    ∃ error, targets.foldlM convert s=.error error := by
  induction targets generalizing s n with
  | nil => cases ht
  | cons target targets ih =>
    by_cases here : target=.bool
    · obtain ⟨error,failed⟩ := convert_bool h
      exact ⟨error,by rw [List.foldlM_cons,here,failed]; rfl⟩
    · obtain ⟨s₁,hs₁,first⟩ := convert_whole h here
      obtain ⟨error,failed⟩ := ih first ((List.mem_cons.mp ht).resolve_left (Ne.symm here))
      exact ⟨error,by rw [List.foldlM_cons,hs₁]; exact failed⟩

end Slot

namespace Expr

variable {σ : Type} {host : Host σ} {args : List Slot} {e : Expr} {slot : Slot} {n : Int64}

/-- The slot of a constant behind boxes and conversions. -/
def constant? : Expr → Option Slot
  | const slot => some slot
  | box e => e.constant?
  | convert e _ => e.constant?
  | unbox e _ => e.constant?
  | _ => none

/-- The representations that a slot goes through on its way out, the innermost first. -/
def targets : Expr → List Rep
  | box e => e.targets++[.boxed]
  | convert e target => e.targets++[target]
  | unbox e target => e.targets++[target]
  | _ => []

theorem intConstant?_eq (e : Expr) : e.intConstant?=e.constant?.bind fun slot => (const slot).intConstant? := by
  induction e with
  | const slot => rfl
  | box e ih => exact ih
  | convert e target ih => exact ih
  | unbox e target ih => exact ih
  | _ => rfl

theorem isClosed_of_constant (h : e.constant?=some slot) (inside : List UInt16) : e.isClosed inside := by
  induction e with
  | const slot => rfl
  | box e ih => exact ih h
  | convert e target ih => exact ih h
  | unbox e target ih => exact ih h
  | _ => cases h

/-- The integer of a constant is the one that its slot holds. -/
theorem whole_of_intConstant (h : (const slot).intConstant?=some n) : slot.whole?=some n := by
  cases slot with
  | bool b => cases h
  | boxed v =>
    cases v with
    | int m => exact h
    | _ => cases h
  | _ => exact h

theorem convert_all_concat (slot : Slot) (targets : List Rep) (target : Rep) :
    (Run.lift ((targets++[target]).foldlM Slot.convert slot) : Run σ Slot)=
      (do Run.lift ((← Run.lift (targets.foldlM Slot.convert slot)).convert target)) := by
  rw [List.foldlM_append]
  cases targets.foldlM Slot.convert slot with
  | error error => rfl
  | ok s =>
    change Run.lift (s.convert target >>= pure)=Run.lift (s.convert target)
    rw [bind_pure]

theorem lift_convert_boxed (s : Slot) : (Run.lift (s.convert .boxed) : Run σ Slot)=pure s.box := by
  rw [s.convert_boxed]
  rfl

/-- A constant is computed from its slot alone, also where the pool gives another slot for it. -/
theorem execute_constant (h : e.constant?=some slot) (pool : Slot → Slot) (locals : Locals) :
    e.execute host args pool locals=
      (do return (← Run.lift (e.targets.foldlM Slot.convert (pool slot)),locals)) := by
  induction e with
  | const slot =>
    cases h
    rfl
  | box e ih =>
    simp only [execute,ih h,targets,convert_all_concat,lift_convert_boxed,bind_assoc,pure_bind]
  | convert e target ih =>
    simp only [execute,ih h,targets,convert_all_concat,bind_assoc,pure_bind]
  | unbox e target ih =>
    simp only [execute,ih h,targets,convert_all_concat,Slot.unbox_eq_convert,bind_assoc,pure_bind]
  | _ => cases h

theorem evaluate_constant (h : e.constant?=some slot) :
    e.evaluate host args=Run.lift (e.targets.foldlM Slot.convert slot) := by
  induction e with
  | const slot =>
    cases h
    exact evaluate_const slot
  | box e ih =>
    have closed : e.isClosed [] := isClosed_of_constant h []
    simp only [evaluate_box closed,ih h,targets,convert_all_concat,lift_convert_boxed]
  | convert e target ih =>
    have closed : e.isClosed [] := isClosed_of_constant h []
    rw [evaluate_convert closed,ih h,targets,convert_all_concat]
  | unbox e target ih =>
    have closed : e.isClosed [] := isClosed_of_constant h []
    simp only [evaluate_unbox closed,ih h,targets,convert_all_concat,Slot.unbox_eq_convert]
  | _ => cases h

/-- What a tree computes, as an integer. -/
def asInteger (host : Host σ) (args : List Slot) (e : Expr) : Run σ Slot := do
  Run.lift ((← e.evaluate host args).convert .int64)

/-- How the integer that an expression is taken for compares with the one that it computes. -/
structure Told (host : Host σ) (args : List Slot) (e : Expr) (n : Int64) : Prop where
  fails : .bool∈e.targets → ∃ error, e.asInteger host args=throw (.routine error)
  computes : .bool∉e.targets →
    e.asInteger host args=pure (.int64 (if .float64∈e.targets then Int64.throughFloat n else n))
  /-- They are different only if an integer with too many digits becomes a float. -/
  exact (s : σ) : (∀ slot t, e.asInteger host args s=(.ok slot,t) → slot=.int64 n) ↔
    .bool∈e.targets ∨ .float64∉e.targets ∨ Int64.throughFloat n=n
  large : Int64.throughFloat n≠n → 2^53 < n.toInt.natAbs ∧
    (e.constant?=some (.int64 n) ∨ e.constant?=some (.boxed (.int n)))

theorem large_of_intConstant (h : (const slot).intConstant?=some n) (hn : Int64.throughFloat n≠n) :
    slot=.int64 n ∨ slot=.boxed (.int n) := by
  cases slot with
  | int64 m =>
    cases h
    exact .inl rfl
  | float64 x =>
    obtain ⟨whole,rfl⟩ : x.isWhole ∧ x.toInt64=n := by simpa [intConstant?] using h
    exact absurd (Int64.throughFloat_toInt64 whole) hn
  | bool b => cases h
  | boxed v =>
    cases v with
    | int m =>
      cases h
      exact .inr rfl
    | _ => cases h

theorem exists_literal (h : e.intConstant?=some n) :
    ∃ slot, e.constant?=some slot ∧ (const slot).intConstant?=some n := by
  rwa [intConstant?_eq,Option.bind_eq_some_iff] at h

theorem asInteger_fails (h : e.intConstant?=some n) (hb : .bool∈e.targets) :
    ∃ error, e.asInteger host args=throw (.routine error) := by
  obtain ⟨slot,hslot,literal⟩ := exists_literal h
  obtain ⟨error,failed⟩ := Slot.convert_all_bool (whole_of_intConstant literal) hb
  refine ⟨error,?_⟩
  rw [asInteger,evaluate_constant hslot,failed]
  rfl

theorem asInteger_computes (h : e.intConstant?=some n) (hb : .bool∉e.targets) :
    e.asInteger host args=pure (.int64 (if .float64∈e.targets then Int64.throughFloat n else n)) := by
  obtain ⟨slot,hslot,literal⟩ := exists_literal h
  obtain ⟨s,hs,held⟩ := Slot.convert_all_whole (whole_of_intConstant literal) hb
  rw [asInteger,evaluate_constant hslot,hs]
  exact congrArg Run.lift (Slot.convert_int64 held)

theorem asInteger_exact_iff (h : e.intConstant?=some n) (s : σ) :
    (∀ slot t, e.asInteger host args s=(.ok slot,t) → slot=.int64 n) ↔
      .bool∈e.targets ∨ .float64∉e.targets ∨ Int64.throughFloat n=n := by
  by_cases hb : .bool∈e.targets
  · obtain ⟨error,failed⟩ := asInteger_fails (σ := σ) h hb
    refine ⟨fun _ => .inl hb,fun _ slot t hx => ?_⟩
    rw [failed] at hx
    cases hx
  · rw [asInteger_computes h hb,or_iff_right hb]
    constructor
    · intro told
      have same := told _ s rfl
      by_cases hf : .float64∈e.targets
      · rw [if_pos hf] at same
        exact .inr (Slot.int64.inj same)
      · exact .inl hf
    · intro kept slot t hx
      cases hx
      rcases kept with hf|same
      · rw [if_neg hf]
      · rw [same,ite_self]

theorem told (h : e.intConstant?=some n) : e.Told host args n where
  fails := asInteger_fails h
  computes := asInteger_computes h
  exact := asInteger_exact_iff h
  large hn := by
    refine ⟨by_contra fun small => hn (Int64.throughFloat_small (Nat.not_lt.mp small)),?_⟩
    obtain ⟨slot,hslot,literal⟩ := exists_literal h
    rcases large_of_intConstant literal hn with rfl|rfl
    · exact .inl hslot
    · exact .inr hslot

end Expr

/-- An expression that is taken for an integer computes that integer or, where it becomes a float on the way, the
one that is left of it; the same holds of the expression that a description stands for. -/
theorem intConstant_told {σ : Type} (host : Host σ) (args : List Slot) (n : Int64) :
    (∀ e : Expr, e.intConstant?=some n → e.Told host args n) ∧
      ∀ d : Deferred, d.intConstant?=some n → ∃ t, d.materialize=.ok t ∧ t.expr.Told host args n := by
  refine ⟨fun e h => Expr.told h,fun d h => ?_⟩
  cases d with
  | leaf t => exact ⟨t,rfl,Expr.told h⟩
  | constant slot => exact ⟨⟨.const slot,slot.rep.type⟩,rfl,Expr.told h⟩
  | call m ds => cases h
  | list ds => cases h

/-- The first integer that has too many digits for a float, as a float. -/
def roundedAway : Expr := (Expr.int 9007199254740993).convert .float64

theorem intConstant_told_roundedAway :
    roundedAway.intConstant?=some 9007199254740993 ∧
      (∀ args : List Slot, roundedAway.Told (Instances.host fun _ _ _ => .ok (.int64 0)) args 9007199254740993) ∧
      ∀ args : List Slot, ∃ t, (Deferred.leaf ⟨roundedAway,.float⟩).materialize=.ok t ∧
        t.expr.Told (Instances.host fun _ _ _ => .ok (.int64 0)) args 9007199254740993 :=
  ⟨rfl,fun args => (intConstant_told _ args _).1 roundedAway rfl,fun args => (intConstant_told _ args _).2 _ rfl⟩

/-- It is taken for itself and computes the integer before. -/
theorem not_intConstant_computed :
    roundedAway.intConstant?=some 9007199254740993 ∧
      (Deferred.leaf ⟨roundedAway,.float⟩).intConstant?=some 9007199254740993 ∧
      (Deferred.leaf ⟨roundedAway,.float⟩).materialize=.ok ⟨roundedAway,.float⟩ ∧
      ∀ (σ : Type) (host : Host σ) (args : List Slot),
        roundedAway.asInteger host args=pure (.int64 9007199254740992) := by
  refine ⟨rfl,rfl,rfl,fun σ host args => ?_⟩
  have left : Int64.throughFloat 9007199254740993=9007199254740992 := by decide +kernel
  have told : roundedAway.Told host args 9007199254740993 := Expr.told rfl
  rw [told.computes (by decide),if_pos (by decide),left]

end CallLowering
