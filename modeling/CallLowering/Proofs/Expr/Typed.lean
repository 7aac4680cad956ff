import CallLowering.Proofs.Expr.Closed

namespace CallLowering

/-- A call is accepted if its arguments are in the representations of the parameters. -/
theorem Method.firstMisfit?_eq_none {m : Method} {index : Nat} {es : List Expr} {params : List Rep}
    (hl : es.length=params.length) (h : m.firstMisfit? index es params=none) : es.map Expr.rep=params := by
  induction es generalizing index params with
  | nil =>
    rw [List.length_eq_zero_iff.mp hl.symm]
    rfl
  | cons e es ih =>
    cases params with
    | nil => cases hl
    | cons p params =>
      rw [firstMisfit?] at h
      split at h
      · next hrep => rw [List.map_cons,hrep,ih (Nat.succ.inj hl) h]
      · cases h

theorem Method.rep_of_isOk {m : Method} {es : List Expr} (h : (m.invoke es).isOk) :
    es.map Expr.rep=m.params := by
  rw [invoke] at h
  split at h
  · cases h
  · next hl =>
    split at h
    · cases h
    · next hm => exact firstMisfit?_eq_none (Decidable.of_not_not hl) hm

namespace Expr

/-- The locals that can be read in a body, with the representations of their values. -/
def typedInBody (index : UInt16) (value body : Expr) (inside : List (UInt16 × Rep)) : List (UInt16 × Rep) :=
  if index∈body.bound then inside else (index,value.rep)::inside

theorem map_typedInBody (index : UInt16) (value body : Expr) (inside : List (UInt16 × Rep)) :
    (typedInBody index value body inside).map Prod.fst=inBody index body (inside.map Prod.fst) := by
  rw [typedInBody,inBody]
  split <;> rfl

mutual

/-- With arguments in the representations `params` and the locals `inside` around it: is a tree well typed? -/
def isTyped (params : List Rep) (inside : List (UInt16 × Rep)) : Expr → Bool
  | const _ => true
  | arg index rep => decide (params[index.toNat]?=some rep)
  | readLocal index rep => decide ((index,rep)∈inside)
  | invoke m es => (m.invoke es).isOk && areTyped params inside es
  | convert e target => e.rep.isNativeNumeric && target.isNativeNumeric && e.isTyped params inside
  | box e => e.isTyped params inside
  | unbox e _ => decide (e.rep=.boxed) && e.isTyped params inside
  | list es => areTyped params inside es
  | bind index value body =>
      decide (index.toNat ≤ 65534) && value.isTyped params inside &&
        body.isTyped params (typedInBody index value body inside)
  | select c t f =>
      decide (c.rep=.bool) && decide (t.rep=f.rep) && c.isTyped params inside && t.isTyped params inside &&
        f.isTyped params inside
  | compare _ lhs rhs =>
      lhs.rep.isNativeNumeric && decide (lhs.rep=rhs.rep) && lhs.isTyped params inside &&
        rhs.isTyped params inside
  | isNull e => e.isTyped params inside
  | not e => decide (e.rep=.bool) && e.isTyped params inside

def areTyped (params : List Rep) (inside : List (UInt16 × Rep)) : List Expr → Bool
  | [] => true
  | e::es => e.isTyped params inside && areTyped params inside es

end

@[simp] theorem areTyped_iff (params : List Rep) (inside : List (UInt16 × Rep)) (es : List Expr) :
    areTyped params inside es ↔ ∀ e∈es, e.isTyped params inside := by
  induction es with
  | nil => simp [areTyped]
  | cons e es ih => simp [areTyped,ih]

theorem isClosed_of_isTyped (e : Expr) {params : List Rep} {inside : List (UInt16 × Rep)}
    (h : e.isTyped params inside) : e.isClosed (inside.map Prod.fst) := by
  induction e generalizing inside with
  | const slot => rfl
  | arg index rep => rfl
  | readLocal index rep =>
    simp only [isTyped,decide_eq_true_eq] at h
    simp only [isClosed,decide_eq_true_eq]
    exact List.mem_map_of_mem h
  | invoke m es ih =>
    simp only [isTyped,Bool.and_eq_true,areTyped_iff] at h
    simp only [isClosed,areClosed_iff]
    exact fun e he => ih e he (h.2 e he)
  | list es ih =>
    simp only [isTyped,areTyped_iff] at h
    simp only [isClosed,areClosed_iff]
    exact fun e he => ih e he (h e he)
  | convert e target ih =>
    simp only [isTyped,Bool.and_eq_true] at h
    exact ih h.2
  | box e ih => exact ih h
  | unbox e target ih =>
    simp only [isTyped,Bool.and_eq_true] at h
    exact ih h.2
  | isNull e ih => exact ih h
  | not e ih =>
    simp only [isTyped,Bool.and_eq_true] at h
    exact ih h.2
  | bind index value body ihv ihb =>
    simp only [isTyped,Bool.and_eq_true] at h
    simp only [isClosed,Bool.and_eq_true]
    obtain ⟨⟨hi,hv⟩,hb⟩ := h
    have inner := ihb hb
    rw [map_typedInBody] at inner
    exact ⟨⟨hi,ihv hv⟩,inner⟩
  | select c t f ihc iht ihf =>
    simp only [isTyped,Bool.and_eq_true] at h
    simp only [isClosed,Bool.and_eq_true]
    obtain ⟨⟨⟨-,hc⟩,ht⟩,hf⟩ := h
    exact ⟨⟨ihc hc,iht ht⟩,ihf hf⟩
  | compare k lhs rhs ihl ihr =>
    simp only [isTyped,Bool.and_eq_true] at h
    simp only [isClosed,Bool.and_eq_true]
    obtain ⟨⟨-,hl⟩,hr⟩ := h
    exact ⟨ihl hl,ihr hr⟩

mutual

/-- The methods that a tree calls. -/
def methods : Expr → List Method
  | const _ => []
  | arg _ _ => []
  | readLocal _ _ => []
  | invoke m es => m::methodsOf es
  | convert e _ => e.methods
  | box e => e.methods
  | unbox e _ => e.methods
  | list es => methodsOf es
  | bind _ value body => value.methods++body.methods
  | select c t f => c.methods++t.methods++f.methods
  | compare _ lhs rhs => lhs.methods++rhs.methods
  | isNull e => e.methods
  | not e => e.methods

def methodsOf : List Expr → List Method
  | [] => []
  | e::es => e.methods++methodsOf es

end

@[simp] theorem mem_methodsOf {m : Method} {es : List Expr} : m∈methodsOf es ↔ ∃ e∈es, m∈e.methods := by
  induction es with
  | nil => simp [methodsOf]
  | cons e es ih => simp [methodsOf,ih]

end Expr

end CallLowering
