import CallLowering.Proofs.Expr.Scope

namespace CallLowering.Expr

/-- The locals that can be read in a body, beside those around it: the one that is bound, if the body does not
bind it again. -/
def inBody (index : UInt16) (body : Expr) (inside : List UInt16) : List UInt16 :=
  if index∈body.bound then inside else index::inside

mutual

/-- Inside bindings of the locals in `inside`: does each local that is read belong to a binding around it? -/
def isClosed (inside : List UInt16) : Expr → Bool
  | const _ => true
  | arg _ _ => true
  | readLocal index _ => decide (index∈inside)
  | invoke _ es => areClosed inside es
  | convert e _ => e.isClosed inside
  | box e => e.isClosed inside
  | unbox e _ => e.isClosed inside
  | list es => areClosed inside es
  | bind index value body =>
      decide (index.toNat ≤ 65534) && value.isClosed inside && body.isClosed (inBody index body inside)
  | select c t f => c.isClosed inside && t.isClosed inside && f.isClosed inside
  | compare _ lhs rhs => lhs.isClosed inside && rhs.isClosed inside
  | isNull e => e.isClosed inside
  | not e => e.isClosed inside

def areClosed (inside : List UInt16) : List Expr → Bool
  | [] => true
  | e::es => e.isClosed inside && areClosed inside es

end

@[simp] theorem areClosed_iff (inside : List UInt16) (es : List Expr) :
    areClosed inside es ↔ ∀ e∈es, e.isClosed inside := by
  induction es with
  | nil => simp [areClosed]
  | cons e es ih => simp [areClosed,ih]

theorem subset_inBody (index : UInt16) (body : Expr) (inside : List UInt16) : inside⊆inBody index body inside := by
  rw [inBody]
  split
  · exact fun _ h => h
  · exact List.subset_cons_self ..

theorem mem_of_mem_inBody {index i : UInt16} {body : Expr} {inside : List UInt16}
    (h : i∈inBody index body inside) (hne : i≠index) : i∈inside := by
  rw [inBody] at h
  split at h
  · exact h
  · exact (List.mem_cons.mp h).resolve_left hne

/-- What a body can read is not bound in it. -/
theorem not_mem_inBody (index : UInt16) {body : Expr} {inside : List UInt16}
    (h : ∀ i∈body.bound, i∉inside) : ∀ i∈body.bound, i∉inBody index body inside := by
  intro i hi
  rw [inBody]
  split
  · exact h i hi
  · next hn =>
    intro hm
    obtain rfl|hm := List.mem_cons.mp hm
    · exact hn hi
    · exact h i hi hm

theorem inBody_subset {index : UInt16} {body : Expr} {inside inside' : List UInt16} (h : inside⊆inside') :
    inBody index body inside⊆inBody index body inside' := by
  rw [inBody,inBody]
  split
  · exact h
  · exact List.cons_subset_cons index h

/-- A closed tree stays closed inside more bindings. -/
theorem isClosed_mono (e : Expr) {inside inside' : List UInt16} (hs : inside⊆inside')
    (h : e.isClosed inside) : e.isClosed inside' := by
  induction e generalizing inside inside' with
  | const slot => rfl
  | arg index rep => rfl
  | readLocal index rep =>
    simp only [isClosed,decide_eq_true_eq] at h ⊢
    exact hs h
  | invoke m es ih =>
    simp only [isClosed,areClosed_iff] at h ⊢
    exact fun e he => ih e he hs (h e he)
  | list es ih =>
    simp only [isClosed,areClosed_iff] at h ⊢
    exact fun e he => ih e he hs (h e he)
  | convert e target ih => exact ih hs h
  | box e ih => exact ih hs h
  | unbox e target ih => exact ih hs h
  | isNull e ih => exact ih hs h
  | not e ih => exact ih hs h
  | bind index value body ihv ihb =>
    simp only [isClosed,Bool.and_eq_true] at h ⊢
    exact ⟨⟨h.1.1,ihv hs h.1.2⟩,ihb (inBody_subset hs) h.2⟩
  | select c t f ihc iht ihf =>
    simp only [isClosed,Bool.and_eq_true] at h ⊢
    exact ⟨⟨ihc hs h.1.1,iht hs h.1.2⟩,ihf hs h.2⟩
  | compare k lhs rhs ihl ihr =>
    simp only [isClosed,Bool.and_eq_true] at h ⊢
    exact ⟨ihl hs h.1,ihr hs h.2⟩

/-- The locals that a closed tree binds are numbered so that their count can be written. -/
theorem bound_le (e : Expr) {inside : List UInt16} (h : e.isClosed inside) :
    ∀ index∈e.bound, index.toNat ≤ 65534 := by
  induction e generalizing inside with
  | const slot => simp [bound]
  | arg index rep => simp [bound]
  | readLocal index rep => simp [bound]
  | invoke m es ih =>
    simp only [isClosed,areClosed_iff] at h
    intro i hi
    obtain ⟨e,he,hi⟩ := mem_boundIn.mp (by simpa only [bound] using hi)
    exact ih e he (h e he) i hi
  | list es ih =>
    simp only [isClosed,areClosed_iff] at h
    intro i hi
    obtain ⟨e,he,hi⟩ := mem_boundIn.mp (by simpa only [bound] using hi)
    exact ih e he (h e he) i hi
  | convert e target ih => exact ih h
  | box e ih => exact ih h
  | unbox e target ih => exact ih h
  | isNull e ih => exact ih h
  | not e ih => exact ih h
  | bind index value body ihv ihb =>
    simp only [isClosed,Bool.and_eq_true,decide_eq_true_eq] at h
    simp only [bound,List.mem_cons,List.mem_append]
    intro i hi
    obtain rfl|hi|hi := hi
    · exact h.1.1
    · exact ihv h.1.2 i hi
    · exact ihb h.2 i hi
  | select c t f ihc iht ihf =>
    simp only [isClosed,Bool.and_eq_true] at h
    simp only [bound,List.mem_append]
    intro i hi
    obtain (hi|hi)|hi := hi
    · exact ihc h.1.1 i hi
    · exact iht h.1.2 i hi
    · exact ihf h.2 i hi
  | compare k lhs rhs ihl ihr =>
    simp only [isClosed,Bool.and_eq_true] at h
    simp only [bound,List.mem_append]
    intro i hi
    obtain hi|hi := hi
    · exact ihl h.1 i hi
    · exact ihr h.2 i hi

/-- The locals around a well scoped tree are not bound in it. -/
theorem not_mem_of_isScoped (e : Expr) {scope : List UInt16} (h : e.isScoped scope) :
    ∀ i∈e.bound, i∉scope := by
  induction e generalizing scope with
  | const slot => simp [bound]
  | arg index rep => simp [bound]
  | readLocal index rep => simp [bound]
  | invoke m es ih =>
    simp only [isScoped,areScoped_iff] at h
    simp only [bound,mem_boundIn]
    rintro i ⟨e,he,hi⟩
    exact ih e he (h e he) i hi
  | list es ih =>
    simp only [isScoped,areScoped_iff] at h
    simp only [bound,mem_boundIn]
    rintro i ⟨e,he,hi⟩
    exact ih e he (h e he) i hi
  | convert e target ih => exact ih h
  | box e ih => exact ih h
  | unbox e target ih => exact ih h
  | isNull e ih => exact ih h
  | not e ih => exact ih h
  | bind index value body ihv ihb =>
    simp only [isScoped,Bool.and_eq_true,decide_eq_true_eq] at h
    simp only [bound,List.mem_cons,List.mem_append]
    rintro i (rfl|hi|hi)
    · exact h.1.1.2
    · exact ihv h.1.2 i hi
    · exact fun hm => ihb h.2 i hi (List.mem_cons_of_mem _ hm)
  | select c t f ihc iht ihf =>
    simp only [isScoped,Bool.and_eq_true] at h
    simp only [bound,List.mem_append]
    rintro i ((hi|hi)|hi)
    · exact ihc h.1.1 i hi
    · exact iht h.1.2 i hi
    · exact ihf h.2 i hi
  | compare k lhs rhs ihl ihr =>
    simp only [isScoped,Bool.and_eq_true] at h
    simp only [bound,List.mem_append]
    rintro i (hi|hi)
    · exact ihl h.1 i hi
    · exact ihr h.2 i hi

theorem isClosed_of_isScoped (e : Expr) {scope : List UInt16} (h : e.isScoped scope) : e.isClosed scope := by
  induction e generalizing scope with
  | const slot => rfl
  | arg index rep => rfl
  | readLocal index rep => exact h
  | invoke m es ih =>
    simp only [isScoped,areScoped_iff] at h
    simp only [isClosed,areClosed_iff]
    exact fun e he => ih e he (h e he)
  | list es ih =>
    simp only [isScoped,areScoped_iff] at h
    simp only [isClosed,areClosed_iff]
    exact fun e he => ih e he (h e he)
  | convert e target ih => exact ih h
  | box e ih => exact ih h
  | unbox e target ih => exact ih h
  | isNull e ih => exact ih h
  | not e ih => exact ih h
  | bind index value body ihv ihb =>
    simp only [isScoped,Bool.and_eq_true] at h
    simp only [isClosed,Bool.and_eq_true]
    have fresh : index∉body.bound := fun hm => not_mem_of_isScoped body h.2 index hm List.mem_cons_self
    rw [inBody,if_neg fresh]
    exact ⟨⟨h.1.1.1,ihv h.1.2⟩,ihb h.2⟩
  | select c t f ihc iht ihf =>
    simp only [isScoped,Bool.and_eq_true] at h
    simp only [isClosed,Bool.and_eq_true]
    exact ⟨⟨ihc h.1.1,iht h.1.2⟩,ihf h.2⟩
  | compare k lhs rhs ihl ihr =>
    simp only [isScoped,Bool.and_eq_true] at h
    simp only [isClosed,Bool.and_eq_true]
    exact ⟨ihl h.1,ihr h.2⟩

end CallLowering.Expr
