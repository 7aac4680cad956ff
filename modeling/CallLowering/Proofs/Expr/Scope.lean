import CallLowering.Expr.Basic

namespace CallLowering.Expr

@[elab_as_elim,induction_eliminator]
theorem induction {motive : Expr → Prop} (const : ∀ slot, motive (const slot))
    (arg : ∀ index rep, motive (arg index rep)) (readLocal : ∀ index rep, motive (readLocal index rep))
    (invoke : ∀ m es, (∀ e∈es, motive e) → motive (invoke m es))
    (convert : ∀ e target, motive e → motive (convert e target)) (box : ∀ e, motive e → motive (box e))
    (unbox : ∀ e target, motive e → motive (unbox e target))
    (list : ∀ es, (∀ e∈es, motive e) → motive (list es))
    (bind : ∀ index value body, motive value → motive body → motive (bind index value body))
    (select : ∀ c t f, motive c → motive t → motive f → motive (select c t f))
    (compare : ∀ k lhs rhs, motive lhs → motive rhs → motive (compare k lhs rhs))
    (isNull : ∀ e, motive e → motive (isNull e)) (not : ∀ e, motive e → motive (not e)) (e : Expr) :
    motive e :=
  @Expr.rec motive (fun es => ∀ e∈es, motive e) const arg readLocal invoke convert box unbox list bind
    select compare isNull not (by simp)
    (fun _ _ he hes _ h => (List.mem_cons.mp h).elim (fun eq => eq ▸ he) (hes _)) e

mutual

/-- The constants of a tree, from left to right. -/
def constants : Expr → List Slot
  | const slot => [slot]
  | arg _ _ => []
  | readLocal _ _ => []
  | invoke _ es => constantsOf es
  | convert e _ => e.constants
  | box e => e.constants
  | unbox e _ => e.constants
  | list es => constantsOf es
  | bind _ value body => value.constants++body.constants
  | select c t f => c.constants++t.constants++f.constants
  | compare _ lhs rhs => lhs.constants++rhs.constants
  | isNull e => e.constants
  | not e => e.constants

def constantsOf : List Expr → List Slot
  | [] => []
  | e::es => e.constants++constantsOf es

end

mutual

/-- The tree with other constants in the place of its own. -/
def mapConstants (f : Slot → Slot) : Expr → Expr
  | const slot => const (f slot)
  | arg index rep => arg index rep
  | readLocal index rep => readLocal index rep
  | invoke m es => invoke m (mapConstantsOf f es)
  | convert e target => convert (e.mapConstants f) target
  | box e => box (e.mapConstants f)
  | unbox e target => unbox (e.mapConstants f) target
  | list es => list (mapConstantsOf f es)
  | bind index value body => bind index (value.mapConstants f) (body.mapConstants f)
  | select c t g => select (c.mapConstants f) (t.mapConstants f) (g.mapConstants f)
  | compare k lhs rhs => compare k (lhs.mapConstants f) (rhs.mapConstants f)
  | isNull e => isNull (e.mapConstants f)
  | not e => not (e.mapConstants f)

def mapConstantsOf (f : Slot → Slot) : List Expr → List Expr
  | [] => []
  | e::es => e.mapConstants f::mapConstantsOf f es

end

mutual

/-- The locals that a tree binds. -/
def bound : Expr → List UInt16
  | const _ => []
  | arg _ _ => []
  | readLocal _ _ => []
  | invoke _ es => boundIn es
  | convert e _ => e.bound
  | box e => e.bound
  | unbox e _ => e.bound
  | list es => boundIn es
  | bind index value body => index::(value.bound++body.bound)
  | select c t f => c.bound++t.bound++f.bound
  | compare _ lhs rhs => lhs.bound++rhs.bound
  | isNull e => e.bound
  | not e => e.bound

def boundIn : List Expr → List UInt16
  | [] => []
  | e::es => e.bound++boundIn es

end

mutual

/-- Inside bindings of the locals in `scope`: is each local read in the body of a binding of it, bound anew
in no such body, and never the last one that could be numbered? -/
def isScoped (scope : List UInt16) : Expr → Bool
  | const _ => true
  | arg _ _ => true
  | readLocal index _ => decide (index∈scope)
  | invoke _ es => areScoped scope es
  | convert e _ => e.isScoped scope
  | box e => e.isScoped scope
  | unbox e _ => e.isScoped scope
  | list es => areScoped scope es
  | bind index value body =>
      decide (index.toNat ≤ 65534) && decide (index∉scope) && value.isScoped scope &&
        body.isScoped (index::scope)
  | select c t f => c.isScoped scope && t.isScoped scope && f.isScoped scope
  | compare _ lhs rhs => lhs.isScoped scope && rhs.isScoped scope
  | isNull e => e.isScoped scope
  | not e => e.isScoped scope

def areScoped (scope : List UInt16) : List Expr → Bool
  | [] => true
  | e::es => e.isScoped scope && areScoped scope es

end

@[simp] theorem areScoped_iff (scope : List UInt16) (es : List Expr) :
    areScoped scope es ↔ ∀ e∈es, e.isScoped scope := by
  induction es with
  | nil => simp [areScoped]
  | cons e es ih => simp [areScoped,ih]

@[simp] theorem mem_boundIn {index : UInt16} {es : List Expr} :
    index∈boundIn es ↔ ∃ e∈es, index∈e.bound := by
  induction es with
  | nil => simp [boundIn]
  | cons e es ih => simp [boundIn,ih]

@[simp] theorem mem_constantsOf {slot : Slot} {es : List Expr} :
    slot∈constantsOf es ↔ ∃ e∈es, slot∈e.constants := by
  induction es with
  | nil => simp [constantsOf]
  | cons e es ih => simp [constantsOf,ih]

theorem mapConstantsOf_eq (f : Slot → Slot) (es : List Expr) :
    mapConstantsOf f es=es.map (mapConstants f) := by
  induction es with
  | nil => rfl
  | cons e es ih => rw [mapConstantsOf,ih,List.map_cons]

theorem mapConstantsOf_congr {f g : Slot → Slot} {es : List Expr} (h : ∀ e∈es, e.mapConstants f=e.mapConstants g) :
    mapConstantsOf f es=mapConstantsOf g es := by
  rw [mapConstantsOf_eq,mapConstantsOf_eq,List.map_congr_left h]

/-- Only what becomes of the constants of the tree matters. -/
theorem mapConstants_congr {f g : Slot → Slot} (e : Expr) (h : ∀ slot∈e.constants, f slot=g slot) :
    e.mapConstants f=e.mapConstants g := by
  induction e with
  | const slot => rw [mapConstants,mapConstants,h slot (by simp [constants])]
  | arg index rep => rfl
  | readLocal index rep => rfl
  | invoke m es ih =>
    rw [mapConstants,mapConstants,mapConstantsOf_congr fun e he =>
      ih e he fun k hk => h k (by simpa [constants] using ⟨e,he,hk⟩)]
  | list es ih =>
    rw [mapConstants,mapConstants,mapConstantsOf_congr fun e he =>
      ih e he fun k hk => h k (by simpa [constants] using ⟨e,he,hk⟩)]
  | convert e target ih => rw [mapConstants,mapConstants,ih h]
  | box e ih => rw [mapConstants,mapConstants,ih h]
  | unbox e target ih => rw [mapConstants,mapConstants,ih h]
  | isNull e ih => rw [mapConstants,mapConstants,ih h]
  | not e ih => rw [mapConstants,mapConstants,ih h]
  | bind index value body ihv ihb =>
    rw [mapConstants,mapConstants,ihv fun k hk => h k (by simp [constants,hk]),
      ihb fun k hk => h k (by simp [constants,hk])]
  | select c t g ihc iht ihg =>
    rw [mapConstants,mapConstants,ihc fun k hk => h k (by simp [constants,hk]),
      iht fun k hk => h k (by simp [constants,hk]),ihg fun k hk => h k (by simp [constants,hk])]
  | compare k lhs rhs ihl ihr =>
    rw [mapConstants,mapConstants,ihl fun k hk => h k (by simp [constants,hk]),
      ihr fun k hk => h k (by simp [constants,hk])]

@[simp] theorem mapConstants_id (e : Expr) : e.mapConstants id=e := by
  have all {es : List Expr} (ih : ∀ e∈es, e.mapConstants id=e) : mapConstantsOf id es=es := by
    rw [mapConstantsOf_eq,List.map_congr_left ih,List.map_id']
  induction e with
  | const slot => rfl
  | arg index rep => rfl
  | readLocal index rep => rfl
  | invoke m es ih => rw [mapConstants,all ih]
  | list es ih => rw [mapConstants,all ih]
  | convert e target ih => rw [mapConstants,ih]
  | box e ih => rw [mapConstants,ih]
  | unbox e target ih => rw [mapConstants,ih]
  | isNull e ih => rw [mapConstants,ih]
  | not e ih => rw [mapConstants,ih]
  | bind index value body ihv ihb => rw [mapConstants,ihv,ihb]
  | select c t g ihc iht ihg => rw [mapConstants,ihc,iht,ihg]
  | compare k lhs rhs ihl ihr => rw [mapConstants,ihl,ihr]

/-- A tree whose constants all stay is unchanged. -/
theorem mapConstants_eq_self {f : Slot → Slot} (e : Expr) (h : ∀ slot∈e.constants, f slot=slot) :
    e.mapConstants f=e :=
  (e.mapConstants_congr h).trans e.mapConstants_id

/-- A tree stays well scoped inside more bindings, if it binds none of their locals. -/
theorem isScoped_mono (e : Expr) {scope scope' : List UInt16} (hs : scope⊆scope')
    (hb : ∀ index∈e.bound, index∈scope' → index∈scope) (h : e.isScoped scope) : e.isScoped scope' := by
  induction e generalizing scope scope' with
  | const slot => rfl
  | arg index rep => rfl
  | readLocal index rep =>
    simp only [isScoped,decide_eq_true_eq] at h ⊢
    exact hs h
  | invoke m es ih =>
    simp only [isScoped,areScoped_iff] at h ⊢
    exact fun e he => ih e he hs (fun i hi => hb i (by simpa [bound] using ⟨e,he,hi⟩)) (h e he)
  | list es ih =>
    simp only [isScoped,areScoped_iff] at h ⊢
    exact fun e he => ih e he hs (fun i hi => hb i (by simpa [bound] using ⟨e,he,hi⟩)) (h e he)
  | convert e target ih => exact ih hs hb h
  | box e ih => exact ih hs hb h
  | unbox e target ih => exact ih hs hb h
  | isNull e ih => exact ih hs hb h
  | not e ih => exact ih hs hb h
  | bind index value body ihv ihb =>
    simp only [isScoped,Bool.and_eq_true,decide_eq_true_eq] at h ⊢
    obtain ⟨⟨⟨hi,hn⟩,hv⟩,hbody⟩ := h
    have hn' : index∉scope' := fun hm => hn (hb index (by simp [bound]) hm)
    refine ⟨⟨⟨hi,hn'⟩,ihv hs (fun i hm => hb i (by simp [bound,hm])) hv⟩,?_⟩
    apply ihb (List.cons_subset_cons index hs) _ hbody
    intro i hm hin
    rcases List.mem_cons.mp hin with rfl|hin
    · exact List.mem_cons_self
    · exact List.mem_cons_of_mem _ (hb i (by simp [bound,hm]) hin)
  | select c t f ihc iht ihf =>
    simp only [isScoped,Bool.and_eq_true] at h ⊢
    exact ⟨⟨ihc hs (fun i hm => hb i (by simp [bound,hm])) h.1.1,
      iht hs (fun i hm => hb i (by simp [bound,hm])) h.1.2⟩,
      ihf hs (fun i hm => hb i (by simp [bound,hm])) h.2⟩
  | compare k lhs rhs ihl ihr =>
    simp only [isScoped,Bool.and_eq_true] at h ⊢
    exact ⟨ihl hs (fun i hm => hb i (by simp [bound,hm])) h.1,
      ihr hs (fun i hm => hb i (by simp [bound,hm])) h.2⟩

end CallLowering.Expr
