import CallLowering.Chunk.Emit
import CallLowering.Proofs.Expr.Coerced
import CallLowering.Proofs.Expr.Typed

namespace CallLowering.Expr

/-- Cheap trees only call methods that are cheap. -/
theorem cheap_of_isCheap (e : Expr) (h : e.isCheap) : ∀ m∈e.methods, m.cheap := by
  induction e with
  | const slot => simp [methods]
  | arg index rep => simp [methods]
  | readLocal index rep => simp [methods]
  | invoke m es ih =>
    simp only [isCheap,Bool.and_eq_true,areCheap_iff] at h
    simp only [methods,List.mem_cons,mem_methodsOf]
    rintro _ (rfl|⟨e,he,hm⟩)
    · exact h.1
    · exact ih e he (h.2 e he) _ hm
  | convert e target ih => exact ih h
  | box e ih => exact ih h
  | unbox e target ih => exact ih h
  | list es ih => cases h
  | bind index value body ihv ihb => cases h
  | select c t f ihc iht ihf => cases h
  | compare k lhs rhs ihl ihr => cases h
  | isNull e ih => cases h
  | not e ih => cases h

mutual

def mapMethods (f : Method → Method) : Expr → Expr
  | const slot => const slot
  | arg index rep => arg index rep
  | readLocal index rep => readLocal index rep
  | invoke m es => invoke (f m) (mapMethodsOf f es)
  | convert e target => convert (e.mapMethods f) target
  | box e => box (e.mapMethods f)
  | unbox e target => unbox (e.mapMethods f) target
  | list es => list (mapMethodsOf f es)
  | bind index value body => bind index (value.mapMethods f) (body.mapMethods f)
  | select c t g => select (c.mapMethods f) (t.mapMethods f) (g.mapMethods f)
  | compare k lhs rhs => compare k (lhs.mapMethods f) (rhs.mapMethods f)
  | isNull e => isNull (e.mapMethods f)
  | not e => not (e.mapMethods f)

def mapMethodsOf (f : Method → Method) : List Expr → List Expr
  | [] => []
  | e::es => e.mapMethods f::mapMethodsOf f es

end

variable (f : Method → Method)

@[simp] theorem mapMethodsOf_eq (es : List Expr) : mapMethodsOf f es=es.map (mapMethods f) := by
  induction es with
  | nil => rfl
  | cons e es ih => rw [mapMethodsOf,ih,List.map_cons]

theorem codeSizes_map {g : Expr → Expr} {es : List Expr} (h : ∀ e∈es, (g e).codeSize=e.codeSize) :
    codeSizes (es.map g)=codeSizes es := by
  induction es with
  | nil => rfl
  | cons e es ih =>
    rw [List.map_cons,codeSizes,codeSizes,h e (by simp),ih fun e he => h e (by simp [he])]

@[simp] theorem codeSize_mapMethods (e : Expr) : (e.mapMethods f).codeSize=e.codeSize := by
  induction e with
  | invoke m es ih => rw [mapMethods,mapMethodsOf_eq,codeSize,codeSize,codeSizes_map ih]
  | list es ih => rw [mapMethods,mapMethodsOf_eq,codeSize,codeSize,codeSizes_map ih]
  | _ => simp [mapMethods,codeSize, *]

theorem boundIn_map {g : Expr → Expr} {es : List Expr} (h : ∀ e∈es, (g e).bound=e.bound) :
    boundIn (es.map g)=boundIn es := by
  induction es with
  | nil => rfl
  | cons e es ih => rw [List.map_cons,boundIn,boundIn,h e (by simp),ih fun e he => h e (by simp [he])]

@[simp] theorem bound_mapMethods (e : Expr) : (e.mapMethods f).bound=e.bound := by
  induction e with
  | invoke m es ih => rw [mapMethods,mapMethodsOf_eq,bound,bound,boundIn_map ih]
  | list es ih => rw [mapMethods,mapMethodsOf_eq,bound,bound,boundIn_map ih]
  | _ => simp [mapMethods,bound, *]

theorem constantsOf_map {g : Expr → Expr} {es : List Expr} (h : ∀ e∈es, (g e).constants=e.constants) :
    constantsOf (es.map g)=constantsOf es := by
  induction es with
  | nil => rfl
  | cons e es ih =>
    rw [List.map_cons,constantsOf,constantsOf,h e (by simp),ih fun e he => h e (by simp [he])]

@[simp] theorem constants_mapMethods (e : Expr) : (e.mapMethods f).constants=e.constants := by
  induction e with
  | invoke m es ih => rw [mapMethods,mapMethodsOf_eq,constants,constants,constantsOf_map ih]
  | list es ih => rw [mapMethods,mapMethodsOf_eq,constants,constants,constantsOf_map ih]
  | _ => simp [mapMethods,constants, *]

theorem isClosed_mapMethods (e : Expr) {inside : List UInt16} (h : e.isClosed inside) :
    (e.mapMethods f).isClosed inside := by
  induction e generalizing inside with
  | const slot => rfl
  | arg index rep => rfl
  | readLocal index rep => exact h
  | invoke m es ih =>
    simp only [isClosed,areClosed_iff] at h
    simp only [mapMethods,mapMethodsOf_eq,isClosed,areClosed_iff,List.forall_mem_map]
    exact fun e he => ih e he (h e he)
  | list es ih =>
    simp only [isClosed,areClosed_iff] at h
    simp only [mapMethods,mapMethodsOf_eq,isClosed,areClosed_iff,List.forall_mem_map]
    exact fun e he => ih e he (h e he)
  | convert e target ih => exact ih h
  | box e ih => exact ih h
  | unbox e target ih => exact ih h
  | isNull e ih => exact ih h
  | not e ih => exact ih h
  | bind index value body ihv ihb =>
    simp only [isClosed,Bool.and_eq_true] at h
    simp only [mapMethods,isClosed,Bool.and_eq_true]
    rw [inBody,bound_mapMethods]
    exact ⟨⟨h.1.1,ihv h.1.2⟩,ihb h.2⟩
  | select c t g ihc iht ihg =>
    simp only [isClosed,Bool.and_eq_true] at h
    simp only [mapMethods,isClosed,Bool.and_eq_true]
    exact ⟨⟨ihc h.1.1,iht h.1.2⟩,ihg h.2⟩
  | compare k lhs rhs ihl ihr =>
    simp only [isClosed,Bool.and_eq_true] at h
    simp only [mapMethods,isClosed,Bool.and_eq_true]
    exact ⟨ihl h.1,ihr h.2⟩

theorem methodsOf_map {g : Expr → Expr} {es : List Expr}
    (h : ∀ e∈es, (g e).methods=e.methods.map f) : methodsOf (es.map g)=(methodsOf es).map f := by
  induction es with
  | nil => rfl
  | cons e es ih =>
    rw [List.map_cons,methodsOf,methodsOf,h e (by simp),ih fun e he => h e (by simp [he]),List.map_append]

@[simp] theorem methods_mapMethods (e : Expr) : (e.mapMethods f).methods=e.methods.map f := by
  induction e with
  | invoke m es ih => rw [mapMethods,mapMethodsOf_eq,methods,methods,methodsOf_map f ih,List.map_cons]
  | list es ih => rw [mapMethods,mapMethodsOf_eq,methods,methods,methodsOf_map f ih]
  | _ => simp [mapMethods,methods, *]

end CallLowering.Expr
