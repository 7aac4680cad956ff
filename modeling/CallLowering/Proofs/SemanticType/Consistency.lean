import CallLowering.Proofs.SemanticType.Filling

namespace CallLowering.SemanticType

/-- The first type says less: some parts of the second, or all of it, are unknown in it. -/
inductive Blurs : SemanticType → SemanticType → Prop
  | unknown (t : SemanticType) : Blurs unknown t
  | same (t : SemanticType) : Blurs t t
  | list {a t : SemanticType} (element : Blurs a t) : Blurs (list a) (list t)
  | map {k v t u : SemanticType} (key : Blurs k t) (value : Blurs v u) : Blurs (map k v) (map t u)

variable {a b c t u : SemanticType}

theorem any_accepts (b : SemanticType) : any.accepts b=true := by
  cases b <;> rfl

theorem isKnown_map {k v : SemanticType} : (map k v).isKnown ↔ k.isKnown ∧ v.isKnown := Bool.and_eq_true_iff

theorem map_accepts {k v k' v' : SemanticType} :
    (map k v).accepts (map k' v')=true ↔ k.accepts k'=true ∧ v.accepts v'=true := Bool.and_eq_true_iff

theorem fills_of_isKnown (known : t.isKnown) : Fills t t := by
  induction t with
  | unknown => cases known
  | any => exact .any
  | null => exact .null
  | bool => exact .bool
  | int => exact .int
  | float => exact .float
  | number => exact .number
  | string => exact .string
  | list a ih => exact .list (ih known)
  | map k v ihk ihv => exact .map (ihk (isKnown_map.mp known).1) (ihv (isKnown_map.mp known).2)

/-- A chain of types may pass through any type that is known. -/
theorem accepts_trans (known : b.isKnown) (h : a.accepts b=true) (h' : b.accepts c=true) :
    a.accepts c=true := by
  fun_induction accepts a b generalizing c with
  | case1 => rfl
  | case2 => cases known
  | case3 => exact any_accepts c
  | case4 b _ =>
    cases b with
    | int => cases c <;> first | rfl | cases h'
    | float => cases c <;> first | rfl | cases h'
    | number => exact h'
    | _ => cases h
  | case5 a b ih =>
    cases c with
    | unknown => rfl
    | list c => exact ih known h h'
    | _ => cases h'
  | case6 k v k' v' ihk ihv =>
    cases c with
    | unknown => rfl
    | map k'' v'' =>
      rw [isKnown_map] at known
      rw [Bool.and_eq_true] at h
      rw [map_accepts] at h' ⊢
      exact ⟨ihk known.1 h.1 h'.1,ihv known.2 h.2 h'.2⟩
    | _ => cases h'
  | case7 a b =>
    rw [of_decide_eq_true h]
    exact h'

theorem accepts_antisymm (ha : a.isKnown) (hb : b.isKnown) (h : a.accepts b=true) (h' : b.accepts a=true) :
    a=b := by
  fun_induction accepts a b with
  | case1 => cases ha
  | case2 => cases hb
  | case3 b _ =>
    cases b with
    | any => rfl
    | unknown => cases hb
    | _ => cases h'
  | case4 b _ =>
    cases b with
    | number => rfl
    | int => cases h'
    | float => cases h'
    | _ => cases h
  | case5 a b ih => rw [ih ha hb h h']
  | case6 k v k' v' ihk ihv =>
    rw [isKnown_map] at ha hb
    rw [Bool.and_eq_true] at h
    rw [map_accepts] at h'
    rw [ihk ha.1 hb.1 h.1 h'.1,ihv ha.2 hb.2 h.2 h'.2]
  | case7 a b => exact of_decide_eq_true h

/-- Where a type is accepted, unknown parts may turn out such that it still is: what stands against an unknown
part is a type that the part may be. -/
theorem exists_fills_of_accepts (h : a.accepts b=true) :
    ∃ t u, Fills a t ∧ Fills b u ∧ t.accepts u=true := by
  fun_induction accepts a b with
  | case1 b =>
    obtain ⟨u,hu⟩ := exists_fills b
    exact ⟨u,u,.unknown hu.isKnown,hu,accepts_self u⟩
  | case2 a _ =>
    obtain ⟨t,ht⟩ := exists_fills a
    exact ⟨t,t,ht,.unknown ht.isKnown,accepts_self t⟩
  | case3 b _ =>
    obtain ⟨u,hu⟩ := exists_fills b
    exact ⟨any,u,.any,hu,any_accepts u⟩
  | case4 b _ =>
    have numeric : b.isKnown := by cases b <;> first | rfl | cases h
    exact ⟨number,b,.number,fills_of_isKnown numeric,by cases b <;> first | rfl | cases h⟩
  | case5 a b ih =>
    obtain ⟨t,u,ht,hu,accepted⟩ := ih h
    exact ⟨list t,list u,.list ht,.list hu,accepted⟩
  | case6 k v k' v' ihk ihv =>
    rw [Bool.and_eq_true] at h
    obtain ⟨t,u,ht,hu,key⟩ := ihk h.1
    obtain ⟨t',u',ht',hu',value⟩ := ihv h.2
    exact ⟨map t t',map u u',.map ht ht',.map hu hu',map_accepts.mpr ⟨key,value⟩⟩
  | case7 a b =>
    rw [of_decide_eq_true h]
    obtain ⟨t,ht⟩ := exists_fills b
    exact ⟨t,t,ht,ht,accepts_self t⟩

theorem accepts_of_fills (ha : Fills a t) (hb : Fills b u) (h : t.accepts u=true) : a.accepts b=true := by
  induction ha generalizing b u with
  | unknown => rfl
  | any => exact any_accepts b
  | list _ ih =>
    cases hb with
    | unknown => rfl
    | list hb => exact ih hb h
    | _ => cases h
  | map _ _ ihk ihv =>
    cases hb with
    | unknown => rfl
    | map hk hv =>
      rw [map_accepts] at h ⊢
      exact ⟨ihk hk h.1,ihv hv h.2⟩
    | _ => cases h
  | _ =>
    cases hb with
    | unknown => rfl
    | _ => exact h

/-- Whatever a type may turn out to be, it may still turn out to be where less of it is known. -/
theorem Blurs.fills (h : Blurs a b) (hb : Fills b t) : Fills a t := by
  induction h generalizing t with
  | unknown => exact .unknown hb.isKnown
  | same => exact hb
  | list _ ih =>
    cases hb with
    | list hb => exact .list (ih hb)
  | map _ _ ihk ihv =>
    cases hb with
    | map hk hv => exact .map (ihk hk) (ihv hv)

/-- Acceptance is consistent subtyping. Known types are partially ordered by it. In general a type is accepted
iff the unknown parts of both types, each by itself, may turn out such that it is, and so it still is where any
parts of either type are unknown instead. -/
theorem accepts_consistent :
    (∀ a : SemanticType, a.isKnown → a.accepts a=true) ∧
    (∀ a b c : SemanticType, a.isKnown → b.isKnown → c.isKnown → a.accepts b=true → b.accepts c=true →
      a.accepts c=true) ∧
    (∀ a b : SemanticType, a.isKnown → b.isKnown → a.accepts b=true → b.accepts a=true → a=b) ∧
    (∀ a b : SemanticType, a.accepts b=true ↔ ∃ t u, Fills a t ∧ Fills b u ∧ t.accepts u=true) ∧
    (∀ a b a' b' : SemanticType, Blurs a' a → Blurs b' b → a.accepts b=true → a'.accepts b'=true) := by
  refine ⟨fun a _ => a.accepts_self,fun _ _ _ _ known _ => accepts_trans known,fun _ _ => accepts_antisymm,
    fun a b => ⟨exists_fills_of_accepts,?_⟩,?_⟩
  · rintro ⟨t,u,ht,hu,accepted⟩
    exact accepts_of_fills ht hu accepted
  · intro a b a' b' ha hb accepted
    obtain ⟨t,u,ht,hu,accepted⟩ := exists_fills_of_accepts accepted
    exact accepts_of_fills (ha.fills ht) (hb.fills hu) accepted

/-- A map of lists of numbers takes a map of lists of integers, also where its keys and the elements are unknown.
-/
theorem accepts_consistent_maps :
    let declared : SemanticType := map string (list number)
    let actual : SemanticType := map string (list int)
    declared.accepts actual=true ∧ actual.accepts declared=false ∧ any.accepts declared=true ∧
      any.accepts actual=true ∧ (map unknown (list number)).accepts (map bool (list unknown))=true ∧
      (∃ t u, Fills (map unknown (list number)) t ∧ Fills (map bool (list unknown)) u ∧ t.accepts u=true) ∧
      (map string unknown).accepts (map unknown (list int))=true := by
  intro declared actual
  obtain ⟨-,trans,-,fillings,blurred⟩ := accepts_consistent
  exact ⟨rfl,rfl,rfl,trans any declared actual rfl rfl rfl rfl rfl,rfl,
    (fillings (map unknown (list number)) (map bool (list unknown))).mp rfl,
    blurred declared actual _ _ (.map (.same string) (.unknown _)) (.map (.unknown _) (.same _)) rfl⟩

end CallLowering.SemanticType
