import CallLowering.SemanticType.Basic

namespace CallLowering.SemanticType

def isKnown : SemanticType → Bool
  | unknown => false
  | list element => element.isKnown
  | map key value => key.isKnown && value.isKnown
  | _ => true

/-- The second type is the first one with a known type in the place of each unknown part. Two parts need not
turn out to be the same. -/
inductive Fills : SemanticType → SemanticType → Prop
  | unknown {t : SemanticType} (known : t.isKnown) : Fills unknown t
  | any : Fills any any
  | null : Fills null null
  | bool : Fills bool bool
  | int : Fills int int
  | float : Fills float float
  | number : Fills number number
  | string : Fills string string
  | list {a t : SemanticType} (element : Fills a t) : Fills (list a) (list t)
  | map {k v t u : SemanticType} (key : Fills k t) (value : Fills v u) : Fills (map k v) (map t u)

/-- Whatever the second type turns out to be, the first can turn out to accept it. -/
def Covers (declared actual : SemanticType) : Prop :=
  ∀ t, Fills actual t → ∃ d, Fills declared d ∧ d.accepts t=true

/-- Does the second type leave open what the first one states? -/
def opens : SemanticType → SemanticType → Bool
  | unknown,_ => false
  | any,_ => false
  | _,unknown => true
  | list a,list b => opens a b
  | map k v,map k' v' => opens k k' || opens v v'
  | _,_ => false

def hasMap : SemanticType → Bool
  | list element => element.hasMap
  | map _ _ => true
  | _ => false

namespace Fills

theorem isKnown {a t : SemanticType} (h : Fills a t) : t.isKnown := by
  induction h with
  | unknown known => exact known
  | list _ ih => exact ih
  | map _ _ ihk ihv =>
    rw [SemanticType.isKnown,ihk,ihv]
    rfl
  | _ => rfl

end Fills

theorem exists_fills (a : SemanticType) : ∃ t, Fills a t := by
  induction a with
  | unknown => exact ⟨null,.unknown rfl⟩
  | list a ih =>
    obtain ⟨t,ht⟩ := ih
    exact ⟨list t,.list ht⟩
  | map k v ihk ihv =>
    obtain ⟨t,ht⟩ := ihk
    obtain ⟨u,hu⟩ := ihv
    exact ⟨map t u,.map ht hu⟩
  | any => exact ⟨any,.any⟩
  | null => exact ⟨null,.null⟩
  | bool => exact ⟨bool,.bool⟩
  | int => exact ⟨int,.int⟩
  | float => exact ⟨float,.float⟩
  | number => exact ⟨number,.number⟩
  | string => exact ⟨string,.string⟩

theorem accepts_self (a : SemanticType) : a.accepts a=true := by
  induction a with
  | list a ih => exact ih
  | map k v ihk ihv =>
    rw [accepts,ihk,ihv]
    rfl
  | _ => rfl

/-- There is a known type that only an unknown type and the type of everything accept, in place of what is
known to be neither. -/
theorem exists_refused {d : SemanticType} (hu : d≠unknown) (ha : d≠any) :
    ∃ t, t.isKnown ∧ ∀ d', Fills d d' → d'.accepts t=false := by
  cases d with
  | unknown => exact absurd rfl hu
  | any => exact absurd rfl ha
  | null => exact ⟨bool,rfl,fun _ h => by cases h; rfl⟩
  | _ => exact ⟨null,rfl,fun _ h => by cases h; rfl⟩

theorem covers_self (a : SemanticType) : a.Covers a := fun t ht => ⟨t,ht,accepts_self t⟩

theorem covers_unknown (b : SemanticType) : unknown.Covers b :=
  fun t ht => ⟨t,.unknown ht.isKnown,accepts_self t⟩

theorem covers_any (b : SemanticType) : any.Covers b :=
  fun t _ => ⟨any,.any,by cases t <;> rfl⟩

theorem covers_list {a b : SemanticType} : (list a).Covers (list b) ↔ a.Covers b := by
  constructor
  · intro h t ht
    obtain ⟨_,hd,accepted⟩ := h _ (.list ht)
    cases hd with
    | list hd => exact ⟨_,hd,accepted⟩
  · intro h _ hl
    cases hl with
    | list ht =>
      obtain ⟨d,hd,accepted⟩ := h _ ht
      exact ⟨list d,.list hd,accepted⟩

theorem covers_map {k v k' v' : SemanticType} :
    (map k v).Covers (map k' v') ↔ k.Covers k' ∧ v.Covers v' := by
  constructor
  · -- The other part of a map is filled in some way.
    intro h
    obtain ⟨t₀,key₀⟩ := exists_fills k'
    obtain ⟨u₀,value₀⟩ := exists_fills v'
    constructor
    · intro t ht
      obtain ⟨_,hd,accepted⟩ := h _ (.map ht value₀)
      cases hd with
      | map hk hv => exact ⟨_,hk,((Bool.and_eq_true _ _).mp accepted).1⟩
    · intro u hu
      obtain ⟨_,hd,accepted⟩ := h _ (.map key₀ hu)
      cases hd with
      | map hk hv => exact ⟨_,hv,((Bool.and_eq_true _ _).mp accepted).2⟩
  · rintro ⟨hk,hv⟩ _ hm
    cases hm with
    | map ht hu =>
      obtain ⟨d,hd,key⟩ := hk _ ht
      obtain ⟨e,he,value⟩ := hv _ hu
      exact ⟨map d e,.map hd he,(Bool.and_eq_true _ _).mpr ⟨key,value⟩⟩

/-- A type that is accepted is covered where it leaves nothing open. -/
theorem covers_of_accepts {a b : SemanticType} (h : a.accepts b=true) (ho : a.opens b=false) : a.Covers b := by
  induction a generalizing b with
  | unknown => exact covers_unknown b
  | any => exact covers_any b
  | list a ih =>
    cases b with
    | list b => exact covers_list.mpr (ih h ho)
    | unknown => cases ho
    | _ => cases h
  | map k v ihk ihv =>
    cases b with
    | map k' v' =>
      rw [accepts,Bool.and_eq_true] at h
      rw [opens,Bool.or_eq_false_iff] at ho
      exact covers_map.mpr ⟨ihk h.1 ho.1,ihv h.2 ho.2⟩
    | unknown => cases ho
    | _ => cases h
  | number =>
    cases b with
    | int => exact fun _ ht => ⟨number,.number,by cases ht; rfl⟩
    | float => exact fun _ ht => ⟨number,.number,by cases ht; rfl⟩
    | number => exact fun _ ht => ⟨number,.number,by cases ht; rfl⟩
    | unknown => cases ho
    | _ => cases h
  | _ =>
    cases b with
    | unknown => cases ho
    | _ => first | exact covers_self _ | cases h

/-- What is left open can turn out to be something that is refused. -/
theorem not_covers_unknown {d : SemanticType} (hu : d≠unknown) (ha : d≠any) : ¬d.Covers unknown := by
  intro h
  obtain ⟨t,known,refused⟩ := exists_refused hu ha
  obtain ⟨d',hd,accepted⟩ := h t (.unknown known)
  rw [refused d' hd] at accepted
  cases accepted

theorem opens_of_covers {a b : SemanticType} (h : a.Covers b) : a.opens b=false := by
  induction a generalizing b with
  | unknown => rfl
  | any => rfl
  | list a ih =>
    cases b with
    | list b => exact ih (covers_list.mp h)
    | unknown => exact absurd h (not_covers_unknown nofun nofun)
    | _ => rfl
  | map k v ihk ihv =>
    cases b with
    | map k' v' =>
      obtain ⟨hk,hv⟩ := covers_map.mp h
      rw [opens,ihk hk,ihv hv]
      rfl
    | unknown => exact absurd h (not_covers_unknown nofun nofun)
    | _ => rfl
  | _ =>
    cases b with
    | unknown => exact absurd h (not_covers_unknown nofun nofun)
    | _ => rfl

/-- Among the types that a declared type accepts, it covers those that leave nothing open which it states. -/
theorem covers_iff {a b : SemanticType} (h : a.accepts b=true) : a.Covers b ↔ a.opens b=false :=
  ⟨opens_of_covers,covers_of_accepts h⟩

/-- Where the types are accepted only one way round, a part can be left open only beside another part, which is
narrower: in a map. -/
theorem not_opens {a b : SemanticType} (hm : a.hasMap=false) (h : a.accepts b=true) (hn : b.accepts a=false) :
    a.opens b=false := by
  induction a generalizing b with
  | unknown => rfl
  | any => rfl
  | map k v => cases hm
  | list a ih =>
    cases b with
    | list b => exact ih hm h hn
    | unknown => cases hn
    | _ => cases h
  | _ =>
    cases b with
    | unknown => cases hn
    | _ => rfl

end CallLowering.SemanticType
