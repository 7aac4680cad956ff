import CallLowering.Proofs.Value.Canonical
import CallLowering.SemanticType.Basic
import CallLowering.Value.Arithmetic

namespace CallLowering

/-- Is the value one of those that the type promises? Nothing is promised of what is only known when a template
is rendered, nor of what may be anything. -/
def SemanticType.admits : SemanticType → Value → Bool
  | unknown,_ => true
  | any,_ => true
  | null,.null => true
  | bool,.bool _ => true
  | int,.int _ => true
  | float,.float _ => true
  | number,.int _ => true
  | number,.float _ => true
  | string,.string _ => true
  | list element,.list vs => vs.all element.admits
  | _,_ => false

namespace SemanticType

theorem admits_list {element : SemanticType} {vs : List Value} :
    (list element).admits (.list vs) ↔ ∀ v∈vs, element.admits v := by
  rw [admits,List.all_eq_true]

theorem exists_int {v : Value} (h : int.admits v) : ∃ n, v=.int n := by
  cases v with
  | int n => exact ⟨n,rfl⟩
  | _ => cases h

theorem exists_float {v : Value} (h : float.admits v) : ∃ x, v=.float x := by
  cases v with
  | float x => exact ⟨x,rfl⟩
  | _ => cases h

/-- The sign of a zero and the payload of what is not a number do not matter to types. -/
@[simp] theorem admits_canonical (t : SemanticType) (v : Value) : t.admits v.canonical=t.admits v := by
  induction t generalizing v with
  | list element ih =>
    cases v with
    | list vs =>
      rw [Value.canonical,Value.canonicalAll_eq,admits,admits,List.all_map]
      exact congrArg vs.all (funext ih)
    | _ => rfl
  | map key value ihk ihv => cases v <;> rfl
  | _ => cases v <;> rfl

end SemanticType

namespace Value

variable {v w r : Value}

theorem int_of_ceil (h : v.ceil=.ok r) : SemanticType.int.admits r := by
  unfold ceil at h
  split at h
  · cases h
    rfl
  · obtain ⟨x,-,h⟩ := Failure.bind_ok h
    cases h
    rfl

theorem int_of_floor (h : v.floor=.ok r) : SemanticType.int.admits r := by
  unfold floor at h
  split at h
  · cases h
    rfl
  · obtain ⟨x,-,h⟩ := Failure.bind_ok h
    cases h
    rfl

theorem ints_of_range {start stop step : Int64} (h : range start stop step=.ok r) :
    (SemanticType.list .int).admits r := by
  unfold range at h
  split at h
  · cases h
  · cases h
    rw [SemanticType.admits_list]
    intro v hv
    obtain ⟨k,-,rfl⟩ := List.mem_map.mp hv
    rfl

/-- A way to choose one of two numbers: the result is a number, and one of their type if they have the same. -/
structure Chooses (choose : Value → Value → Except RoutineError Value) : Prop where
  number : ∀ v w r, choose v w=.ok r → SemanticType.number.admits r
  int : ∀ m n, ∃ k, choose (.int m) (.int n)=.ok (.int k)
  float : ∀ x y, ∃ z, choose (.float x) (.float y)=.ok (.float z)

theorem max_chooses : Chooses max where
  number v w r h := by
    unfold max at h
    split at h
    · cases h
      rfl
    · obtain ⟨x,-,h⟩ := Failure.bind_ok h
      obtain ⟨y,-,h⟩ := Failure.bind_ok h
      cases h
      rfl
  int m n := ⟨_,rfl⟩
  float x y := ⟨_,rfl⟩

theorem min_chooses : Chooses min where
  number v w r h := by
    unfold min at h
    split at h
    · cases h
      rfl
    · obtain ⟨x,-,h⟩ := Failure.bind_ok h
      obtain ⟨y,-,h⟩ := Failure.bind_ok h
      cases h
      rfl
  int m n := ⟨_,rfl⟩
  float x y := ⟨_,rfl⟩

theorem Chooses.admits {choose : Value → Value → Except RoutineError Value} (hc : Chooses choose)
    {t : SemanticType} (ht : t.isNumeric) (hv : t.admits v) (hw : t.admits w) (h : choose v w=.ok r) :
    t.admits r := by
  cases t with
  | int =>
    obtain ⟨m,rfl⟩ := SemanticType.exists_int hv
    obtain ⟨n,rfl⟩ := SemanticType.exists_int hw
    obtain ⟨k,hk⟩ := hc.int m n
    cases hk.symm.trans h
    rfl
  | float =>
    obtain ⟨x,rfl⟩ := SemanticType.exists_float hv
    obtain ⟨y,rfl⟩ := SemanticType.exists_float hw
    obtain ⟨z,hz⟩ := hc.float x y
    cases hz.symm.trans h
    rfl
  | number => exact hc.number v w r h
  | _ => cases ht

end Value

end CallLowering
