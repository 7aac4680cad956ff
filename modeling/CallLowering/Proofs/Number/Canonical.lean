import CallLowering.Number.Binary64
import Mathlib.Algebra.Group.Nat.Defs
import Mathlib.Tactic.ByContra

namespace CallLowering.Binary64

theorem fractionField_lt (x : Binary64) : x.fractionField < binade := by
  rw [fractionField,binade]
  omega

/-- A number is its three fields. -/
theorem bits_toNat (x : Binary64) : x.bits.toNat=(if x.isNegative then 2048 else 0)*binade+
    (x.exponentField*binade+x.fractionField) := by
  have hx : x.bits.toNat < 2^64 := x.bits.toNat_lt
  by_cases hn : 0x8000000000000000 ≤ x.bits.toNat
  · simp only [isNegative,hn,decide_true,if_true,exponentField,fractionField,binade]
    omega
  · simp only [isNegative,hn,decide_false,Bool.false_eq_true,if_false,exponentField,fractionField,binade]
    omega

theorem magnitude_of_zero {x : Binary64} (h : x.exponentField=0) : x.magnitude=x.fractionField :=
  if_pos h

theorem magnitude_of_ne {x : Binary64} (h : x.exponentField≠0) :
    x.magnitude=(binade+x.fractionField)*2^(x.exponentField-1) := if_neg h

/-- A number of a higher binade is farther from zero. -/
theorem magnitude_lt {x y : Binary64} (h : x.exponentField < y.exponentField) :
    x.magnitude < y.magnitude := by
  have hf := x.fractionField_lt
  rw [magnitude_of_ne (by omega : y.exponentField≠0)]
  by_cases hx : x.exponentField=0
  · rw [magnitude_of_zero hx]
    calc x.fractionField < binade := hf
      _ ≤ binade+y.fractionField := Nat.le_add_right _ _
      _ ≤ (binade+y.fractionField)*2^(y.exponentField-1) := Nat.le_mul_of_pos_right _ (Nat.two_pow_pos _)
  · rw [magnitude_of_ne hx]
    have step : 2^(x.exponentField-1)*2 ≤ 2^(y.exponentField-1) := by
      rw [←Nat.pow_succ]
      exact Nat.pow_le_pow_right (by omega) (by omega)
    calc (binade+x.fractionField)*2^(x.exponentField-1)
        < (binade+binade)*2^(x.exponentField-1) :=
          Nat.mul_lt_mul_of_pos_right (by omega) (Nat.two_pow_pos _)
      _ = binade*(2^(x.exponentField-1)*2) := by rw [←Nat.two_mul,Nat.mul_comm 2,Nat.mul_assoc,Nat.mul_comm 2]
      _ ≤ binade*2^(y.exponentField-1) := Nat.mul_le_mul_left _ step
      _ ≤ (binade+y.fractionField)*2^(y.exponentField-1) :=
          Nat.mul_le_mul_right _ (Nat.le_add_right _ _)

theorem fields_of_magnitude {x y : Binary64} (h : x.magnitude=y.magnitude) :
    x.exponentField=y.exponentField ∧ x.fractionField=y.fractionField := by
  have he : x.exponentField=y.exponentField := by
    rcases Nat.lt_trichotomy x.exponentField y.exponentField with hlt|heq|hgt
    · exact absurd h (Nat.ne_of_lt (magnitude_lt hlt))
    · exact heq
    · exact absurd h.symm (Nat.ne_of_lt (magnitude_lt hgt))
  refine ⟨he,?_⟩
  by_cases hx : x.exponentField=0
  · rwa [magnitude_of_zero hx,magnitude_of_zero (he ▸ hx)] at h
  · rw [magnitude_of_ne hx,magnitude_of_ne (he ▸ hx),he] at h
    have hsum := Nat.eq_of_mul_eq_mul_right (Nat.two_pow_pos _) h
    omega

theorem units_eq_zero (x : Binary64) : x.units=0 ↔ x.magnitude=0 := by
  rw [units]
  split <;> omega

/-- Away from zero the units say which number it is. -/
theorem eq_of_units {x y : Binary64} (h : x.units=y.units) (hx : x.magnitude≠0) : x=y := by
  have hy : y.magnitude≠0 := fun hy => hx (x.units_eq_zero.mp (h.trans (y.units_eq_zero.mpr hy)))
  have mag : x.magnitude=y.magnitude := by
    rw [units,units] at h
    split at h <;> split at h <;> omega
  have sign : x.isNegative=y.isNegative := by
    by_contra hne
    rw [units,units,mag] at h
    cases hny : y.isNegative with
    | true =>
      rw [hny,Bool.not_eq_true] at hne
      rw [hne,hny,if_neg Bool.false_ne_true,if_pos rfl] at h
      omega
    | false =>
      rw [hny,Bool.not_eq_false] at hne
      rw [hne,hny,if_pos rfl,if_neg Bool.false_ne_true] at h
      omega
  obtain ⟨he,hf⟩ := fields_of_magnitude mag
  have hbits : x.bits.toNat=y.bits.toNat := by
    rw [bits_toNat x,bits_toNat y,sign,he,hf]
  have hb : x.bits=y.bits := UInt64.toNat_inj.mp hbits
  cases x
  cases y
  exact congrArg Binary64.mk hb

theorem equals_iff (x y : Binary64) :
    x.equals y ↔ x.isNaN=false ∧ y.isNaN=false ∧ x.units=y.units := by
  unfold equals order
  cases x.isNaN <;> cases y.isNaN <;> simp

theorem equals_self {x y : Binary64} (h : x.equals y) : y.equals y := by
  rw [equals_iff] at h ⊢
  exact ⟨h.2.1,h.2.1,rfl⟩

/-- The one number that stands for all that cannot be told apart from this. -/
def canonical (x : Binary64) : Binary64 :=
  if x.isNaN then nan else if x.magnitude=0 then ⟨0⟩ else x

theorem canonical_nan {x : Binary64} (h : x.isNaN) : x.canonical=nan := if_pos h

theorem canonical_zero {x : Binary64} (h : x.isNaN=false) (h0 : x.magnitude=0) : x.canonical=⟨0⟩ := by
  simp [canonical,h,h0]

theorem canonical_self {x : Binary64} (h : x.isNaN=false) (h0 : x.magnitude≠0) : x.canonical=x := by
  simp [canonical,h,h0]

@[simp] theorem isNaN_canonical (x : Binary64) : x.canonical.isNaN=x.isNaN := by
  cases h : x.isNaN with
  | true =>
    rw [canonical_nan h]
    decide
  | false =>
    by_cases h0 : x.magnitude=0
    · rw [canonical_zero h h0]
      decide
    · rw [canonical_self h h0,h]

theorem units_canonical {x : Binary64} (h : x.isNaN=false) : x.canonical.units=x.units := by
  by_cases h0 : x.magnitude=0
  · rw [canonical_zero h h0,x.units_eq_zero.mpr h0]
    decide
  · rw [canonical_self h h0]

theorem order_canonical (x y : Binary64) : x.canonical.order y.canonical=x.order y := by
  simp only [order,isNaN_canonical]
  cases hx : x.isNaN with
  | true => rfl
  | false =>
    cases hy : y.isNaN with
    | true => rfl
    | false => rw [units_canonical hx,units_canonical hy]

theorem canonical_eq_iff (x y : Binary64) :
    x.canonical=y.canonical ↔ (x.isNaN ∧ y.isNaN) ∨ x.equals y := by
  constructor
  · intro h
    have hnan : x.isNaN=y.isNaN := by rw [←isNaN_canonical x,h,isNaN_canonical]
    cases hx : x.isNaN with
    | true => exact .inl ⟨rfl,by rw [←hnan,hx]⟩
    | false =>
      have hy : y.isNaN=false := by rw [←hnan,hx]
      have hu : x.units=y.units := by rw [←units_canonical hx,h,units_canonical hy]
      exact .inr ((equals_iff x y).mpr ⟨hx,hy,hu⟩)
  · intro h
    obtain ⟨hx,hy⟩|h := h
    · rw [canonical_nan hx,canonical_nan hy]
    · obtain ⟨hx,hy,hu⟩ := (equals_iff x y).mp h
      by_cases h0 : x.magnitude=0
      · have hy0 : y.magnitude=0 := y.units_eq_zero.mp (hu ▸ x.units_eq_zero.mpr h0)
        rw [canonical_zero hx h0,canonical_zero hy hy0]
      · rw [eq_of_units hu h0]

theorem canonical_canonical (x : Binary64) : x.canonical.canonical=x.canonical := by
  cases hx : x.isNaN with
  | true =>
    rw [canonical_eq_iff,isNaN_canonical,hx]
    exact .inl ⟨rfl,rfl⟩
  | false =>
    rw [canonical_eq_iff]
    exact .inr ((equals_iff _ _).mpr ⟨(isNaN_canonical x).trans hx,hx,units_canonical hx⟩)

theorem toInt64_canonical (x : Binary64) : x.canonical.toInt64=x.toInt64 := by
  simp only [toInt64,isNaN_canonical]
  cases hx : x.isNaN with
  | true => rfl
  | false => rw [units_canonical hx]

/-- Rounding the zeros gives zeros. -/
theorem ceil_canonical (x : Binary64) : x.canonical.ceil.canonical=x.ceil.canonical := by
  cases hx : x.isNaN with
  | true =>
    have same : x.ceil=x := by simp [ceil,hx]
    rw [same,canonical_nan hx]
    decide
  | false =>
    by_cases h0 : x.magnitude=0
    · have zero : x.ceil=if x.isNegative then ofMagnitude true (0/one*one)
          else ofMagnitude false (roundOut 0*one) := by
        rw [ceil,hx,h0]
        rfl
      rw [canonical_zero hx h0,zero]
      cases x.isNegative <;> decide +kernel
    · rw [canonical_self hx h0]

theorem floor_canonical (x : Binary64) : x.canonical.floor.canonical=x.floor.canonical := by
  cases hx : x.isNaN with
  | true =>
    have same : x.floor=x := by simp [floor,hx]
    rw [same,canonical_nan hx]
    decide
  | false =>
    by_cases h0 : x.magnitude=0
    · have zero : x.floor=if x.isNegative then ofMagnitude true (roundOut 0*one)
          else ofMagnitude false (0/one*one) := by
        rw [floor,hx,h0]
        rfl
      rw [canonical_zero hx h0,zero]
      cases x.isNegative <;> decide +kernel
    · rw [canonical_self hx h0]

theorem max_canonical (x y : Binary64) : (x.canonical.max y.canonical).canonical=(x.max y).canonical := by
  simp only [max,isNaN_canonical]
  cases hx : x.isNaN with
  | true => exact canonical_canonical y
  | false =>
    cases hy : y.isNaN with
    | true => exact canonical_canonical x
    | false =>
      simp only [Bool.false_eq_true,if_false,units_canonical hx,units_canonical hy]
      split
      · exact canonical_canonical y
      · exact canonical_canonical x

theorem min_canonical (x y : Binary64) : (x.canonical.min y.canonical).canonical=(x.min y).canonical := by
  simp only [min,isNaN_canonical]
  cases hx : x.isNaN with
  | true => exact canonical_canonical y
  | false =>
    cases hy : y.isNaN with
    | true => exact canonical_canonical x
    | false =>
      simp only [Bool.false_eq_true,if_false,units_canonical hx,units_canonical hy]
      split
      · exact canonical_canonical y
      · exact canonical_canonical x

theorem max_congr {x x' y y' : Binary64} (hx : x.canonical=x'.canonical) (hy : y.canonical=y'.canonical) :
    (x.max y).canonical=(x'.max y').canonical := by
  rw [←max_canonical,hx,hy,max_canonical]

theorem min_congr {x x' y y' : Binary64} (hx : x.canonical=x'.canonical) (hy : y.canonical=y'.canonical) :
    (x.min y).canonical=(x'.min y').canonical := by
  rw [←min_canonical,hx,hy,min_canonical]

theorem ceil_congr {x y : Binary64} (h : x.canonical=y.canonical) : x.ceil.canonical=y.ceil.canonical := by
  rw [←ceil_canonical,h,ceil_canonical]

theorem floor_congr {x y : Binary64} (h : x.canonical=y.canonical) :
    x.floor.canonical=y.floor.canonical := by
  rw [←floor_canonical,h,floor_canonical]

theorem toInt64_congr {x y : Binary64} (h : x.canonical=y.canonical) : x.toInt64=y.toInt64 := by
  rw [←toInt64_canonical,h,toInt64_canonical]

end CallLowering.Binary64
