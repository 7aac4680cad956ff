import CallLowering.Proofs.Number.Nearest

namespace CallLowering

namespace Int64

theorem toInt_saturate (n : Int) :
    (saturate n).toInt=max (-0x8000000000000000) (min n 0x7fffffffffffffff) := by
  rw [saturate]
  apply Int64.toInt_ofInt_of_le <;> omega

@[simp] theorem saturate_toInt (n : Int64) : saturate n.toInt=n := by
  have low : -2^63 ≤ n.toInt := n.minValue_le_toInt
  have high : n.toInt < 2^63 := n.toInt_lt
  apply Int64.toInt_inj.mp
  rw [toInt_saturate]
  omega

/-- The integer that is left of `n` after a trip through binary64. -/
def throughFloat (n : Int64) : Int64 := (Binary64.ofInt n.toInt).toInt64

end Int64

namespace Binary64

variable {x : Binary64} {n : Int}

/-- The exponent of one, counted in units. -/
def oneExponent : Nat := 1074

theorem one_eq : one=2^oneExponent := Nat.pow_eq

theorem one_nonzero : one≠0 := by
  rw [one_eq]
  exact Nat.ne_of_gt (Nat.two_pow_pos _)

/-- Integers of `digits` binary digits. -/
theorem grid_integer {n digits : Nat} (h : n < 2^digits) : grid (n*one) ≤ digits+oneExponent-53 := by
  by_cases h0 : n*one=0
  · rw [h0]
    exact Nat.zero_le _
  · have bound : n*one < 2^(digits+oneExponent) := by
      rw [Nat.pow_add,←one_eq]
      exact Nat.mul_lt_mul_of_pos_right h (Nat.pos_of_ne_zero one_nonzero)
    have exponent := (Nat.log2_lt h0).mpr bound
    rw [grid]
    omega

theorem grid_lt {n : Nat} (h : n ≤ 2^63) : grid (n*one) < 2045 :=
  calc grid (n*one) ≤ 64+oneExponent-53 := grid_integer (Nat.lt_of_le_of_lt h (by decide))
    _ < 2045 := by decide

/-- Where the numbers are no more than one apart, integers are among them. -/
theorem grid_dvd_integer {n : Nat} (h : grid (n*one) ≤ oneExponent) : 2^grid (n*one)∣n*one := by
  have divides : 2^grid (n*one)∣2^oneExponent := Nat.pow_dvd_pow 2 h
  rw [←one_eq] at divides
  exact Nat.dvd_mul_left_of_dvd divides n

theorem toInt64_of_units (h : x.isNaN=false) (hu : x.units=n*one) : x.toInt64=Int64.saturate n := by
  have positive : (one : Int)≠0 := Int.natCast_ne_zero.mpr one_nonzero
  rw [toInt64,h,if_neg Bool.false_ne_true,hu,Int.mul_tdiv_cancel _ positive]

section

variable (h : n.natAbs ≤ 2^63)

include h

theorem isFinite_ofInt : (ofInt n).isFinite := isFinite_ofMagnitude (grid_lt h)

theorem isNaN_ofInt : (ofInt n).isNaN=false := isNaN_of_isFinite (isFinite_ofInt h)

theorem isNegative_ofInt : (ofInt n).isNegative=decide (n < 0) := isNegative_ofMagnitude (grid_lt h)

theorem units_ofInt (hd : 2^grid (n.natAbs*one)∣n.natAbs*one) : (ofInt n).units=n*one := by
  have exact : (ofInt n).magnitude=n.natAbs*one := magnitude_exact (grid_lt h) hd
  rw [units,isNegative_ofInt h,exact,Int.natCast_mul]
  by_cases hn : n < 0
  · rw [if_pos (decide_eq_true hn),Int.ofNat_natAbs_of_nonpos (Int.le_of_lt hn),Int.neg_mul,Int.neg_neg]
  · rw [if_neg (by simpa using hn),Int.natAbs_of_nonneg (by omega)]

/-- Where the numbers are farther apart, all of them are integers. -/
theorem magnitude_ofInt : (ofInt n).magnitude=n.natAbs*one ∨
    ∃ k, binade ≤ k ∧ (ofInt n).magnitude=k*one := by
  by_cases fine : grid (n.natAbs*one) ≤ oneExponent
  · exact .inl (magnitude_exact (grid_lt h) (grid_dvd_integer fine))
  · refine .inr ⟨significand (n.natAbs*one)*2^(grid (n.natAbs*one)-oneExponent),?_,?_⟩
    · exact Nat.le_trans (le_significand (by omega)) (Nat.le_mul_of_pos_right _ (Nat.two_pow_pos _))
    · have split : 2^grid (n.natAbs*one)=2^(grid (n.natAbs*one)-oneExponent)*2^oneExponent := by
        rw [←Nat.pow_add,Nat.sub_add_cancel (Nat.le_of_not_le fine)]
      rw [ofInt,magnitude_ofMagnitude (grid_lt h),split,←one_eq,Nat.mul_assoc]

theorem isWhole_ofInt : (ofInt n).isWhole := by
  have whole : (ofInt n).magnitude%one=0 := by
    rcases magnitude_ofInt h with exact|⟨k,-,rounded⟩
    · rw [exact,Nat.mul_mod_left]
    · rw [rounded,Nat.mul_mod_left]
  rw [isWhole,isFinite_ofInt h,whole]
  rfl

theorem magnitude_ofInt_eq_zero : (ofInt n).magnitude=0 ↔ n=0 := by
  rcases magnitude_ofInt h with exact|⟨k,hk,rounded⟩
  · rw [exact,Nat.mul_eq_zero,or_iff_left one_nonzero,Int.natAbs_eq_zero]
  · have large : k≠0 := by
      rintro rfl
      exact absurd hk (by decide)
    have apart : (ofInt n).magnitude≠0 := by
      rw [rounded]
      exact Nat.mul_ne_zero large one_nonzero
    refine ⟨fun zero => absurd zero apart,?_⟩
    rintro rfl
    decide +kernel

end

/-- A whole number is a multiple of one. -/
theorem units_of_isWhole (h : x.isWhole) : ∃ n : Int, x.units=n*one ∧ n.natAbs*one=x.magnitude := by
  obtain ⟨-,whole⟩ : x.isFinite ∧ x.magnitude%one=0 := by simpa [isWhole] using h
  have multiple : x.magnitude/one*one=x.magnitude := Nat.div_mul_cancel (Nat.dvd_of_mod_eq_zero whole)
  rw [units]
  split
  · refine ⟨-((x.magnitude/one : Nat) : Int),?_,?_⟩
    · rw [Int.neg_mul,←Int.natCast_mul,multiple]
    · rw [Int.natAbs_neg,Int.natAbs_natCast,multiple]
  · refine ⟨((x.magnitude/one : Nat) : Int),?_,?_⟩
    · rw [←Int.natCast_mul,multiple]
    · rw [Int.natAbs_natCast,multiple]

theorem isNaN_of_isWhole (h : x.isWhole) : x.isNaN=false := by
  rw [isWhole,Bool.and_eq_true] at h
  exact isNaN_of_isFinite h.1

theorem isWhole_of_zero (h : x.magnitude=0) : x.isWhole := by
  have finite : x.isFinite := by
    rw [isFinite,decide_eq_true_eq]
    intro top
    rw [magnitude_of_ne (by rw [top]; decide)] at h
    have positive : 0 < (binade+x.fractionField)*2^(x.exponentField-1) :=
      Nat.mul_pos (Nat.add_pos_left (by decide) _) (Nat.two_pow_pos _)
    omega
  rw [isWhole,finite,h,Nat.zero_mod]
  rfl

theorem toInt64_of_equals_zero (h : x.equals ⟨0⟩) : x.isWhole ∧ x.toInt64=0 := by
  obtain ⟨hx,-,hu⟩ := (equals_iff _ _).mp h
  have zero : x.units=0 := hu.trans (by decide)
  refine ⟨isWhole_of_zero (x.units_eq_zero.mp zero),?_⟩
  rw [toInt64_of_units hx (zero.trans (Int.zero_mul _).symm)]
  rfl

theorem isWhole_canonical (x : Binary64) : x.canonical.isWhole=x.isWhole := by
  cases hx : x.isNaN with
  | true =>
    have broken : x.isWhole=false := by
      cases hw : x.isWhole with
      | false => rfl
      | true => cases (isNaN_of_isWhole hw).symm.trans hx
    rw [canonical_nan hx,broken]
    rfl
  | false =>
    by_cases h0 : x.magnitude=0
    · rw [canonical_zero hx h0,isWhole_of_zero h0,isWhole_of_zero rfl]
    · rw [canonical_self hx h0]

end Binary64

namespace Int64

open Binary64

theorem natAbs_le (n : Int64) : n.toInt.natAbs ≤ 2^63 := by
  have low : -2^63 ≤ n.toInt := n.minValue_le_toInt
  have high : n.toInt < 2^63 := n.toInt_lt
  omega

/-- The integer part of a whole number comes back as it is, also where it lies at an end of the range. -/
theorem throughFloat_toInt64 {x : Binary64} (h : x.isWhole) : throughFloat x.toInt64=x.toInt64 := by
  obtain ⟨n,hu,hm⟩ := units_of_isWhole h
  have converted := toInt64_of_units (isNaN_of_isWhole h) hu
  rw [converted,throughFloat,toInt_saturate]
  -- beyond the ends of the range the integer is an end, and which number it comes from does not matter
  by_cases below : n < -0x8000000000000000
  · rw [saturate,show max (-0x8000000000000000) (min n 0x7fffffffffffffff)=-0x8000000000000000 by omega]
    decide +kernel
  · by_cases above : 0x7fffffffffffffff < n
    · rw [saturate,show max (-0x8000000000000000) (min n 0x7fffffffffffffff)=0x7fffffffffffffff by omega]
      decide +kernel
    · rw [show max (-0x8000000000000000) (min n 0x7fffffffffffffff)=n by omega]
      have range : n.natAbs ≤ 2^63 := by omega
      have held : 2^grid (n.natAbs*one)∣n.natAbs*one := hm ▸ grid_dvd_magnitude x
      exact toInt64_of_units (isNaN_ofInt range) (units_ofInt range held)

/-- One trip is enough. -/
@[simp] theorem throughFloat_throughFloat (n : Int64) : throughFloat (throughFloat n)=throughFloat n :=
  throughFloat_toInt64 (isWhole_ofInt (natAbs_le n))

/-- Integers of up to fifty-three digits come back as they are. -/
theorem throughFloat_small {n : Int64} (h : n.toInt.natAbs ≤ 2^53) : throughFloat n=n := by
  have range := natAbs_le n
  have held : 2^grid (n.toInt.natAbs*one)∣n.toInt.natAbs*one := by
    by_cases top : n.toInt.natAbs=2^53
    · rw [top]
      exact Nat.dvd_of_mod_eq_zero (by decide +kernel)
    · have fine : grid (n.toInt.natAbs*one) ≤ 53+oneExponent-53 := grid_integer (by omega)
      exact grid_dvd_integer fine
  rw [throughFloat,toInt64_of_units (isNaN_ofInt range) (units_ofInt range held),saturate_toInt]

theorem throughFloat_nonpositive {n : Int64} (h : n.toInt ≤ 0) : (throughFloat n).toInt ≤ 0 := by
  have range := natAbs_le n
  obtain ⟨k,hu,hm⟩ := units_of_isWhole (isWhole_ofInt range)
  rw [throughFloat,toInt64_of_units (isNaN_ofInt range) hu,toInt_saturate]
  have positive : (0 : Int) < one := Int.natCast_pos.mpr (Nat.pos_of_ne_zero one_nonzero)
  have sign : (ofInt n.toInt).units ≤ 0 := by
    rw [units,isNegative_ofInt range]
    by_cases hn : n.toInt < 0
    · rw [if_pos (decide_eq_true hn)]
      omega
    · have zero : (ofInt n.toInt).magnitude=0 := (magnitude_ofInt_eq_zero range).mpr (by omega)
      rw [if_neg (by simpa using hn),zero]
      exact Int.le_refl 0
  have below : k ≤ 0 := by
    by_contra hk
    have := Int.mul_pos (Int.not_le.mp hk) positive
    omega
  omega

theorem throughFloat_eq_zero {n : Int64} : throughFloat n=0 ↔ n=0 := by
  have range := natAbs_le n
  obtain ⟨k,hu,hm⟩ := units_of_isWhole (isWhole_ofInt range)
  have zero : k=0 ↔ n.toInt=0 := by
    rw [←magnitude_ofInt_eq_zero range,←hm,Nat.mul_eq_zero,or_iff_left one_nonzero,Int.natAbs_eq_zero]
  rw [throughFloat,toInt64_of_units (isNaN_ofInt range) hu,←Int64.toInt_inj,←Int64.toInt_inj,toInt_saturate]
  have none : (0 : Int64).toInt=0 := rfl
  rw [none,←zero]
  omega

end Int64

end CallLowering
