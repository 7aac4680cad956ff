import CallLowering.Proofs.Number.Canonical

namespace CallLowering.Binary64

/-- The exponent of the power of two whose multiples are the numbers around `n` units. -/
def grid (n : Nat) : Nat := n.log2-52

/-- Is the multiple above nearer, or as near and even? -/
def roundsUp (n : Nat) : Bool :=
  decide (2^grid n < 2*(n%2^grid n)) || (2*(n%2^grid n)==2^grid n && n/2^grid n%2==1)

/-- Which multiple of the power of two is nearest to `n` units. -/
def significand (n : Nat) : Nat := n/2^grid n+(roundsUp n).toNat

theorem nearestFields_eq (n : Nat) :
    nearestFields n=Min.min (grid n*binade+significand n) (2047*binade) := by
  rw [significand,←Nat.add_assoc]
  rfl

theorem significand_le (n : Nat) : significand n ≤ 2*binade := by
  have low : n < 2^(grid n+53) :=
    calc n < 2^(n.log2+1) := Nat.lt_log2_self
      _ ≤ 2^(grid n+53) := Nat.pow_le_pow_right (by omega) (by rw [grid]; omega)
  have kept : n/2^grid n < 2*binade := by
    rw [Nat.div_lt_iff_lt_mul (Nat.two_pow_pos _),Nat.mul_comm]
    rwa [Nat.pow_add] at low
  have up : (roundsUp n).toNat ≤ 1 := Bool.toNat_le _
  rw [significand]
  omega

/-- Above the smallest numbers the significand has all its digits. -/
theorem le_significand {n : Nat} (h : grid n≠0) : binade ≤ significand n := by
  have hn : n≠0 := by
    rintro rfl
    exact h rfl
  have high : 2^(52+grid n) ≤ n := by
    have exponent : 52+grid n=n.log2 := by
      rw [grid] at h ⊢
      omega
    rw [exponent]
    exact Nat.log2_self_le hn
  have kept : binade ≤ n/2^grid n := by
    rw [Nat.le_div_iff_mul_le (Nat.two_pow_pos _)]
    rwa [Nat.pow_add] at high
  exact Nat.le_trans kept (Nat.le_add_right _ _)

section

variable {negative : Bool} {n : Nat}

/-- Numbers in the range of finite ones have the fields that were computed. -/
theorem bits_ofMagnitude (h : grid n < 2045) : (ofMagnitude negative n).bits.toNat=
    (if negative then 2048 else 0)*binade+(grid n*binade+significand n) := by
  have hs := significand_le n
  rw [ofMagnitude,nearestFields_eq,UInt64.toNat_ofNat']
  simp only [binade] at hs ⊢
  split <;> omega

theorem isNegative_ofMagnitude (h : grid n < 2045) : (ofMagnitude negative n).isNegative=negative := by
  have hs := significand_le n
  rw [isNegative,bits_ofMagnitude h]
  simp only [binade] at hs ⊢
  cases negative with
  | true => simp
  | false =>
    simp only [Bool.false_eq_true,if_false,decide_eq_false_iff_not]
    omega

theorem exponentField_ofMagnitude (h : grid n < 2045) :
    (ofMagnitude negative n).exponentField=(grid n*binade+significand n)/binade := by
  have hs := significand_le n
  rw [exponentField,bits_ofMagnitude h]
  simp only [binade] at hs ⊢
  split <;> omega

theorem fractionField_ofMagnitude (h : grid n < 2045) :
    (ofMagnitude negative n).fractionField=(grid n*binade+significand n)%binade := by
  rw [fractionField,bits_ofMagnitude h]
  simp only [binade]
  split <;> omega

theorem isFinite_ofMagnitude (h : grid n < 2045) : (ofMagnitude negative n).isFinite := by
  have hs := significand_le n
  rw [isFinite,exponentField_ofMagnitude h,decide_eq_true_eq]
  simp only [binade] at hs ⊢
  omega

theorem isNaN_of_isFinite {x : Binary64} (h : x.isFinite) : x.isNaN=false := by
  have apart : x.exponentField≠2047 := by simpa [isFinite] using h
  simp [isNaN,apart]

/-- The magnitude is the multiple that was chosen, also where it starts the next binade. -/
theorem magnitude_ofMagnitude (h : grid n < 2045) :
    (ofMagnitude negative n).magnitude=significand n*2^grid n := by
  have hs := significand_le n
  rw [magnitude,exponentField_ofMagnitude h,fractionField_ofMagnitude h]
  by_cases low : significand n < binade
  · -- no implicit digit
    have zero : grid n=0 := by
      by_contra hg
      exact Nat.not_lt_of_le (le_significand hg) low
    rw [zero,Nat.zero_mul,Nat.zero_add,Nat.div_eq_of_lt low,if_pos rfl,Nat.mod_eq_of_lt low]
    omega
  · by_cases carried : significand n=2*binade
    · have exponent : (grid n*binade+significand n)/binade=grid n+2 := by
        simp only [binade] at carried ⊢
        omega
      have fraction : (grid n*binade+significand n)%binade=0 := by
        simp only [binade] at carried ⊢
        omega
      rw [exponent,fraction,if_neg (by omega),carried]
      change (binade+0)*2^(grid n+1)=_
      rw [Nat.pow_succ,Nat.add_zero,Nat.mul_comm 2,Nat.mul_assoc,Nat.mul_comm 2]
    · have exponent : (grid n*binade+significand n)/binade=grid n+1 := by
        simp only [binade] at low carried hs ⊢
        omega
      have fraction : binade+(grid n*binade+significand n)%binade=significand n := by
        simp only [binade] at low carried hs ⊢
        omega
      rw [exponent,fraction,if_neg (by omega)]
      rfl

/-- A multiple of the power of two is there itself. -/
theorem magnitude_exact (h : grid n < 2045) (hd : 2^grid n∣n) : (ofMagnitude negative n).magnitude=n := by
  have lost : n%2^grid n=0 := Nat.mod_eq_zero_of_dvd hd
  have down : roundsUp n=false := by
    have positive : 0 < 2^grid n := Nat.two_pow_pos _
    rw [roundsUp,lost]
    simp only [Nat.mul_zero,Bool.or_eq_false_iff,decide_eq_false_iff_not,Bool.and_eq_false_imp,beq_iff_eq]
    omega
  rw [magnitude_ofMagnitude h,significand,down,Bool.toNat_false,Nat.add_zero]
  exact Nat.div_mul_cancel hd

end

/-- The magnitude of a number can be held. -/
theorem grid_dvd_magnitude (x : Binary64) : 2^grid x.magnitude∣x.magnitude := by
  have hf := x.fractionField_lt
  by_cases hx : x.exponentField=0
  · have zero : grid x.magnitude=0 := by
      rw [magnitude_of_zero hx,grid]
      by_cases h0 : x.fractionField=0
      · rw [h0]
        rfl
      · have small : x.fractionField.log2 < 52 := (Nat.log2_lt h0).mpr hf
        omega
    rw [zero]
    exact Nat.one_dvd _
  · rw [magnitude_of_ne hx]
    have lower : 2^(52+(x.exponentField-1)) ≤ (binade+x.fractionField)*2^(x.exponentField-1) := by
      rw [Nat.pow_add]
      exact Nat.mul_le_mul_right _ (Nat.le_add_right _ _)
    have upper : (binade+x.fractionField)*2^(x.exponentField-1) < 2^(52+(x.exponentField-1)+1) := by
      rw [Nat.add_right_comm,Nat.pow_add]
      exact Nat.mul_lt_mul_of_pos_right (by rw [binade] at hf ⊢; omega) (Nat.two_pow_pos _)
    have positive : (binade+x.fractionField)*2^(x.exponentField-1)≠0 := by
      have := Nat.two_pow_pos (52+(x.exponentField-1))
      omega
    have exponent : grid ((binade+x.fractionField)*2^(x.exponentField-1))=x.exponentField-1 := by
      rw [grid,(Nat.log2_eq_iff positive).mpr ⟨lower,upper⟩]
      omega
    rw [exponent]
    exact Nat.dvd_mul_left _ _

end CallLowering.Binary64
