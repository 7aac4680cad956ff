import CallLowering.Value.Arithmetic

namespace CallLowering

/-- A sum that is no 64-bit integer lies outside their range. -/
theorem Int64.add?_eq_none {m n : Int64} (h : add? m n=none) :
    m.toInt+n.toInt < -0x8000000000000000 ∨ 0x8000000000000000 ≤ m.toInt+n.toInt := by
  rw [add?,ofInt?] at h
  split at h
  · cases h
  · omega

namespace Value

variable {start stop step current : Int}

/-- A progression that has not reached `stop` had not reached it one term before. -/
theorem Short.before (h : Short stop step (current+step)) : Short stop step current := by
  unfold Short at h ⊢
  omega

/-- Once `stop` is reached, all that follows lies behind it. -/
theorem not_short_behind (h : ¬Short stop step start) (k : Nat) : ¬Short stop step (start+k*step) := by
  induction k with
  | zero => simpa using h
  | succ k ih =>
    have next : start+(k+1 : Nat)*step=start+k*step+step := by
      rw [Int.natCast_succ,Int.add_mul,Int.one_mul,Int.add_assoc]
    rw [next]
    exact fun short => ih short.before

/-- Where the loop breaks off, the next term would not be short of `stop`. -/
theorem not_short_of_add? {current stop step : Int64} (h : Int64.add? current step=none) :
    ¬Short stop.toInt step.toInt (current.toInt+step.toInt) := by
  have outside := Int64.add?_eq_none h
  have low : -2^63 ≤ current.toInt := current.minValue_le_toInt
  have high : current.toInt < 2^63 := current.toInt_lt
  have low' : -2^63 ≤ stop.toInt := stop.minValue_le_toInt
  have high' : stop.toInt < 2^63 := stop.toInt_lt
  unfold Short
  omega

/-- The first `count` terms from `start` on are those that are short of `stop`. -/
structure Progresses (start stop step : Int) (terms : List Int) (count : Nat) : Prop where
  terms_eq : terms=(List.range count).map fun k : Nat => start+k*step
  short_iff : ∀ k : Nat, k < count ↔ Short stop step (start+k*step)

namespace Progresses

theorem nil (h : ¬Short stop step start) : Progresses start stop step [] 0 where
  terms_eq := rfl
  short_iff k := ⟨nofun,fun short => absurd short (not_short_behind h k)⟩

/-- One more turn of the loop puts a term before those that follow. -/
theorem cons {terms : List Int} {count : Nat} (h : Short stop step start)
    (rest : Progresses (start+step) stop step terms count) :
    Progresses start stop step (start::terms) (count+1) := by
  have shift (k : Nat) : start+step+k*step=start+(k+1 : Nat)*step := by
    rw [Int.natCast_succ,Int.add_mul,Int.one_mul]
    omega
  refine ⟨?_,fun k => ?_⟩
  · rw [List.range_succ_eq_map,List.map_cons,List.map_map,rest.terms_eq]
    have first : start+(0 : Nat)*step=start := by simp
    rw [first]
    congr 1
    exact List.map_congr_left fun k _ => shift k
  · cases k with
    | zero => simpa using h
    | succ k => rw [Nat.succ_lt_succ_iff,rest.short_iff,shift]

end Progresses

/-- What the loop puts behind the terms that are there, in at most as many turns as it is far to `stop`. -/
theorem collect_progresses (stop step : Int64) (terms : Array Int64) (current : Int64) :
    ∃ more count, (collect stop step terms current).toList=terms.toList++more ∧
      Progresses current.toInt stop.toInt step.toInt (more.map Int64.toInt) count ∧
      count ≤ distance stop step current := by
  -- each turn shortens the distance, which pays for the term that it adds
  induction terms,current using collect.induct stop step with
  | case1 terms current short next hnext ih =>
    obtain ⟨more,count,collected,rest,bound⟩ := ih
    have sum : next.toInt=current.toInt+step.toInt := Int64.toInt_of_add? hnext
    have closer := distance_lt short hnext
    refine ⟨current::more,count+1,?_,?_,by omega⟩
    · rw [collect,dif_pos short]
      split
      · next next' hnext' =>
        cases hnext.symm.trans hnext'
        rw [collected,Array.toList_push,List.append_assoc]
        rfl
      · next hnone => cases hnext.symm.trans hnone
    · rw [sum] at rest
      exact rest.cons short
  | case2 terms current short hnone =>
    refine ⟨[current],1,?_,.cons short (.nil (not_short_of_add? hnone)),?_⟩
    · rw [collect,dif_pos short]
      split
      · next next hnext => cases hnone.symm.trans hnext
      · rw [Array.toList_push]
    · unfold Short at short
      unfold distance
      split <;> omega
  | case3 terms current reached =>
    refine ⟨[],0,?_,.nil reached,Nat.zero_le _⟩
    rw [collect,dif_neg reached,List.append_nil]

/-- A step of zero is refused. Any other gives the list of all terms `start+k*step` that are short of `stop`, computed
without bounds, from `k=0` on and each once; and no more terms are tried than it is far to `stop`. -/
theorem range_progresses (start stop step : Int64) :
    ∃ (terms : List Int64) (count : Nat),
      (range start stop step=
        if step=0 then .error (.invalidArgument "range" "step must be non-zero")
        else .ok (.list (terms.map .int))) ∧
      terms.map Int64.toInt=((List.range count).map fun k : Nat => start.toInt+k*step.toInt) ∧
      (∀ k : Nat, k < count ↔ Short stop.toInt step.toInt (start.toInt+k*step.toInt)) ∧
      count ≤ distance stop step start := by
  obtain ⟨terms,count,collected,⟨terms_eq,short_iff⟩,bound⟩ := collect_progresses stop step #[] start
  refine ⟨terms,count,?_,terms_eq,short_iff,bound⟩
  rw [range,collected]
  rfl

example : range 9223372036854775805 9223372036854775807 5=.ok (.list [.int 9223372036854775805]) := by cbv

end Value

end CallLowering
