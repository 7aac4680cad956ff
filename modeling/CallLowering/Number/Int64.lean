namespace CallLowering.Int64

/-- The 64-bit integer nearest to `n`: integers outside the range go to its nearer end. -/
def saturate (n : Int) : Int64 :=
  .ofInt (max (-0x8000000000000000) (min n 0x7fffffffffffffff))

/-- The 64-bit integer `n`, if it is one. -/
def ofInt? (n : Int) : Option Int64 :=
  if -0x8000000000000000 ≤ n ∧ n < 0x8000000000000000 then some (.ofInt n) else none

/-- The sum, if it is a 64-bit integer. -/
def add? (m n : Int64) : Option Int64 := ofInt? (m.toInt+n.toInt)

theorem toInt_of_ofInt? {n : Int} {k : Int64} (h : ofInt? n=some k) : k.toInt=n := by
  rw [ofInt?] at h
  split at h
  · next bounds =>
    cases h
    exact Int64.toInt_ofInt_of_le bounds.1 bounds.2
  · cases h

theorem ofInt?_toInt (n : Int64) : ofInt? n.toInt=some n := by
  rw [ofInt?,if_pos ⟨n.le_toInt,n.toInt_lt⟩,Int64.ofInt_toInt]

theorem toInt_of_add? {m n k : Int64} (h : add? m n=some k) : k.toInt=m.toInt+n.toInt := toInt_of_ofInt? h

/-- The decimal text. -/
def text (n : Int64) : String := toString n.toInt

end CallLowering.Int64
