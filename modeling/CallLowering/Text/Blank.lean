namespace CallLowering.Text

/-- The ranges of code points with the property White_Space. -/
def blankRanges : List (Nat × Nat) :=
  [(0x9,0xd),(0x20,0x20),(0x85,0x85),(0xa0,0xa0),(0x1680,0x1680),(0x2000,0x200a),(0x2028,0x2029),
    (0x202f,0x202f),(0x205f,0x205f),(0x3000,0x3000)]

/-- Does the code point lie in one of the ranges? They ascend, so the first that does not end below it
decides. -/
def inRanges : List (Nat × Nat) → Char → Bool
  | [],_ => false
  | (first,last)::rest,c => if last < c.toNat then inRanges rest c else decide (first ≤ c.toNat)

/-- Is the character white space? -/
def isBlank (c : Char) : Bool := inRanges blankRanges c

/-- No visible ASCII character is white space. -/
theorem not_isBlank_of_between {c : Char} (low : 0x20 < c.toNat) (high : c.toNat < 0x80) : isBlank c=false := by
  have control : 0xd < c.toNat := by omega
  have next : ¬0x85 < c.toNat := by omega
  have outside : ¬0x85 ≤ c.toNat := by omega
  simp [isBlank,blankRanges,inRanges,control,next,low,outside]

/-- The text without the white space at its two ends. -/
def trim (cs : List Char) : List Char :=
  ((cs.dropWhile isBlank).reverse.dropWhile isBlank).reverse

end CallLowering.Text
