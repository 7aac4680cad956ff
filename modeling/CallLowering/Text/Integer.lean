import CallLowering.Number.Int64

namespace CallLowering.Text

/-- The value of ASCII digits, read after `n`. -/
def digitsValue? : Nat → List Char → Option Nat
  | n,[] => some n
  | n,c::cs => if c.isDigit then digitsValue? (10*n+(c.toNat - '0'.toNat)) cs else none

/-- The natural number that is written by one or more ASCII digits. -/
def natural? (cs : List Char) : Option Nat :=
  if cs.isEmpty then none else digitsValue? 0 cs

/-- The integer that is written by digits after at most one sign. -/
def integer? : List Char → Option Int
  | '+'::cs => (natural? cs).map Int.ofNat
  | '-'::cs => (natural? cs).map fun n => -(n : Int)
  | cs => (natural? cs).map Int.ofNat

/-- The 64-bit integer that is written by digits after at most one sign. -/
def int64? (cs : List Char) : Option Int64 := (integer? cs).bind Int64.ofInt?

end CallLowering.Text
