import CallLowering.Number.Int64

namespace CallLowering

/-- A binary64 number: a sign bit, eleven bits of exponent and fifty-two bits of fraction. -/
structure Binary64 where
  bits : UInt64
  deriving DecidableEq

namespace Binary64

/-- The quiet number that is not a number. -/
def nan : Binary64 := ⟨0x7ff8000000000000⟩

/-- How many numbers there are in a binade: one for each value of the fraction. -/
def binade : Nat := 0x10000000000000

def isNegative (x : Binary64) : Bool := decide (0x8000000000000000 ≤ x.bits.toNat)

def exponentField (x : Binary64) : Nat := x.bits.toNat/binade%2048

def fractionField (x : Binary64) : Nat := x.bits.toNat%binade

def isNaN (x : Binary64) : Bool := x.exponentField==2047 && decide (x.fractionField≠0)

def isFinite (x : Binary64) : Bool := decide (x.exponentField≠2047)

/-- The distance from zero in units of `2 ^ -1074`. The fields of an infinity give it the distance at which
a further binade would start. -/
def magnitude (x : Binary64) : Nat :=
  if x.exponentField=0 then x.fractionField
  else (binade+x.fractionField)*Nat.pow 2 (x.exponentField-1)

/-- The number itself in units of `2 ^ -1074`; both zeros have none. -/
def units (x : Binary64) : Int :=
  if x.isNegative then -(x.magnitude : Int) else x.magnitude

/-- The units in the number one. -/
def one : Nat := Nat.pow 2 1074

/-- Exponent and fraction field of the number nearest to `n` units; a tie goes to the even fraction, and
what lies beyond the largest finite number is infinite. -/
def nearestFields (n : Nat) : Nat :=
  let shift := n.log2-52
  let kept := n/Nat.pow 2 shift
  let lost := n%Nat.pow 2 shift
  let up := decide (Nat.pow 2 shift < 2*lost) || (2*lost==Nat.pow 2 shift && kept%2==1)
  min (shift*binade+kept+up.toNat) (2047*binade)

/-- The number nearest to `n` units from zero. -/
def ofMagnitude (negative : Bool) (n : Nat) : Binary64 :=
  ⟨.ofNat ((if negative then 0x8000000000000000 else 0)+nearestFields n)⟩

/-- The number nearest to an integer. -/
def ofInt (n : Int) : Binary64 := ofMagnitude (decide (n < 0)) (n.natAbs*one)

/-- The order of two numbers: none if either is not a number, and the two zeros are equal. -/
def order (x y : Binary64) : Option Ordering :=
  if x.isNaN || y.isNaN then none else some (compare x.units y.units)

/-- Equality as numbers: it identifies the zeros and separates what is not a number from itself. -/
def equals (x y : Binary64) : Bool := x.order y==some .eq

/-- The magnitude divided by that of one, rounded away from zero. -/
def roundOut (n : Nat) : Nat := (n+(one-1))/one

/-- The nearest integer below, with the sign of the operand. -/
def floor (x : Binary64) : Binary64 :=
  if x.isNaN then x
  else if x.isNegative then ofMagnitude true (roundOut x.magnitude*one)
  else ofMagnitude false (x.magnitude/one*one)

/-- The nearest integer above, with the sign of the operand. -/
def ceil (x : Binary64) : Binary64 :=
  if x.isNaN then x
  else if x.isNegative then ofMagnitude true (x.magnitude/one*one)
  else ofMagnitude false (roundOut x.magnitude*one)

/-- The integer part as a 64-bit integer: what is out of range goes to the nearer end, and what is not a
number to zero. -/
def toInt64 (x : Binary64) : Int64 :=
  if x.isNaN then 0 else Int64.saturate (x.units.tdiv one)

/-- Has the number no fractional part? Infinities have none to speak of and do not count. -/
def isWhole (x : Binary64) : Bool := x.isFinite && x.magnitude%one==0

/-- The larger number; one that is not a number gives way to the other. -/
def max (x y : Binary64) : Binary64 :=
  if x.isNaN then y else if y.isNaN then x else if x.units < y.units then y else x

/-- The smaller number; one that is not a number gives way to the other. -/
def min (x y : Binary64) : Binary64 :=
  if x.isNaN then y else if y.isNaN then x else if y.units < x.units then y else x

end Binary64

end CallLowering
