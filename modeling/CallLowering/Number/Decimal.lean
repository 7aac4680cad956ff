import CallLowering.Number.Binary64

namespace CallLowering.Decimal

/-- The number of decimal digits of `n`, none for zero. -/
def length (n : Nat) : Nat := if n=0 then 0 else (Nat.toDigits 10 n).length

/-- A decimal number: `digits` is read as an integer and scaled by a power of ten. -/
structure Digits where
  digits : Nat
  exponent : Int

/-- The position of the leading digit of `num / den`: the exponent of the power of ten below it. -/
def leading (num den : Nat) : Int :=
  if den ≤ num then length (num/den)-1
  else -(length ((den+num-1)/num-1) : Int)

/-- Drops the zeros at the end of the digits. -/
def dropZeros : Nat → Digits → Digits
  | 0,d => d
  | fuel+1,d => if d.digits%10=0 ∧ d.digits≠0 then dropZeros fuel ⟨d.digits/10,d.exponent+1⟩ else d

/-- An interval of numbers that read back as `num / den`: from `low / den` to `high / den`, with or
without its ends. -/
structure Interval where
  num : Nat
  den : Nat
  low : Nat
  high : Nat
  closed : Bool

def Interval.holds (i : Interval) (n : Nat) : Bool :=
  if i.closed then decide (i.low ≤ n) && decide (n ≤ i.high) else decide (i.low < n) && decide (n < i.high)

/-- The multiple of `10 ^ k` that reads back and is nearest, among the two neighbours of the number on that
grid; a tie goes up. -/
def Interval.onGrid (i : Interval) (k : Int) : Option Nat :=
  let grow := Nat.pow 10 (-k).toNat
  let grid := i.den*Nat.pow 10 k.toNat
  let scaled : Interval := ⟨i.num*grow,i.den,i.low*grow,i.high*grow,i.closed⟩
  let below := scaled.num/grid
  let down := scaled.holds (below*grid)
  let up := scaled.holds ((below+1)*grid)
  if up && (!down || decide (grid ≤ 2*(scaled.num-below*grid))) then some (below+1)
  else if down then some below else none

/-- Tries one digit, two digits and so on. -/
def Interval.search (i : Interval) (top : Int) : Nat → Nat → Digits
  | 0,_ => ⟨0,0⟩
  | fuel+1,n =>
      let k := top-n+1
      match i.onGrid k with
      | some d => dropZeros (n+1) ⟨d,k⟩
      | none => i.search top fuel (n+1)

/-- The fewest digits that read back as a positive finite number, and of those the nearest. Seventeen
always suffice. -/
def shortest (x : Binary64) : Digits :=
  let n := 4*x.magnitude
  let gap := 4*Nat.pow 2 (x.exponentField-1)
  let below := if x.fractionField=0 ∧ x.exponentField≠0 then gap/4 else gap/2
  let i : Interval := ⟨n,4*Binary64.one,n-below,n+gap/2,x.fractionField%2==0⟩
  i.search (leading i.num i.den) 17 1

/-- How digits are laid out: which positions of the leading digit are written without an exponent, and
whether a whole number written so keeps a fraction. -/
structure Layout where
  positional : Int → Bool
  fraction : Bool

/-- Never an exponent, and no fraction on a whole number. -/
def plain : Layout := ⟨fun _ => true,false⟩

/-- An exponent below `10 ^ -4` and from `10 ^ 16` on, and a fraction on every whole number. -/
def detailed : Layout := ⟨fun top => decide (-4 ≤ top) && decide (top < 16),true⟩

/-- Digits without an exponent. -/
def positional (fraction : Bool) (ds : List Char) (exponent : Int) : String :=
  let zeros (n : Nat) := List.replicate n '0'
  if 0 ≤ exponent then
    String.ofList (ds++zeros exponent.toNat++if fraction then ['.','0'] else [])
  else
    let places := (-exponent).toNat
    let ds := zeros (places+1-ds.length)++ds
    String.ofList (ds.take (ds.length-places) ++ '.'::ds.drop (ds.length-places))

/-- Digits with an exponent: one digit, the others after a point, and the power of ten. -/
def scientific (ds : List Char) (top : Int) : String :=
  String.ofList (ds.take 1++if ds.length ≤ 1 then [] else '.'::ds.drop 1)++"e"++toString top

/-- The text of a number. -/
def text (layout : Layout) (x : Binary64) : String :=
  if x.isNaN then "NaN"
  else
    let sign := if x.isNegative then "-" else ""
    if !x.isFinite then sign++"inf"
    else if x.magnitude=0 then sign++positional layout.fraction ['0'] 0
    else
      let d := shortest x
      let ds := Nat.toDigits 10 d.digits
      let top := d.exponent+ds.length-1
      if layout.positional top then sign++positional layout.fraction ds d.exponent
      else sign++scientific ds top

end CallLowering.Decimal
