import CallLowering.Text.Integer
import CallLowering.Toml.Lexical

namespace CallLowering.Toml

/-- Characters of numbers, dates, times and truth values. -/
def isWordChar (c : Char) : Bool := isKeyChar c || c == '+' || c == '.' || c == ':'

/-- Digits, with single underscores between them. -/
def isGrouped (isDigit : Char → Bool) : List Char → Bool
  | [] => false
  | [c] => isDigit c
  | c :: '_' :: cs => isDigit c && isGrouped isDigit cs
  | c::cs => isDigit c && isGrouped isDigit cs

/-- A decimal integer without sign: no zero in front of other digits. -/
def isDecimal : List Char → Bool
  | ['0'] => true
  | '0'::_ => false
  | cs => isGrouped Char.isDigit cs

/-- The text after one sign, if there is any. -/
def dropSign : List Char → List Char
  | '+'::cs => cs
  | '-'::cs => cs
  | cs => cs

def isOctalDigit (c : Char) : Bool := decide ('0' ≤ c ∧ c ≤ '7')

def isBinaryDigit (c : Char) : Bool := c == '0' || c == '1'

/-- The number that digits write in this base; underscores are passed over. -/
def valueIn (base : Nat) (cs : List Char) : Nat :=
  (cs.filter (·≠ '_')).foldl (fun n c => base*n+hexValue c) 0

/-- An integer of sixty-four bits. Other bases than ten take no sign. -/
def isInteger : List Char → Bool
  | '0' :: 'x' :: cs => isGrouped isHexDigit cs && decide (valueIn 16 cs < 0x8000000000000000)
  | '0' :: 'o' :: cs => isGrouped isOctalDigit cs && decide (valueIn 8 cs < 0x8000000000000000)
  | '0' :: 'b' :: cs => isGrouped isBinaryDigit cs && decide (valueIn 2 cs < 0x8000000000000000)
  | cs => isDecimal (dropSign cs) && (Text.int64? (cs.filter (·≠ '_'))).isSome

/-- Does `digits * 10 ^ exponent` go beyond the largest float? -/
def overflows (digits : Nat) (exponent : Int) : Bool :=
  let size := (Nat.toDigits 10 digits).length+exponent
  if digits=0 ∨ size < 300 then false
  else if 320 < size then true
  else decide ((Nat.pow 2 1024-Nat.pow 2 970)*Nat.pow 10 (-exponent).toNat ≤ digits*Nat.pow 10 exponent.toNat)

/-- Splits at the first character that meets the test, which is dropped. -/
def splitAt? (p : Char → Bool) (cs : List Char) : Option (List Char × List Char) :=
  match cs.dropWhile fun c => !p c with
  | _::rest => some (cs.takeWhile fun c => !p c,rest)
  | [] => none

/-- A float with a fraction, an exponent or both, without sign, and whether it is too large. -/
def isPlainFloat (positive : Bool) (cs : List Char) : Bool :=
  let (mantissa,exponent?) :=
    match splitAt? (fun c => c == 'e' || c == 'E') cs with
    | some (m,e) => (m,some e)
    | none => (cs,none)
  let (whole,fraction?) :=
    match splitAt? (·== '.') mantissa with
    | some (w,f) => (w,some f)
    | none => (mantissa,none)
  let exponentOk := exponent?.all fun e => isGrouped Char.isDigit (dropSign e)
  let fractionOk := fraction?.all (isGrouped Char.isDigit)
  let fraction := (fraction?.getD []).filter (·≠ '_')
  let exponent := ((exponent?.bind fun e => Text.integer? (e.filter (·≠ '_'))).getD 0)-fraction.length
  (exponent?.isSome || fraction?.isSome) && isDecimal whole && fractionOk && exponentOk &&
    !(positive && overflows (valueIn 10 (whole++fraction)) exponent)

def isFloat (cs : List Char) : Bool :=
  let rest := dropSign cs
  rest=="inf".toList || rest=="nan".toList || isPlainFloat (cs.head? != some '-') rest

/-- The number written by exactly this many digits in front, and the text after it. -/
def fixed? (count : Nat) (cs : List Char) : Option (Nat × List Char) :=
  let ds := cs.take count
  if ds.length=count then (Text.natural? ds).map fun n => (n,cs.drop count) else none

/-- The days of a month. -/
def daysIn (year month : Nat) : Nat :=
  if month=2 then if year%4=0 ∧ (year%100≠0 ∨ year%400=0) then 29 else 28
  else if month∈[4,6,9,11] then 30 else 31

/-- The text after a date. -/
def afterDate? (cs : List Char) : Option (List Char) := do
  let (year,cs) ← fixed? 4 cs
  let (month,cs) ← fixed? 2 (← after? ['-'] cs)
  let (day,cs) ← fixed? 2 (← after? ['-'] cs)
  if 1 ≤ month ∧ month ≤ 12 ∧ 1 ≤ day ∧ day ≤ daysIn year month then some cs else none

/-- The text after a time of day, which may have a fraction of a second. -/
def afterTime? (cs : List Char) : Option (List Char) := do
  let (hour,cs) ← fixed? 2 cs
  let (minute,cs) ← fixed? 2 (← after? [':'] cs)
  let (second,cs) ← fixed? 2 (← after? [':'] cs)
  if hour ≤ 23 ∧ minute ≤ 59 ∧ second ≤ 60 then
    match cs with
    | '.'::c::cs => if c.isDigit then some (cs.dropWhile Char.isDigit) else none
    | cs => some cs
  else none

/-- Nothing, or a difference from universal time. -/
def isOffset (cs : List Char) : Bool :=
  match cs with
  | [] | ['Z'] | ['z'] => true
  | c::cs =>
      (c == '+' || c == '-') &&
        match fixed? 2 cs with
        | some (hour,':'::cs) =>
            match fixed? 2 cs with
            | some (minute,[]) => decide (hour ≤ 23 ∧ minute ≤ 59)
            | _ => false
        | _ => false

/-- A time with a difference from universal time. -/
def isZonedTime (cs : List Char) : Bool := (afterTime? cs).any isOffset

/-- A date, a date with a time, or a time. -/
def isDate (cs : List Char) : Bool :=
  match afterDate? cs with
  | some [] => true
  | some (c::cs) => (c == 'T' || c == 't') && isZonedTime cs
  | none => afterTime? cs==some []

/-- Is the word a date with nothing after it? -/
def isBareDate (cs : List Char) : Bool := afterDate? cs==some []

/-- What a word stands for. -/
def ofWord? (cs : List Char) : Option Literal :=
  if cs="true".toList then some (.bool true)
  else if cs="false".toList then some (.bool false)
  else if isDate cs then some (.date (String.ofList cs))
  else if isInteger cs || isFloat cs then some (.number (String.ofList cs))
  else none

/-- A number, a date, a time or a truth value. A date and a time may be set apart by a space. -/
def scalar : Reader Literal := fun s =>
  let word := s.takeWhile isWordChar
  let rest := s.dropWhile isWordChar
  let spaced : Option (Literal × List Char) :=
    match rest with
    | ' '::s =>
        let time := s.takeWhile isWordChar
        if isBareDate word && isZonedTime time then
          some (.date (String.ofList (word ++ ' '::time)),s.dropWhile isWordChar)
        else none
    | _ => none
  spaced.or ((ofWord? word).map fun l => (l,rest))

end CallLowering.Toml
