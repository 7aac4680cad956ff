namespace CallLowering

structure Source where
  name : String
  text : String

namespace Source

/-- The characters with the bytes at which they start, counted from `place`. -/
def placed : Nat → List Char → List (Nat × Char)
  | _,[] => []
  | place,c::cs => (place,c)::placed (place+c.utf8Size) cs

/-- The bytes at which lines start: the first one, and those after line ends. -/
def lineStarts (s : Source) : List Nat :=
  0::((placed 0 s.text.toList).filter fun p => p.2 == '\n').map fun p => p.1+1

/-- The line, counted from zero, of a byte; what lies behind the text is on its last line. -/
def lineIndex (s : Source) (offset : Nat) : Nat := (s.lineStarts.countP fun p => decide (p ≤ offset))-1

/-- The first byte of a line. -/
def lineStart (s : Source) (line : Nat) : Nat := s.lineStarts.getD line s.text.utf8ByteSize

/-- The byte behind a line and its line end. -/
def lineStop (s : Source) (line : Nat) : Nat := s.lineStarts.getD (line+1) s.text.utf8ByteSize

/-- The characters of a line, with the line end. -/
def lineChars (s : Source) (line : Nat) : List Char :=
  let start := s.lineStart line
  let stop := s.lineStop line
  ((placed 0 s.text.toList).filter fun p => decide (start ≤ p.1) && decide (p.1 < stop)).map (·.2)

/-- The column, counted from one, of a byte in a line: one more than the characters that end before it. -/
def column (s : Source) (line offset : Nat) : Nat :=
  let reach := min offset (s.lineStop line)
  ((placed (s.lineStart line) (s.lineChars line)).countP fun p => decide (p.1+p.2.utf8Size ≤ reach))+1

end Source

end CallLowering
