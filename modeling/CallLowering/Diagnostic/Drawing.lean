import CallLowering.Diagnostic.Excerpt
import CallLowering.Text.Columns

namespace CallLowering

/-- A character of a line with its first byte, counted from the start of the line, and its columns. -/
structure Cell where
  place : Nat
  char : Char
  width : Nat

namespace Cell

/-- The cells of characters; a tab goes on to the next multiple of four columns. -/
def ofChars : Nat → Nat → List Char → List Cell
  | _,_,[] => []
  | place,column,c::cs =>
      let width := if c = '\t' then 4-column%4 else Text.columns c
      ⟨place,c,width⟩::ofChars (place+c.utf8Size) (column+width) cs

def behind (c : Cell) : Nat := c.place+c.char.utf8Size

end Cell

namespace Drawing

def repeated (n : Nat) (c : Char) : String := String.ofList (List.replicate n c)

def spaces (n : Nat) : String := repeated n ' '

def concat (ss : List String) : String := ss.foldl (·++·) ""

/-- The characters of a line without line ends and null characters behind them. -/
def shown (cs : List Char) : List Char :=
  (cs.reverse.dropWhile fun c => c = '\n' || c = '\r' || c.toNat==0).reverse

/-- The bytes of white space before the text of a line. -/
def indent (cs : List Char) : Nat := (cs.takeWhile Text.isBlank).foldl (fun n c => n+c.utf8Size) 0

/-- The line itself, with tabs as spaces. -/
def lineText (cells : List Cell) : String :=
  concat (cells.map fun c => if c.char = '\t' then spaces c.width else c.char.toString)

/-- Does the mark have bytes from `start` up to `stop`? -/
def covers (m : Mark) (start stop : Nat) : Bool := max m.start start < min m.stop stop

/-- The cells of a line and the place behind it, where there is room for one caret. -/
def withRoom (cells : List Cell) : List (Nat × Nat × Nat) :=
  let behind := cells.foldl (fun _ c => c.behind) 0
  cells.map (fun c => (c.place,c.behind,c.width))++[(behind,behind+1,1)]

/-- Carets below marked bytes, and spaces as far as marks reach. -/
def carets (marks : List Mark) (cells : List Cell) : String :=
  let reach := marks.foldl (fun n m => max n m.stop) 0
  concat ((withRoom cells).map fun (start,stop,width) =>
    if marks.any fun m => covers m start stop then repeated width '^'
    else if start < reach then spaces width else "")

/-- The number of the last mark that reaches as far as all before it, unless it has no message. -/
def farthest : Nat → Nat → Option Nat → List Mark → Option Nat
  | _,_,found,[] => found
  | n,reach,found,m::ms =>
      farthest (n+1) (max reach m.stop)
        (if reach ≤ m.stop then (if m.message.isEmpty then none else some n) else found) ms

/-- The marks without the one with this number. -/
def others (marks : List Mark) : Option Nat → List Mark
  | none => marks
  | some n => marks.eraseIdx n

/-- The mark whose message stands beside the carets: the farthest one, if no other overlaps it. -/
def trailing (marks : List Mark) : Option Nat := do
  let n ← farthest 0 0 none marks
  let m ← marks[n]?
  if (marks.eraseIdx n).any fun o => covers m o.start o.stop then none else some n

/-- Bars below the starts of marks whose messages hang from them. -/
def bars (reach : Nat) (hanging : List Mark) (cells : List Cell) : String :=
  concat (cells.map fun c =>
    let bar := hanging.any fun m => c.place ≤ m.start && m.start < c.behind
    (if bar then "│" else "")++if c.place ≤ reach then spaces (c.width-if bar then 1 else 0) else "")

/-- The lines below a line with marks on it. -/
def belowMarks (marks : List Mark) (cells : List Cell) : List String :=
  if marks.isEmpty then []
  else
    let beside := trailing marks
    let message := ((beside.bind (marks[·]?)).map fun m => " "++m.message).getD ""
    let hanging := (others marks beside).filter fun m => !m.message.isEmpty
    let reach := marks.foldl (fun n m => max n m.start) 0
    let first := carets marks cells++message
    if hanging.isEmpty then [first]
    else first::bars reach hanging cells::hanging.reverse.map fun m =>
      bars reach hanging (cells.takeWhile fun c => c.place < m.start)++m.message

/-- What stands left of a line for a stretch. It may open right there, if only white space is before it. -/
def besideText (indent : Nat) : Option Edge → String
  | some (.opens place) => if place ≤ indent then " ╭" else "  "
  | some _ => " │"
  | none => "  "

/-- What stands left of the lines below for a stretch. -/
def besideMarks : Option Edge → String
  | some .passes => " │"
  | some (.closes _ _) => " │"
  | _ => "  "

/-- What stands left of the rule that opens or closes stretch `current`, from stretch `n` on; `drawn` tells
whether the rule has begun. -/
def besideRule (current : Nat) : Bool → Nat → List (Option Edge) → String
  | _,_,[] => ""
  | drawn,n,e::es =>
      let line := if drawn then "─" else " "
      let past : Bool :=
        match e with
        | some .passes => true
        | some (.opens _) => decide (n < current)
        | some (.closes _ _) => decide (current < n)
        | none => false
      let corner :=
        match e with
        | some (.closes _ _) => " ╰"
        | _ => " ╭"
      if past then line++"│"++besideRule current drawn (n+1) es
      else if n=current then corner++besideRule current true (n+1) es
      else line++line++besideRule current drawn (n+1) es

/-- The rules that open and close stretches, one on a line; `n` counts the stretches. -/
def rules (cs : List Char) (cells : List Cell) (edges : List (Option Edge)) :
    Nat → List (Option Edge) → List String
  | _,[] => []
  | n,e::es =>
      let rule (stop : Nat) : String :=
        besideRule n false 0 edges++
          concat ((cells.filter fun c => c.place < stop).map fun c => repeated c.width '─')++"^"
      let rest := rules cs cells edges (n+1) es
      match e with
      | some (.opens place) => if place ≤ indent cs then rest else rule (place+1)::rest
      | some (.closes place message) =>
          (rule place++if message.isEmpty then "" else " "++message)::rest
      | _ => rest

/-- A line beside the border, in a margin for numbers of `width` digits. -/
def bordered (width : Nat) (text : String) : String := spaces width++" │"++text++"\n"

/-- A line of a file with its number, and all that stands below it. -/
def line (width : Nat) (e : Excerpt) (marks : List Mark) (n : Nat) : String :=
  let cs := shown (e.source.lineChars n)
  let cells := Cell.ofChars 0 0 cs
  let edges := e.edgesOn n
  let number := toString (n+1)
  let gutter := concat (edges.map besideMarks)
  spaces (width-number.length)++number++" │"++concat (edges.map (besideText (indent cs)))++" "++
    lineText cells++"\n"++
    concat ((belowMarks marks cells).map fun text => bordered width (gutter++" "++text))++
    concat ((rules cs cells edges 0 edges).map (bordered width))

/-- Lines in ascending order. A line left out between two is shown all the same, dots stand for more. -/
def body (width : Nat) (e : Excerpt) : List Nat → String
  | [] => ""
  | [n] => line width e (e.marksOn n) n
  | n::m::ns =>
      let gap :=
        if m=n+1 then ""
        else if m=n+2 then line width e [] (n+1)
        else spaces width++" ·"++concat ((e.edgesOn n).map besideMarks)++"\n"
      line width e (e.marksOn n) n++gap++body width e (m::ns)

/-- The empty line before and behind an excerpt. -/
def border (width : Nat) (e : Excerpt) : String := bordered width (spaces (2*e.stretches.length))

/-- The excerpt: its place, an empty line, and the lines. -/
def excerpt (width : Nat) (e : Excerpt) : String :=
  let n := e.source.lineIndex e.start
  spaces width++" ┌─ "++e.source.name++":"++toString (n+1)++":"++toString (e.source.column n e.start)++"\n"++
    border width e++body width e e.lines

end Drawing

end CallLowering
