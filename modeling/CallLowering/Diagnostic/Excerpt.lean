import CallLowering.Diagnostic.Basic
import CallLowering.Diagnostic.Source

namespace CallLowering

/-- A label within one line. It marks at least one byte; bytes are counted from the start of the line. -/
structure Mark where
  line : Nat
  start : Nat
  stop : Nat
  message : String

/-- A label from a byte of one line to a byte of another. -/
structure Stretch where
  first : Nat
  start : Nat
  last : Nat
  stop : Nat
  message : String

/-- What a stretch does on a line: it opens or closes at a byte, or goes past. -/
inductive Edge
  | opens (place : Nat)
  | passes
  | closes (place : Nat) (message : String)

/-- What it does on this line, if it is there. -/
def Stretch.edge? (s : Stretch) (line : Nat) : Option Edge :=
  if line=s.first then some (.opens s.start)
  else if line=s.last then some (.closes s.stop s.message)
  else if s.first < line ∧ line < s.last then some .passes
  else none

/-- The lines on which it opens and closes, the three after the first, and the one before the last. -/
def Stretch.lines (s : Stretch) : List Nat :=
  s.first::s.last::([s.first+1,s.first+2,s.first+3,s.last-1].filter fun n => s.first < n && n < s.last)

/-- The marked parts of a file, and the first marked byte. -/
structure Excerpt where
  source : Source
  start : Nat
  marks : List Mark
  stretches : List Stretch

namespace Excerpt

/-- Puts a mark among others of its line, ordered by their bytes; of those with the same bytes the last stays
last. -/
def insertMark (m : Mark) : List Mark → List Mark
  | [] => [m]
  | n::ms =>
      let below := n.start < m.start ∨ (n.start=m.start ∧ n.stop < m.stop)
      let twin := ms.head?.any fun o => o.start=m.start && o.stop=m.stop
      if below ∨ twin then n::insertMark m ms else m::n::ms

/-- Adds what a label marks. -/
def add (e : Excerpt) (l : SourceLocation) (message : String) : Excerpt :=
  let first := e.source.lineIndex l.start
  let last := e.source.lineIndex l.stop
  let start := l.start-e.source.lineStart first
  let stop := l.stop-e.source.lineStart last
  let e := {e with start := min e.start l.start}
  if first=last then {e with marks := e.marks++[⟨first,start,max stop (start+1),message⟩]}
  else {e with stretches := e.stretches++[⟨first,start,last,stop,message⟩]}

/-- The excerpt for one file of a list, with the labels that are in that file. -/
def ofLabels (source : Source) (ls : List Label) : Excerpt :=
  let start := ls.foldl (fun n l => min n l.location.start) ((ls.head?.map fun l => l.location.start).getD 0)
  ls.foldl (fun e l => e.add l.location l.message) ⟨source,start,[],[]⟩

/-- The lines to show, in ascending order. -/
def lines (e : Excerpt) : List Nat :=
  ((e.marks.map Mark.line++e.stretches.flatMap Stretch.lines).mergeSort).eraseDups

/-- The marks on a line, ordered by their bytes. -/
def marksOn (e : Excerpt) (line : Nat) : List Mark :=
  (e.marks.filter fun m => m.line=line).foldl (fun ms m => insertMark m ms) []

/-- What each stretch does on a line. -/
def edgesOn (e : Excerpt) (line : Nat) : List (Option Edge) := e.stretches.map fun s => s.edge? line

end Excerpt

/-- The files that labels name, each once, in the order in which they are named first. -/
def labelledFiles (ls : List Label) : List Nat := (ls.map fun l => l.location.file).eraseDups

/-- The excerpts for a list of labels, if all their files are there. -/
def excerpts (files : List Source) (ls : List Label) : Option (List Excerpt) :=
  (labelledFiles ls).mapM fun n =>
    (files[n]?).map fun source => Excerpt.ofLabels source (ls.filter fun l => l.location.file=n)

end CallLowering
