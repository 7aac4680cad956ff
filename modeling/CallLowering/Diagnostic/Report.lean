import CallLowering.Diagnostic.Drawing

namespace CallLowering.Report

open Drawing

/-- Severity, code and message. An empty code is not shown. -/
def header (d : Diagnostic) : String :=
  let code := d.code.getD ""
  d.severity.text++(if code.isEmpty then "" else "["++code++"]")++": "++d.message++"\n"

/-- A line without the carriage return before its line end. -/
def withoutReturn (line : List Char) : List Char :=
  if line.getLast? = some '\r' then line.dropLast else line

/-- The lines of a text, each with its line end taken off; a line end at the end of the text does not begin
another. `line` is what stands before `cs` on its line, in reverse. -/
def lines (line : List Char) : List Char → List (List Char)
  | [] => if line.isEmpty then [] else [line.reverse]
  | c::cs => if c = '\n' then withoutReturn line.reverse::lines [] cs else lines (c::line) cs

/-- A note; its first line has a mark in front. -/
def note (margin : String) (s : String) : String :=
  match (lines [] s.toList).map String.ofList with
  | [] => ""
  | first::rest =>
      margin++" = "++first++"\n"++concat (rest.map fun l => margin++"   "++l++"\n")

/-- Digits of the largest line number among the ends of labels. -/
def marginWidth (es : List Excerpt) : Nat :=
  (es.flatMap Excerpt.lines).foldl (fun w n => max w (toString (n+1)).length) 0

/-- Excerpts with empty lines between them, and behind the last if notes follow. -/
def excerptsText (width : Nat) (notes : Bool) : List Excerpt → String
  | [] => ""
  | [e] => excerpt width e++if notes then border width e else ""
  | e::es => excerpt width e++border width e++excerptsText width notes es

/-- The text of a diagnostic, if the files of all its labels are there. -/
def render (files : List Source) (d : Diagnostic) : Option String := do
  let es ← excerpts files d.labels
  let width := marginWidth es
  return header d++excerptsText width (!d.notes.isEmpty) es++concat (d.notes.map (note (spaces width)))++"\n"

/-- The texts of all diagnostics of a log. -/
def renderAll (files : List Source) (l : DiagnosticLog) : Option String := do
  return concat (← l.diagnostics.mapM (render files))

end CallLowering.Report
