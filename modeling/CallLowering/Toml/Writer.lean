import CallLowering.Json.Printer

namespace CallLowering.Toml

/-- The longest run of a character. -/
def longestRun (q : Char) : Nat → Nat → List Char → Nat
  | _,best,[] => best
  | run,best,c::cs =>
      if c=q then longestRun q (run+1) (max best (run+1)) cs else longestRun q 0 best cs

/-- Is there a control character that only an escape can write? -/
def needsEscape (cs : List Char) : Bool :=
  cs.any fun c => c ≠ '\t' && c ≠ '\n' && (decide (c.toNat < 0x20) || c.toNat==0x7f)

/-- A control character by its code point. -/
def controlEscape (c : Char) : String := "\\u"++(Json.hex4 c.toNat).toUpper

/-- A character between double quotes. -/
def escapeChar (c : Char) : String :=
  if c = '"' then "\\\"" else if c = '\\' then "\\\\" else if c = '\n' then "\\n" else if c = '\r' then "\\r"
  else if c = '\t' then "\\t" else if c.toNat=8 then "\\b" else if c.toNat=12 then "\\f"
  else if c.toNat < 0x20 ∨ c.toNat=0x7f then controlEscape c
  else c.toString

/-- Text with tabs written as escapes. -/
def escapeTabs (cs : List Char) : String :=
  cs.foldl (fun acc c => acc++if c = '\t' then "\\t" else c.toString) ""

/-- Text between three double quotes. Line ends stand as they are, and of three quotes in a row the third is
escaped, so that they do not end the text; `run` quotes stand right before it. -/
def escapeLines (run : Nat) : List Char → List Char
  | [] => []
  | c::cs =>
      if c = '"' then if run=2 then '\\'::c::escapeLines 0 cs else c::escapeLines (run+1) cs
      else (if c = '\n' then [c] else (escapeChar c).toList)++escapeLines 0 cs

/-- The text of a string: between double quotes, single quotes, three double or three single quotes if all
its characters can stand there as they are, and escaped otherwise, between three double quotes if there are
line ends. Text with line ends starts on a line of its own. -/
def quote (s : String) : String :=
  let cs := s.toList
  let control := needsEscape cs
  let backslash := cs.contains '\\'
  let newline := cs.contains '\n'
  let doubles := longestRun '"' 0 0 cs
  let singles := longestRun '\'' 0 0 cs
  let lead := if newline then "\n" else ""
  if !control && !backslash && doubles==0 && !newline then "\""++escapeTabs cs++"\""
  else if !control && singles==0 && !newline then "'"++s++"'"
  else if !control && !backslash && decide (doubles ≤ 2) then "\"\"\""++lead++escapeTabs cs++"\"\"\""
  else if !control && decide (singles ≤ 2) then "'''"++lead++s++"'''"
  else if newline then "\"\"\"\n"++String.ofList (escapeLines 0 cs)++"\"\"\""
  else cs.foldl (fun acc c => acc++escapeChar c) "\""++"\""

end CallLowering.Toml
