import CallLowering.Toml.Scalar

namespace CallLowering.Toml

/-- The text after white space, line ends and comments, which may stand between the items of an array. -/
def skipLines : Nat → List Char → Option (List Char)
  | 0,_ => none
  | fuel+1,s =>
      match skipSpace s with
      | '#'::s => (lineEnd? (s.dropWhile isPlain)).bind (skipLines fuel)
      | s =>
          match lineEnd? s with
          | some s => skipLines fuel s
          | none => some s

mutual

/-- A value that may hold this many more levels of values. `fuel` bounds the steps. -/
def value (levels : Nat) : Nat → Reader Literal
  | 0,_ => none
  | fuel+1,s =>
      match s with
      | '"'::s => (quotedString '"' s).map fun (v,s) => (.string v,s)
      | '\''::s => (quotedString '\'' s).map fun (v,s) => (.string v,s)
      | '['::s =>
          if levels=0 then none
          else (items (levels-1) fuel s).map fun (vs,s) => (.array vs,s)
      | '\x7b'::s =>
          if levels=0 then none
          else
            match skipSpace s with
            | '\x7d'::s => some (.table [],s)
            | s => (entries (levels-1) fuel s).map fun (es,s) => (.table es,s)
      | s => scalar s

/-- The items of an array and its end. A comma may follow the last item. -/
def items (levels : Nat) : Nat → Reader (List Literal)
  | 0,_ => none
  | fuel+1,s => do
      match ← skipLines (s.length+1) s with
      | ']'::s => some ([],s)
      | s =>
          let (v,s) ← value levels fuel s
          match ← skipLines (s.length+1) s with
          | ']'::s => some ([v],s)
          | ','::s => (items levels fuel s).map fun (vs,s) => (v::vs,s)
          | _ => none

/-- The entries of an inline table and its end, all on one line. -/
def entries (levels : Nat) : Nat → Reader (List (Path × Literal))
  | 0,_ => none
  | fuel+1,s => do
      let (p,s) ← path s
      let s ← after? ['='] s
      let (v,s) ← value levels fuel (skipSpace s)
      match skipSpace s with
      | '\x7d'::s => some ([(p,v)],s)
      | ','::s => (entries levels fuel s).map fun (es,s) => ((p,v)::es,s)
      | _ => none

end

/-- One line, without what may follow on it. -/
def line : Reader Line
  | '[' :: '[' :: s => do
      let (p,s) ← path s
      some (.arrayHeader p,← after? [']',']'] s)
  | '['::s => do
      let (p,s) ← path s
      some (.header p,← after? [']'] s)
  | s => do
      let (p,s) ← path s
      let s ← after? ['='] s
      let (v,s) ← value (nestingLimit-1) (2*s.length+2) (skipSpace s)
      some (.entry p v,s)

/-- All lines; `fuel` bounds their number. -/
def lines : Nat → List Char → Option (List Line)
  | 0,_ => none
  | fuel+1,s =>
      match skipSpace s with
      | [] => some []
      | '#'::s => (restOfLine? ('#'::s)).bind (lines fuel)
      | s =>
          match lineEnd? s with
          | some s => lines fuel s
          | none => do
              let (l,s) ← line s
              let ls ← lines fuel (← restOfLine? s)
              some (l::ls)

/-- The lines of a document. A byte order mark at its start is passed over. -/
def read (s : String) : Option (List Line) :=
  let cs :=
    match s.toList with
    | '\ufeff'::cs => cs
    | cs => cs
  lines (cs.length+1) cs

end CallLowering.Toml
