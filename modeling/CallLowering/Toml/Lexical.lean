import CallLowering.Number.Int64

namespace CallLowering.Toml

/-- A path of keys. -/
abbrev Path : Type := List String

/-- A written value. Numbers and dates are kept as text; inline tables as their entries. -/
inductive Literal
  | string (value : String)
  | number (text : String)
  | bool (value : Bool)
  | date (text : String)
  | array (items : List Literal)
  | table (entries : List (Path × Literal))

/-- A line of a document: the header of a table or of a further table in an array, or an entry. -/
inductive Line
  | header (path : Path)
  | arrayHeader (path : Path)
  | entry (path : Path) (value : Literal)

/-- A reader takes what it reads off the front of a text. -/
abbrev Reader (α : Type) : Type := List Char → Option (α × List Char)

def isSpace (c : Char) : Bool := c == ' ' || c == '\t'

/-- Characters of a key without quotes. -/
def isKeyChar (c : Char) : Bool := c.isAlphanum || c == '-' || c == '_'

/-- May the character stand in a comment or between quotes as it is? Controls other than the tab may
not. -/
def isPlain (c : Char) : Bool := c == '\t' || decide (0x20 ≤ c.toNat ∧ c.toNat≠0x7f)

def isHexDigit (c : Char) : Bool :=
  c.isDigit || decide ('a' ≤ c ∧ c ≤ 'f') || decide ('A' ≤ c ∧ c ≤ 'F')

def hexValue (c : Char) : Nat :=
  if c.isDigit then c.toNat-48 else if 'a' ≤ c then c.toNat-87 else c.toNat-55

def skipSpace (s : List Char) : List Char := s.dropWhile isSpace

/-- The text after a line end. -/
def lineEnd? : List Char → Option (List Char)
  | '\n'::s => some s
  | '\r' :: '\n' :: s => some s
  | _ => none

/-- The text after the rest of a line: spaces, a comment, and the line end or the end of the document. -/
def restOfLine? (s : List Char) : Option (List Char) :=
  let s :=
    match skipSpace s with
    | '#'::s => s.dropWhile isPlain
    | s => s
  if s.isEmpty then some [] else lineEnd? s

/-- The text after this one. -/
def after? : List Char → List Char → Option (List Char)
  | [],s => some s
  | t::ts,c::s => if t=c then after? ts s else none
  | _::_,[] => none

/-- The character with this code point. Surrogates have none. -/
def character? (n : Nat) : Option Char := if n.isValidChar then some (.ofNat n) else none

/-- A character that is escaped by a letter. -/
def simpleEscape? : Char → Option Char
  | 'b' => some '\x08'
  | 't' => some '\t'
  | 'n' => some '\n'
  | 'f' => some '\x0c'
  | 'r' => some '\r'
  | '"' => some '"'
  | '\\' => some '\\'
  | _ => none

/-- A code point in exactly this many hexadecimal digits. -/
def codePoint? (count : Nat) (s : List Char) : Option (Char × List Char) :=
  let ds := s.take count
  if ds.length=count ∧ ds.all isHexDigit then
    (character? (ds.foldl (fun n c => 16*n+hexValue c) 0)).map fun c => (c,s.drop count)
  else none

/-- What a backslash stands for. -/
def escape? : Reader Char
  | 'u'::s => codePoint? 4 s
  | 'U'::s => codePoint? 8 s
  | c::s => (simpleEscape? c).map fun e => (e,s)
  | [] => none

/-- Puts a character in front of what is read further on. -/
def consTo (c : Char) (r : Option (List Char × List Char)) : Option (List Char × List Char) :=
  r.map fun (cs,s) => (c::cs,s)

/-- The rest of a string between double quotes. `fuel` bounds its length. -/
def basicBody : Nat → Reader (List Char)
  | 0,_ => none
  | fuel+1,s =>
      match s with
      | '"'::s => some ([],s)
      | '\\'::s => (escape? s).bind fun (c,s) => consTo c (basicBody fuel s)
      | c::s => if isPlain c then consTo c (basicBody fuel s) else none
      | [] => none

/-- The rest of a string between single quotes: nothing is escaped. -/
def literalBody : Reader (List Char)
  | '\''::s => some ([],s)
  | c::s => if isPlain c then consTo c (literalBody s) else none
  | [] => none

/-- The text after spaces and line ends. -/
def skipBlankLines : List Char → List Char
  | ' '::s => skipBlankLines s
  | '\t'::s => skipBlankLines s
  | '\n'::s => skipBlankLines s
  | '\r' :: '\n' :: s => skipBlankLines s
  | s => s

/-- The text behind a line end and all that is blank after it, if only spaces come before the line end. -/
def joinLines? (s : List Char) : Option (List Char) := (lineEnd? (skipSpace s)).map skipBlankLines

/-- The end of a string of several lines. Up to two more quotes belong to the string. -/
def closing? (q : Char) : List Char → Option (List Char × List Char)
  | a::b::c::d::e::s =>
      if [a,b,c,d,e].all (·==q) then some ([q,q],s)
      else if [a,b,c,d].all (·==q) then some ([q],e::s)
      else if [a,b,c].all (·==q) then some ([],d::e::s) else none
  | [a,b,c,d] =>
      if [a,b,c,d].all (·==q) then some ([q],[])
      else if [a,b,c].all (·==q) then some ([],[d]) else none
  | [a,b,c] => if [a,b,c].all (·==q) then some ([],[]) else none
  | _ => none

/-- The rest of a string of several lines. Line ends become line feeds; between double quotes there are
escapes, and a backslash at the end of a line joins it with what follows. -/
def linesBody (q : Char) : Nat → Reader (List Char)
  | 0,_ => none
  | fuel+1,s =>
      match closing? q s with
      | some r => some r
      | none =>
          match lineEnd? s with
          | some s => consTo '\n' (linesBody q fuel s)
          | none =>
              match s with
              | c::s =>
                  if c = '\\' ∧ q = '"' then
                    match joinLines? s with
                    | some s => linesBody q fuel s
                    | none => (escape? s).bind fun (c,s) => consTo c (linesBody q fuel s)
                  else if isPlain c then consTo c (linesBody q fuel s) else none
              | [] => none

/-- A line end straight after the opening quotes does not count. -/
def dropFirstLineEnd (s : List Char) : List Char := (lineEnd? s).getD s

/-- A string on one line, after its first quote. -/
def simpleString (q : Char) (s : List Char) : Option (String × List Char) :=
  (if q = '"' then basicBody (s.length+1) s else literalBody s).map fun (cs,s) => (String.ofList cs,s)

/-- A string, after its first quote. -/
def quotedString (q : Char) (s : List Char) : Option (String × List Char) :=
  match after? [q,q] s with
  | some s =>
      (linesBody q (s.length+1) (dropFirstLineEnd s)).map fun (cs,s) => (String.ofList cs,s)
  | none => simpleString q s

/-- One key. -/
def simpleKey : Reader String
  | '"'::s => simpleString '"' s
  | '\''::s => simpleString '\'' s
  | s =>
      let word := s.takeWhile isKeyChar
      if word.isEmpty then none else some (String.ofList word,s.dropWhile isKeyChar)

/-- Nesting of values and length of paths stay below this. -/
def nestingLimit : Nat := 80

/-- Keys with dots between them, and spaces around. -/
def keyPath : Nat → Reader Path
  | 0,_ => none
  | fuel+1,s =>
      (simpleKey (skipSpace s)).bind fun (k,s) =>
      match skipSpace s with
      | '.'::s => (keyPath fuel s).map fun (ks,s) => (k::ks,s)
      | s => some ([k],s)

/-- A path of keys that is not too long. -/
def path (s : List Char) : Option (Path × List Char) := keyPath (nestingLimit-1) s

end CallLowering.Toml
