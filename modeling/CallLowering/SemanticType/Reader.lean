import CallLowering.SemanticType.Basic
import CallLowering.Text.Blank

namespace CallLowering.SemanticType

/-- How far a reader of annotations has come. Either it stands before the text `rest`, having found `found`
(nothing, if it gave up there), or it has fallen inside a character: it passes white space byte by byte,
and is lost in white space that takes more than one. -/
inductive Reading (α : Type)
  | reached (found : Option α) (rest : List Char)
  | lost

/-- Does the character take a single byte? -/
def isSingleByte (c : Char) : Bool := decide (c.toNat < 0x80)

/-- The text after white space, or nothing if the reader is lost in it. -/
def skipBlank : List Char → Option (List Char)
  | [] => some []
  | c::cs => if Text.isBlank c then if isSingleByte c then skipBlank cs else none else some (c::cs)

/-- The characters of a keyword. -/
def isWordChar (c : Char) : Bool := c.isAlphanum || c == '?'

/-- The type that a keyword names by itself. -/
def ofKeyword? (word : List Char) : Option SemanticType :=
  match String.ofList word with
  | "?" => some unknown
  | "any" => some any
  | "null" => some null
  | "bool" => some bool
  | "int" => some int
  | "float" => some float
  | "number" => some number
  | "string" => some string
  | _ => none

/-- Goes on after `token`, which must come next. -/
def expect (token : Char) (s : List Char) (next : List Char → Reading SemanticType) :
    Reading SemanticType :=
  match skipBlank s with
  | none => .lost
  | some (c::cs) => if c=token then next cs else .reached none (c::cs)
  | some [] => .reached none []

/-- Goes on after a type, which must come next. -/
def Reading.bind (r : Reading SemanticType) (next : SemanticType → List Char → Reading SemanticType) :
    Reading SemanticType :=
  match r with
  | .reached (some t) rest => next t rest
  | r => r

/-- Reads a type of at most this nesting. -/
def readType : Nat → List Char → Reading SemanticType
  | 0,s => .reached none s
  | depth+1,s =>
      match skipBlank s with
      | none => .lost
      | some s =>
          let word := s.takeWhile isWordChar
          let s := s.dropWhile isWordChar
          if word="list".toList then
            expect '<' s fun s => (readType depth s).bind fun t s =>
            expect '>' s fun s => .reached (some (list t)) s
          else if word="map".toList then
            expect '<' s fun s => (readType depth s).bind fun k s =>
            expect ',' s fun s => (readType depth s).bind fun v s =>
            expect '>' s fun s => .reached (some (map k v)) s
          else .reached (ofKeyword? word) s

/-- What comes of an annotation: a type, the verdict that it is none, or a reader lost inside a
character. -/
inductive Parsed
  | type (t : SemanticType)
  | malformed
  | lost

/-- Reads an annotation. White space after it is passed in any case, also behind the place where the reader
gave up. Every level of nesting takes a character at least, so the text has no more levels than
characters. -/
def parse (written : String) : Parsed :=
  let s := written.toList
  match readType (s.length+1) s with
  | .lost => .lost
  | .reached found rest =>
      match skipBlank rest,found with
      | none,_ => .lost
      | some [],some t => .type t
      | _,_ => .malformed

end CallLowering.SemanticType
