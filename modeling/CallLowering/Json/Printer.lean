import CallLowering.Json.Basic

namespace CallLowering.Json

/-- Four hexadecimal digits. -/
def hex4 (n : Nat) : String :=
  let ds := Nat.toDigits 16 n
  String.ofList (List.replicate (4-ds.length) '0'++ds)

/-- A character inside a string: only what JSON forbids there is escaped. -/
def escapeChar (c : Char) : String :=
  if c = '"' then "\\\"" else if c = '\\' then "\\\\" else if c = '\n' then "\\n" else if c = '\r' then "\\r"
  else if c = '\t' then "\\t" else if c.toNat=8 then "\\b" else if c.toNat=12 then "\\f"
  else if c.toNat < 0x20 then "\\u"++hex4 c.toNat
  else c.toString

def quote (s : String) : String :=
  s.toList.foldl (fun acc c => acc++escapeChar c) "\""++"\""

def indent (depth : Nat) : String := String.ofList (List.replicate (2*depth) ' ')

mutual

/-- The text of a value whose first line stands at this depth. -/
def render (depth : Nat) : Json → String
  | .null => "null"
  | .bool b => if b then "true" else "false"
  | .number text => text
  | .string s => quote s
  | .array [] => "[]"
  | .array js => "[\n"++",\n".intercalate (renderItems (depth+1) js)++"\n"++indent depth++"]"
  | .object [] => "\x7b\x7d"
  | .object ms =>
      "\x7b\n"++",\n".intercalate (renderMembers (depth+1) ms)++"\n"++indent depth++"\x7d"

def renderItems (depth : Nat) : List Json → List String
  | [] => []
  | j::js => (indent depth++render depth j)::renderItems depth js

def renderMembers (depth : Nat) : List (String × Json) → List String
  | [] => []
  | (name,j)::ms => (indent depth++quote name++": "++render depth j)::renderMembers depth ms

end

/-- The text of a document. -/
def pretty (j : Json) : String := render 0 j

end CallLowering.Json
