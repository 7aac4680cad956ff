import CallLowering.Text.Unseen

namespace CallLowering.Text

/-- A character inside quotes. -/
def quoteChar (c : Char) : String :=
  if c = '"' then "\\\"" else if c = '\\' then "\\\\" else if c = '\n' then "\\n" else if c = '\r' then "\\r"
  else if c = '\t' then "\\t" else if c.toNat=0 then "\\0"
  else if isUnseen c then "\\u\x7b"++String.ofList (Nat.toDigits 16 c.toNat)++"\x7d"
  else c.toString

/-- The text between double quotes. -/
def quote (s : String) : String :=
  s.toList.foldl (fun acc c => acc++quoteChar c) "\""++"\""

end CallLowering.Text
