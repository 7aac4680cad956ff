import CallLowering.Capability

namespace CallLowering.Library

variable {α : Type}

/-- Calls are checked before they are lowered, so a wrong number of arguments is an internal error here. -/
def wrongCount (function : String) (actual : Nat) (expected : String) : LowerError :=
  .internal ("'"++function++"' lowered with "++toString actual++" argument(s), expected "++expected)

/-- The only argument. -/
def one (function : String) : List α → Except LowerError α
  | [a] => .ok a
  | args => .error (wrongCount function args.length "1")

/-- The two arguments. -/
def two (function : String) : List α → Except LowerError (α × α)
  | [a,b] => .ok (a,b)
  | args => .error (wrongCount function args.length "2")

/-- Are there one, two or three arguments? -/
def upToThree (function : String) (args : List α) : Except LowerError Unit :=
  if 1 ≤ args.length ∧ args.length ≤ 3 then .ok ()
  else .error (wrongCount function args.length "1 to 3")

end CallLowering.Library
