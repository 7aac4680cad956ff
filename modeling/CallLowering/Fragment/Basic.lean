import CallLowering.Text.Blank
import CallLowering.Text.Integer

namespace CallLowering

/-- A rank in a table of operators: the higher, the tighter. The highest is that of calls, literals and
groups. -/
structure Precedence where
  rank : UInt8
  deriving DecidableEq

namespace Precedence

def atomic : Precedence := ⟨255⟩

/-- The next rank; after the highest there is none. -/
def tighter (p : Precedence) : Precedence := if p=atomic then p else ⟨p.rank+1⟩

def text (p : Precedence) : String := if p=atomic then "atomic" else toString p.rank.toNat

end Precedence

/-- How operators of one rank group. -/
inductive Associativity
  | left
  | right
  | neither
  deriving DecidableEq

/-- A binary operator, or one that stands before its operand. -/
structure Operator where
  symbol : String
  precedence : Precedence
  associativity : Associativity
  deriving DecidableEq

namespace Operator

/-- The rank that the left operand needs. -/
def lhsFloor (o : Operator) : Precedence :=
  if o.associativity=.left then o.precedence else o.precedence.tighter

/-- The rank that the right operand needs. -/
def rhsFloor (o : Operator) : Precedence :=
  if o.associativity=.right then o.precedence else o.precedence.tighter

end Operator

structure Fragment where
  text : String
  precedence : Precedence
  deriving DecidableEq

namespace Fragment

def atom (text : String) : Fragment := ⟨text,.atomic⟩

/-- The text to put where this rank is needed. -/
def within (f : Fragment) (floor : Precedence) : String :=
  if f.precedence.rank < floor.rank then "("++f.text++")" else f.text

def binary (o : Operator) (lhs rhs : Fragment) : Fragment :=
  ⟨lhs.within o.lhsFloor++" "++o.symbol++" "++rhs.within o.rhsFloor,o.precedence⟩

/-- Would the two texts run together into a doubled sign? -/
def signsMeet (symbol operand : String) : Bool :=
  match symbol.toList.getLast?,operand.toList with
  | some a,b::_ => a==b && (a == '-' || a == '+')
  | _,_ => false

/-- An operator before its operand; two equal signs are kept apart. -/
def unary (o : Operator) (operand : Fragment) : Fragment :=
  let inner := operand.within o.precedence
  ⟨o.symbol++(if signsMeet o.symbol inner then " " else "")++inner,o.precedence⟩

/-- A call with these texts between its parentheses. -/
def callText (callee : String) (parts : List String) : Fragment :=
  atom (callee++"("++", ".intercalate parts++")")

/-- A call whose arguments need this rank. -/
def call (callee : String) (args : List Fragment) (floor : Precedence) : Fragment :=
  callText callee (args.map fun a => a.within floor)

/-- The text between a pair of parentheses, or all of it if it does not stand in one. -/
def stripGroup : List Char → List Char
  | '('::cs => if cs.getLast?=some ')' then cs.dropLast else '('::cs
  | cs => cs

/-- The integer that the fragment spells, by itself or between one pair of parentheses. -/
def integer? (f : Fragment) : Option Int64 :=
  Text.int64? (stripGroup (Text.trim f.text.toList))

/-- The text of an integer. The sign of a negative one binds like the operator of this rank. -/
def ofInt (negation : Precedence) (n : Int64) : Fragment :=
  if n.toInt < 0 then ⟨Int64.text n,negation⟩ else atom (Int64.text n)

end Fragment

end CallLowering
