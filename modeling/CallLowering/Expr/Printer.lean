import CallLowering.Expr.Basic

namespace CallLowering.Expr

/-- The text of a constant. -/
def constantText : Slot → String
  | .int64 n => Int64.text n
  | .float64 x => Decimal.text Decimal.detailed x
  | .bool b => if b then "true" else "false"
  | .boxed v => "(box "++v.text++")"

/-- Each text after a space. -/
def spaced (ss : List String) : String := ss.foldl (fun acc s => acc++" "++s) ""

mutual

def text : Expr → String
  | const slot => constantText slot
  | arg index rep => "arg"++toString index.toNat++":"++rep.text
  | readLocal index rep => "local"++toString index.toNat++":"++rep.text
  | invoke m args => "("++m.text++spaced (texts args)++")"
  | convert e target => "(convert "++target.text++" "++e.text++")"
  | box e => "(box "++e.text++")"
  | unbox e target => "(unbox "++target.text++" "++e.text++")"
  | list items => "(list"++spaced (texts items)++")"
  | bind index value body => "(let local"++toString index.toNat++" "++value.text++" "++body.text++")"
  | select c t f => "(select "++c.text++" "++t.text++" "++f.text++")"
  | compare c lhs rhs => "("++c.symbol++" "++lhs.text++" "++rhs.text++")"
  | isNull e => "(null? "++e.text++")"
  | not e => "(not "++e.text++")"

def texts : List Expr → List String
  | [] => []
  | e::es => e.text::texts es

end

end CallLowering.Expr

namespace CallLowering

def TypedExpr.text (e : TypedExpr) : String := e.expr.text++" : "++e.type.text

end CallLowering
