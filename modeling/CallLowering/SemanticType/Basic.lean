namespace CallLowering

/-- A static type. `unknown` is what is only known when a template is rendered; `any` is the parameter
type that takes everything. -/
inductive SemanticType
  | unknown
  | any
  | null
  | bool
  | int
  | float
  | number
  | string
  | list (element : SemanticType)
  | map (key value : SemanticType)
  deriving DecidableEq

namespace SemanticType

def isNumeric : SemanticType → Bool
  | int | float | number => true
  | _ => false

/-- Does a parameter of the first type take an argument of the second? An unknown type on either side is
given the benefit of the doubt, also inside lists and maps. -/
def accepts : SemanticType → SemanticType → Bool
  | unknown,_ => true
  | _,unknown => true
  | any,_ => true
  | number,actual => actual.isNumeric
  | list a,list b => accepts a b
  | map k v,map k' v' => accepts k k' && accepts v v'
  | expected,actual => decide (expected=actual)

/-- The annotation of a type. -/
def text : SemanticType → String
  | unknown => "?"
  | any => "any"
  | null => "null"
  | bool => "bool"
  | int => "int"
  | float => "float"
  | number => "number"
  | string => "string"
  | list element => "list<"++element.text++">"
  | map key value => "map<"++key.text++", "++value.text++">"

end SemanticType

end CallLowering
