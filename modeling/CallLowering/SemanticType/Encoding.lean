import CallLowering.Json.Basic
import CallLowering.SemanticType.Basic

namespace CallLowering.SemanticType

def toJson : SemanticType → Json
  | unknown => .string "Unknown"
  | any => .string "Any"
  | null => .string "Null"
  | bool => .string "Bool"
  | int => .string "Int"
  | float => .string "Float"
  | number => .string "Number"
  | string => .string "String"
  | list element => .object [("List",element.toJson)]
  | map key value => .object [("Map",.array [key.toJson,value.toJson])]

/-- The type that an alternative without a payload names. -/
def ofName? : String → Option SemanticType
  | "Unknown" => some unknown
  | "Any" => some any
  | "Null" => some null
  | "Bool" => some bool
  | "Int" => some int
  | "Float" => some float
  | "Number" => some number
  | "String" => some string
  | _ => none

/-- Reads a type. An alternative without a payload may also be written as an object with a null. -/
def ofJson? : Json → Option SemanticType
  | .string name => ofName? name
  | .object [(name,.null)] => ofName? name
  | .object [("List",element)] => (ofJson? element).map list
  | .object [("Map",.array [key,value])] => do
      let k ← ofJson? key
      let v ← ofJson? value
      some (map k v)
  | _ => none

end CallLowering.SemanticType
