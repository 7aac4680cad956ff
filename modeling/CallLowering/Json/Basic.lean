namespace CallLowering

/-- JSON as the library reads and writes it. A number is kept by its text: nothing here computes with one. -/
inductive Json
  | null
  | bool (value : Bool)
  | number (text : String)
  | string (value : String)
  | array (items : List Json)
  | object (members : List (String × Json))

namespace Json

/-- The member of an object with this name. -/
def member? (members : List (String × Json)) (name : String) : Option Json :=
  (members.find? fun m => m.1==name).map (·.2)

def string? : Json → Option String
  | .string s => some s
  | _ => none

def bool? : Json → Option Bool
  | .bool b => some b
  | _ => none

/-- How a record is written: as an object, or as the array of its fields in the order of declaration. -/
inductive Record
  | named (members : List (String × Json))
  | listed (items : List Json)

def record? : Json → Option Record
  | .object members => some (.named members)
  | .array items => some (.listed items)
  | _ => none

/-- The field with this name at this place of the record. -/
def Record.field? (r : Record) (place : Nat) (name : String) : Option Json :=
  match r with
  | .named members => member? members name
  | .listed items => items[place]?

/-- A field that has to be there. -/
def Record.required {α : Type} (r : Record) (place : Nat) (name : String) (read : Json → Option α) : Option α :=
  (r.field? place name).bind read

/-- A field that has a value of its own when it is left out. -/
def Record.withDefault {α : Type} (r : Record) (place : Nat) (name : String) (read : Json → Option α)
    (default : α) : Option α :=
  match r.field? place name with
  | some j => read j
  | none => some default

/-- Does the record hold at most this many fields, if it lists them by place? -/
def Record.fits (r : Record) (size : Nat) : Bool :=
  match r with
  | .named _ => true
  | .listed items => decide (items.length ≤ size)

/-- An alternative by name: either the bare name, or an object with the name as its one member. -/
def variant? : Json → Option (String × Option Json)
  | .string name => some (name,none)
  | .object [(name,payload)] => some (name,some payload)
  | _ => none

end Json

end CallLowering
