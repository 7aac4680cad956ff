import CallLowering.Json.Basic
import CallLowering.Toml.Reader

namespace CallLowering.Toml

/-- How a table has come about: by a header of its own, by a header of a table below it, or by a dotted
key. -/
inductive Origin
  | header
  | implied
  | dotted
  deriving DecidableEq

/-- A node of a document: a value, a table, or an array of tables with the last one in front. -/
inductive Node
  | value (v : Json)
  | table (origin : Origin) (members : List (String × Node))
  | tables (last : List (String × Node)) (earlier : List (List (String × Node)))

abbrev Members : Type := List (String × Node)

/-- Replaces what a key stands for, or adds it. -/
def put (key : String) (n : Node) : Members → Members
  | [] => [(key,n)]
  | (k,m)::ms => if k=key then (k,n)::ms else (k,m)::put key n ms

def find? (key : String) (ms : Members) : Option Node := (ms.find? fun m => m.1==key).map (·.2)

/-- Changes the table at the end of a path of headers. Tables on the way that are not there are implied;
of an array of tables it is the last one. -/
def below (change : Members → Option Members) : Path → Members → Option Members
  | [],ms => change ms
  | k::ks,ms =>
      match find? k ms with
      | none => (below change ks []).map fun t => put k (.table .implied t) ms
      | some (.table origin t) => (below change ks t).map fun t => put k (.table origin t) ms
      | some (.tables last earlier) =>
          (below change ks last).map fun t => put k (.tables t earlier) ms
      | some (.value _) => none

/-- Adds an entry at the end of a path of dotted keys. Tables on the way belong to dotted keys, unless
they are implied by headers and the way goes on. -/
def addEntry (key : String) (v : Json) : Path → Members → Option Members
  | [],ms => if (find? key ms).isSome then none else some (put key (.value v) ms)
  | k::ks,ms =>
      match find? k ms with
      | none => (addEntry key v ks []).map fun t => put k (.table .dotted t) ms
      | some (.table .dotted t) => (addEntry key v ks t).map fun t => put k (.table .dotted t) ms
      | some (.table .implied t) =>
          if ks.isEmpty then none
          else (addEntry key v ks t).map fun t => put k (.table .implied t) ms
      | some (.tables last earlier) =>
          if ks.isEmpty then none
          else (addEntry key v ks last).map fun t => put k (.tables t earlier) ms
      | some _ => none

/-- Adds an entry under a path, which is not empty. -/
def addPath (p : Path) (v : Json) (ms : Members) : Option Members :=
  match p.getLast? with
  | some key => addEntry key v p.dropLast ms
  | none => none

/-- Defines the table with this key, which may be implied so far. -/
def openTable (key : String) (ms : Members) : Option Members :=
  match find? key ms with
  | none => some (put key (.table .header []) ms)
  | some (.table .implied t) => some (put key (.table .header t) ms)
  | some _ => none

/-- Begins a further table in the array with this key. -/
def openArrayTable (key : String) (ms : Members) : Option Members :=
  match find? key ms with
  | none => some (put key (.tables [] []) ms)
  | some (.tables last earlier) => some (put key (.tables [] (last::earlier)) ms)
  | some _ => none

mutual

/-- A node as JSON. -/
def Node.toJson : Node → Json
  | .value v => v
  | .table _ ms => .object (membersToJson ms)
  | .tables last earlier => .array ((tablesToJson earlier).reverse++[.object (membersToJson last)])

def membersToJson : Members → List (String × Json)
  | [] => []
  | (k,n)::ms => (k,n.toJson)::membersToJson ms

def tablesToJson : List Members → List Json
  | [] => []
  | t::ts => .object (membersToJson t)::tablesToJson ts

end

mutual

/-- A written value as JSON, if no key of an inline table is defined twice. A date is an object of its own
kind, with a member that no configuration knows. -/
def Literal.toJson? : Literal → Option Json
  | .string v => some (.string v)
  | .number text => some (.number text)
  | .bool v => some (.bool v)
  | .date text => some (.object [("date",.string text)])
  | .array items => (literalsToJson? items).map .array
  | .table entries => (tableMembers? entries []).map fun ms => .object (membersToJson ms)

def literalsToJson? : List Literal → Option (List Json)
  | [] => some []
  | l::ls => do
      let j ← l.toJson?
      let js ← literalsToJson? ls
      some (j::js)

/-- The members of an inline table, added to those that are there. -/
def tableMembers? : List (Path × Literal) → Members → Option Members
  | [],ms => some ms
  | (p,l)::es,ms => do
      let j ← l.toJson?
      tableMembers? es (← addPath p j ms)

end

/-- A document in the making: its tables, and the path of the one that entries go to. -/
structure Draft where
  members : Members
  current : Path

/-- Adds a line. -/
def Draft.add (d : Draft) : Line → Option Draft
  | .header p => do
      some ⟨← below (openTable (p.getLast?.getD "")) p.dropLast d.members,p⟩
  | .arrayHeader p => do
      some ⟨← below (openArrayTable (p.getLast?.getD "")) p.dropLast d.members,p⟩
  | .entry p l => do
      let j ← l.toJson?
      some {d with members := ← below (addPath p j) d.current d.members}

/-- Reads a document. -/
def parse (s : String) : Option Json := do
  let lines ← read s
  let d ← lines.foldlM Draft.add ⟨[],[]⟩
  some (.object (membersToJson d.members))

end CallLowering.Toml
