import CallLowering.Expr.Basic

namespace CallLowering

/-- An instruction. Targets of jumps are places in the code. -/
inductive Instr
  | const (index : UInt32)
  | loadArg (index : UInt16)
  | loadLocal (index : UInt16)
  | storeLocal (index : UInt16)
  | invoke (method : UInt32) (count : UInt16)
  | convert (target : Rep)
  | box
  | unbox (target : Rep)
  | newList (count : UInt16)
  | jump (target : UInt32)
  | jumpIfFalse (target : UInt32)
  | compare (comparison : Comparison)
  | isNull
  | not
  deriving DecidableEq

structure Chunk where
  code : Array Instr
  constants : Array Slot
  methods : Array Method
  maxLocals : UInt16
  result : Rep

namespace Comparison

/-- The name in a listing. -/
def listing : Comparison → String
  | lt => "Lt"
  | le => "Le"
  | gt => "Gt"
  | ge => "Ge"
  | eq => "Eq"
  | ne => "Ne"

end Comparison

namespace Instr

/-- An instruction by itself, with its operands in parentheses. -/
def listing : Instr → String
  | const n => "Const("++toString n.toNat++")"
  | loadArg n => "LoadArg("++toString n.toNat++")"
  | loadLocal n => "LoadLocal("++toString n.toNat++")"
  | storeLocal n => "StoreLocal("++toString n.toNat++")"
  | invoke m n =>
      "Invoke \x7b method: "++toString m.toNat++", argc: "++toString n.toNat++" \x7d"
  | convert target => "Convert("++target.listing++")"
  | box => "Box"
  | unbox target => "Unbox("++target.listing++")"
  | newList n => "NewList("++toString n.toNat++")"
  | jump n => "Jump("++toString n.toNat++")"
  | jumpIfFalse n => "JumpIfFalse("++toString n.toNat++")"
  | compare c => "Compare("++c.listing++")"
  | isNull => "IsNull"
  | not => "Not"

end Instr

namespace Chunk

/-- The text of an instruction in its chunk: constants and methods are shown themselves, or by their index
if the pool does not reach so far. -/
def instrText (c : Chunk) : Instr → String
  | .const n =>
      match c.constants[n.toNat]? with
      | some slot => "const "++slot.listing
      | none => "const #"++toString n.toNat
  | .invoke m n =>
      let target :=
        match c.methods[m.toNat]? with
        | some m => m.text
        | none => "#"++toString m.toNat
      "invoke "++target++" ("++toString n.toNat++" args)"
  | i => i.listing

/-- The place of an instruction, in four digits at least. -/
def placeText (n : Nat) : String :=
  let ds := Nat.toDigits 10 n
  String.ofList (List.replicate (4-ds.length) '0'++ds)

/-- One line for the chunk and one for each instruction. -/
def text (c : Chunk) : String :=
  let head := "; chunk -> "++c.result.text++" (locals: "++toString c.maxLocals.toNat++")\n"
  (c.code.foldl (fun (acc,n) i => (acc++placeText n++"  "++c.instrText i++"\n",n+1)) (head,0)).1

end Chunk

end CallLowering
