import CallLowering.Chunk.Basic

namespace CallLowering

namespace Expr

mutual

/-- The number of instructions that a tree becomes. -/
def codeSize : Expr → Nat
  | const _ => 1
  | arg _ _ => 1
  | readLocal _ _ => 1
  | invoke _ args => codeSizes args+1
  | convert e _ => e.codeSize+1
  | box e => e.codeSize+1
  | unbox e _ => e.codeSize+1
  | list items => codeSizes items+1
  | bind _ value body => value.codeSize+1+body.codeSize
  | select c t f => c.codeSize+1+t.codeSize+1+f.codeSize
  | compare _ lhs rhs => lhs.codeSize+rhs.codeSize+1
  | isNull e => e.codeSize+1
  | not e => e.codeSize+1

def codeSizes : List Expr → Nat
  | [] => 0
  | e::es => e.codeSize+codeSizes es

end

end Expr

/-- Code in the making. -/
structure Emitter where
  code : Array Instr
  constants : Array Slot
  methods : Array Method
  maxLocals : UInt16

namespace Emitter

def empty : Emitter := ⟨#[],#[],#[],0⟩

def push (s : Emitter) (i : Instr) : Emitter := {s with code := s.code.push i}

/-- A number as an operand of sixteen bits. -/
def operand16 (n : Nat) (message : String) : Except LowerError UInt16 :=
  if n < 0x10000 then .ok (.ofNat n) else .error (.internal message)

/-- A number as an operand of thirty-two bits. -/
def operand32 (n : Nat) (message : String) : Except LowerError UInt32 :=
  if n < 0x100000000 then .ok (.ofNat n) else .error (.internal message)

/-- Loads a constant from the pool, where equal constants share a place. -/
def pushConst (s : Emitter) (slot : Slot) : Except LowerError Emitter :=
  match s.constants.findIdx? fun c => c.equals slot with
  | some n => do return s.push (.const (← operand32 n "constant pool overflow"))
  | none => do
      let n ← operand32 s.constants.size "constant pool overflow"
      return {s with code := s.code.push (.const n),constants := s.constants.push slot}

/-- Calls a method from the pool, where equal methods share a place. -/
def pushInvoke (s : Emitter) (m : Method) (count : UInt16) : Except LowerError Emitter :=
  match s.methods.findIdx? fun c => c==m with
  | some n => do return s.push (.invoke (← operand32 n "method pool overflow") count)
  | none => do
      let n ← operand32 s.methods.size "method pool overflow"
      return {s with code := s.code.push (.invoke n count),methods := s.methods.push m}

/-- Stores into a local. The count of locals stops at the largest number that can be written. -/
def pushStore (s : Emitter) (index : UInt16) : Emitter :=
  let needed : UInt16 := if index.toNat+1 < 0x10000 then index+1 else index
  {s with
    code := s.code.push (.storeLocal index)
    maxLocals := if s.maxLocals < needed then needed else s.maxLocals}

mutual

/-- Adds the code of a tree. -/
def emit (s : Emitter) : Expr → Except LowerError Emitter
  | .const slot => s.pushConst slot
  | .arg index _ => .ok (s.push (.loadArg index))
  | .readLocal index _ => .ok (s.push (.loadLocal index))
  | .invoke m args => do
      let s ← s.emitAll args
      s.pushInvoke m (← operand16 args.length "too many call arguments")
  | .convert e target => do return (← s.emit e).push (.convert target)
  | .box e => do return (← s.emit e).push .box
  | .unbox e target => do return (← s.emit e).push (.unbox target)
  | .list items => do
      let s ← s.emitAll items
      return s.push (.newList (← operand16 items.length "list literal too long"))
  | .bind index value body => do
      let s ← s.emit value
      (s.pushStore index).emit body
  | .select c t f => do
      if t.rep≠f.rep then
        throw (.internal ("select branches disagree: "++t.rep.text++" vs "++f.rep.text))
      let s ← s.emit c
      let otherwise := s.code.size+1+t.codeSize+1
      let s ← (s.push (.jumpIfFalse (.ofNat otherwise))).emit t
      let _ ← operand32 otherwise "chunk too large"
      let done := otherwise+f.codeSize
      let s ← (s.push (.jump (.ofNat done))).emit f
      let _ ← operand32 done "chunk too large"
      return s
  | .compare c lhs rhs => do
      let s ← s.emit lhs
      let s ← s.emit rhs
      return s.push (.compare c)
  | .isNull e => do return (← s.emit e).push .isNull
  | .not e => do return (← s.emit e).push .not

/-- Adds the code of trees, one after the other. -/
def emitAll (s : Emitter) : List Expr → Except LowerError Emitter
  | [] => .ok s
  | e::es =>
      match s.emit e with
      | .ok s => s.emitAll es
      | .error e => .error e

end

end Emitter

/-- The chunk of a tree. -/
def Expr.emit (e : Expr) : Except LowerError Chunk := do
  let s ← Emitter.empty.emit e
  return ⟨s.code,s.constants,s.methods,s.maxLocals,e.rep⟩

end CallLowering
