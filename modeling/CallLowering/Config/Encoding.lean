import CallLowering.Config.Basic
import CallLowering.Json.Basic

namespace CallLowering

/-- May a record that is listed by place hold more than its fields? -/
inductive Surplus
  | refused
  | ignored
  deriving DecidableEq

/-- A record with at most this many fields, unless more are ignored. -/
def Json.section? (surplus : Surplus) (size : Nat) (j : Json) : Option Record :=
  j.record?.filter fun r => surplus=.ignored || r.fits size

def JavaScriptConfig.ofJson? (surplus : Surplus) (j : Json) : Option JavaScriptConfig := do
  let r ← j.section? surplus 2
  let rangeLibrary ← r.withDefault 0 "range_library" Json.string? default.rangeLibrary
  let runtimeLibrary ← r.withDefault 1 "runtime_library" Json.string? default.runtimeLibrary
  return ⟨rangeLibrary,runtimeLibrary⟩

def PythonConfig.ofJson? (surplus : Surplus) (j : Json) : Option PythonConfig := do
  let r ← j.section? surplus 1
  return ⟨← r.withDefault 0 "range_builtin" Json.string? default.rangeBuiltin⟩

def BytecodeConfig.ofJson? (surplus : Surplus) (j : Json) : Option BytecodeConfig := do
  let r ← j.section? surplus 1
  return ⟨← r.withDefault 0 "specialize_numeric" Json.bool? default.specializeNumeric⟩

namespace Config

/-- Reads a configuration. -/
def ofJson? (surplus : Surplus) (j : Json) : Option Config := do
  let r ← j.section? surplus 3
  let javaScript ← r.withDefault 0 "js" (JavaScriptConfig.ofJson? surplus) JavaScriptConfig.default
  let python ← r.withDefault 1 "python" (PythonConfig.ofJson? surplus) PythonConfig.default
  let bytecode ← r.withDefault 2 "bytecode" (BytecodeConfig.ofJson? surplus) BytecodeConfig.default
  return ⟨javaScript,python,bytecode⟩

def toJson (c : Config) : Json :=
  .object [
    ("js",.object [("range_library",.string c.javaScript.rangeLibrary),
      ("runtime_library",.string c.javaScript.runtimeLibrary)]),
    ("python",.object [("range_builtin",.string c.python.rangeBuiltin)]),
    ("bytecode",.object [("specialize_numeric",.bool c.bytecode.specializeNumeric)])]

end Config

end CallLowering
