namespace CallLowering

/-- What JavaScript text refers to: the library with `range`, and the one with the library's own
functions. -/
structure JavaScriptConfig where
  rangeLibrary : String
  runtimeLibrary : String
  deriving DecidableEq

/-- What Python text refers to: the builtin that makes ranges. -/
structure PythonConfig where
  rangeBuiltin : String
  deriving DecidableEq

/-- Does the bytecode backend use the native representations where it can? -/
structure BytecodeConfig where
  specializeNumeric : Bool
  deriving DecidableEq

structure Config where
  javaScript : JavaScriptConfig
  python : PythonConfig
  bytecode : BytecodeConfig
  deriving DecidableEq

def JavaScriptConfig.default : JavaScriptConfig := ⟨"goog.array","stencil.runtime"⟩

def PythonConfig.default : PythonConfig := ⟨"range"⟩

def BytecodeConfig.default : BytecodeConfig := ⟨true⟩

def Config.default : Config :=
  ⟨JavaScriptConfig.default,PythonConfig.default,BytecodeConfig.default⟩

end CallLowering
