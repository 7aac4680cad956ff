import CallLowering.Config.Encoding
import CallLowering.Toml.Document
import CallLowering.Toml.Writer

namespace CallLowering.Config

/-- Reads a document. An array in the place of a section lists its settings; more than there are do not
matter. -/
def ofToml? (s : String) : Option Config := (Toml.parse s).bind (ofJson? .ignored)

/-- Writes a document with all settings. -/
def toToml (c : Config) : String :=
  "[js]\nrange_library = "++Toml.quote c.javaScript.rangeLibrary++
    "\nruntime_library = "++Toml.quote c.javaScript.runtimeLibrary++
    "\n\n[python]\nrange_builtin = "++Toml.quote c.python.rangeBuiltin++
    "\n\n[bytecode]\nspecialize_numeric = "++(if c.bytecode.specializeNumeric then "true" else "false")++
    "\n"

end CallLowering.Config
