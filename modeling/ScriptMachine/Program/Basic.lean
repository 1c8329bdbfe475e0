import ScriptMachine.Program.Instruction
import ScriptMachine.Program.Namespace

/-!
# Programs

A program is one list of instructions for all functions, the tree that says where each function
starts, and the names of the globals in the order of their slots.
-/

namespace ScriptMachine

/-- What compilation produces, and what an image holds. -/
structure Program where
  instructions : Array Instruction
  namespaces : NamespaceNode
  /-- The names of the globals, in the order of their slots. -/
  globals : List String
  metadata : Dictionary String

namespace Program

/-- The entry of a function. -/
def lookup? (program : Program) (path : List String) (name : String) : Option FunctionEntry :=
  program.namespaces.lookup? path name

def size (program : Program) : Nat := program.instructions.size

end Program

end ScriptMachine
