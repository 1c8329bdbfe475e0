import ScriptMachine.Program.Instruction

/-!
# Faults

A run that cannot go on ends in a fault. A fault is a cause; its wording is in
`RuntimeFault.message` alone. A host callable may fail with a fault of its own choice or with a
plain message, and a fault that leaves an engine carries the failing instruction and the functions
that were active.
-/

namespace ScriptMachine

/-- Why a run cannot go on. -/
inductive RuntimeFault where
  | hostFunctionNotFound (name : String)
  | memberNotFound (owner member : String)
  | privateMemberAccess (owner member : String)
  | indexerNotFound (typeName : String)
  | indexOutOfRange (index : Int) (length : Nat)
  | operatorNotFound (operator : String) (operands : List String)
  | ambiguousOverload (name : String) (candidates : List String)
  | noMatchingOverload (name : String) (arguments : List String)
  | functionNotFound (name : String)
  | argumentCount (function : String) (expected found : Nat)
  | notCallable (typeName : String)
  | notIterable (typeName : String)
  | typeMismatch (expected found : String)
  | unresolvedType (name : String)
  | divisionByZero
  | zeroForStep
  | stackOverflow (capacity : Nat)
  | notResumable (state : String)
  | globalNotFound (name : String)
  | unknown (message : String)
deriving DecidableEq

/-- The name of the kind of a fault. -/
def RuntimeFault.kind : RuntimeFault → String
  | .hostFunctionNotFound _ => "HostFunctionNotFound"
  | .memberNotFound _ _ => "MemberNotFound"
  | .privateMemberAccess _ _ => "PrivateMemberAccess"
  | .indexerNotFound _ => "IndexerNotFound"
  | .indexOutOfRange _ _ => "IndexOutOfRange"
  | .operatorNotFound _ _ => "OperatorNotFound"
  | .ambiguousOverload _ _ => "AmbiguousOverload"
  | .noMatchingOverload _ _ => "NoMatchingOverload"
  | .functionNotFound _ => "FunctionNotFound"
  | .argumentCount _ _ _ => "ArgumentCount"
  | .notCallable _ => "NotCallable"
  | .notIterable _ => "NotIterable"
  | .typeMismatch _ _ => "TypeMismatch"
  | .unresolvedType _ => "UnresolvedType"
  | .divisionByZero => "DivisionByZero"
  | .zeroForStep => "ZeroForStep"
  | .stackOverflow _ => "StackOverflow"
  | .notResumable _ => "NotResumable"
  | .globalNotFound _ => "GlobalNotFound"
  | .unknown _ => "Unknown"

/-- The text of a fault. -/
def RuntimeFault.message : RuntimeFault → String
  | .hostFunctionNotFound name => "host function '" ++ name ++ "' not found"
  | .memberNotFound owner member => "member '" ++ member ++ "' not found on '" ++ owner ++ "'"
  | .privateMemberAccess owner member =>
      "member '" ++ member ++ "' of '" ++ owner ++ "' is private"
  | .indexerNotFound typeName => "type '" ++ typeName ++ "' has no indexer"
  | .indexOutOfRange index length =>
      "index " ++ toString index ++ " out of range for length " ++ toString length
  | .operatorNotFound operator operands =>
      "operator '" ++ operator ++ "' is not defined for (" ++ ", ".intercalate operands ++ ")"
  | .ambiguousOverload name candidates =>
      "ambiguous call to '" ++ name ++ "': " ++ " | ".intercalate candidates
  | .noMatchingOverload name arguments =>
      "no overload of '" ++ name ++ "' accepts (" ++ ", ".intercalate arguments ++ ")"
  | .functionNotFound name => "function '" ++ name ++ "' not found"
  | .argumentCount function expected found =>
      "function '" ++ function ++ "' expects " ++ toString expected ++ " arguments but received " ++
        toString found
  | .notCallable typeName => "value of type '" ++ typeName ++ "' is not callable"
  | .notIterable typeName => "value of type '" ++ typeName ++ "' is not iterable"
  | .typeMismatch expected found => "expected " ++ expected ++ " but found " ++ found
  | .unresolvedType name => "type '" ++ name ++ "' is not registered"
  | .divisionByZero => "division by zero"
  | .zeroForStep => "'for' step is zero"
  | .stackOverflow capacity => "stack capacity of " ++ toString capacity ++ " slots exceeded"
  | .notResumable state => "engine is " ++ state ++ " and cannot be resumed"
  | .globalNotFound name => "global '" ++ name ++ "' is not registered"
  | .unknown message => message

/-- How a host callable or a host iterator fails. -/
inductive HostError where
  /-- A fault that the host chose. -/
  | fault (cause : RuntimeFault)
  /-- Any other failure, with its text. -/
  | plain (text : String)
deriving DecidableEq

namespace HostError

/-- The fault that a failure of the host becomes. -/
def toFault : HostError → RuntimeFault
  | .fault cause => cause
  | .plain text => .unknown text

def message (error : HostError) : String := error.toFault.message

end HostError

/-- A fault as it leaves an engine. -/
structure FaultReport where
  fault : RuntimeFault
  /-- The failing instruction, if one was being carried out. -/
  instruction : Option Instruction
  ip : Nat
  /-- The active functions, innermost first. -/
  debugStack : List DebugContext
deriving DecidableEq

namespace FaultReport

/-- The report of a fault before any instruction. -/
def ofFault (fault : RuntimeFault) : FaultReport := ⟨fault, none, 0, []⟩

/-- The text of a report: the fault, the instruction and the active functions, innermost first. -/
def render (report : FaultReport) : String :=
  let place :=
    match report.instruction with
    | none => ""
    | some instruction =>
        "\n    instruction " ++ Text.fourDigits report.ip ++ ": " ++ instruction.render
  let frames := report.debugStack.map fun context => "\n    at " ++ context.render
  "runtime error: " ++ report.fault.message ++ place ++ String.join frames

end FaultReport

end ScriptMachine
