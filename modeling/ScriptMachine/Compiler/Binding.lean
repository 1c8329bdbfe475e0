import ScriptMachine.Host.Registry

/-!
# Binding to a host

A compiled program names what it needs of the host. Where the registry leaves no choice, an
instruction is bound: a call of a function with one overload to that overload, an access to a type
that is registered to that type. An instruction that is bound already stays as it is, so binding a
second time to the same registry changes nothing.
-/

namespace ScriptMachine

namespace Instruction

/-- The instruction bound to a registry, if it is not bound yet and the registry leaves no
choice. -/
def bind? (registry : Registry) : Instruction → Option Instruction
  | .callHost name argc none =>
      match registry.overloads name with
      | [only] => some (.callHost name argc (some only.reference))
      | _ => none
  | .callStatic typeName name argc false =>
      if (registry.type? typeName).isSome then some (.callStatic typeName name argc true) else none
  | .loadStatic typeName name false =>
      if (registry.type? typeName).isSome then some (.loadStatic typeName name true) else none
  | _ => none

end Instruction

namespace Program

/-- The program with every instruction bound that can be. -/
def bind (program : Program) (registry : Registry) : Program :=
  { program with
    instructions := program.instructions.map fun instruction =>
      (instruction.bind? registry).getD instruction }

/-- How many instructions binding to a registry changes. -/
def bindableCount (program : Program) (registry : Registry) : Nat :=
  program.instructions.toList.countP fun instruction => (instruction.bind? registry).isSome

end Program

end ScriptMachine
