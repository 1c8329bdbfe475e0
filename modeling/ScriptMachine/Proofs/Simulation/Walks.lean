import ScriptMachine.Proofs.Balance.Runs

/-!
# Walks

A walk is a machine carrying out instructions until it gets somewhere; what it yields on the way is
added to what has been yielded before. Between two instructions nothing else happens: after a yield
the machine goes on with the store as it is.

A machine is alive if it belongs to a run of a compiled program. Only of such machines it is known
that their closures are the program's own.
-/

namespace ScriptMachine

namespace Surroundings

/-- A machine carries out its next instruction with a result. -/
def Steps (surroundings : Surroundings) (machine : Machine) (result : StepResult) : Prop :=
  ∃ instruction, surroundings.program.instructions[machine.ip]? = some instruction ∧
    (step surroundings instruction).run { machine with ip := machine.ip + 1 } = result

/-- A machine gets to be another one. Beside each stands what has been yielded. -/
inductive Goes (surroundings : Surroundings) :
    Machine → List Value → Machine → List Value → Prop
  | stay {machine yielded} : Goes surroundings machine yielded machine yielded
  | next {machine middle later before after}
      (steps : surroundings.Steps machine (.ok .next, middle))
      (goes : Goes surroundings middle before later after) :
      Goes surroundings machine before later after
  | yields {machine middle later value before after}
      (steps : surroundings.Steps machine (.ok (.yielded value), middle))
      (goes : Goes surroundings middle (before ++ [value]) later after) :
      Goes surroundings machine before later after

/-- A machine of a run. -/
structure Alive (surroundings : Surroundings) (capacity : Nat) (machine : Machine) : Prop where
  charted : ∃ chart, surroundings.program.Charted chart
  bounded : capacity ≤ twoTo 63
  small : surroundings.program.size < twoTo 63
  reached : Reached surroundings.program capacity machine
  hosts : surroundings.registry.Sound surroundings.program machine.store

variable {surroundings : Surroundings} {capacity : Nat} {machine middle later : Machine}
  {before between after : List Value} {value : Value}

theorem Goes.trans (first : surroundings.Goes machine before middle between)
    (second : surroundings.Goes middle between later after) :
    surroundings.Goes machine before later after := by
  induction first with
  | stay => exact second
  | next steps _ ih => exact .next steps (ih second)
  | yields steps _ ih => exact .yields steps (ih second)

theorem Goes.step (steps : surroundings.Steps machine (.ok .next, later)) :
    surroundings.Goes machine before later before :=
  .next steps .stay

namespace Alive

theorem outcome (alive : surroundings.Alive capacity machine) {result : StepResult}
    (steps : surroundings.Steps machine result) :
    ∃ chart tower instruction,
      surroundings.program.instructions[machine.ip]? = some instruction ∧
      (step surroundings instruction).run { machine with ip := machine.ip + 1 } = result ∧
      Outcome surroundings chart capacity instruction tower { machine with ip := machine.ip + 1 }
        result := by
  rcases alive.charted with ⟨chart, charted⟩
  rcases alive.reached.tall charted alive.bounded alive.small with ⟨tower, tall⟩
  rcases tall.outcome charted alive.bounded alive.small alive.hosts with
    ⟨instruction, found, outcome⟩
  rcases steps with ⟨same, here, stepped⟩
  cases found.symm.trans here
  rw [stepped] at outcome
  exact ⟨chart, tower, instruction, found, stepped, outcome⟩

theorem next (alive : surroundings.Alive capacity machine)
    (steps : surroundings.Steps machine (.ok .next, later)) :
    surroundings.Alive capacity later := by
  rcases alive.outcome steps with ⟨chart, tower, instruction, found, stepped, outcome⟩
  cases outcome with
  | goes _ follows _ =>
      have reached := alive.reached.proceed (.next alive.hosts found stepped)
      exact ⟨alive.charted, alive.bounded, alive.small, reached, alive.hosts.mono follows.grows⟩

theorem yielded (alive : surroundings.Alive capacity machine)
    (steps : surroundings.Steps machine (.ok (.yielded value), later)) :
    surroundings.Alive capacity later := by
  rcases alive.outcome steps with ⟨chart, tower, instruction, found, stepped, outcome⟩
  cases outcome with
  | yields _ follows _ =>
      have reached := alive.reached.proceed
        (.resumed alive.hosts found stepped (.refl follows.sound))
      exact ⟨alive.charted, alive.bounded, alive.small, reached, alive.hosts.mono follows.grows⟩

theorem goes (alive : surroundings.Alive capacity machine)
    (goes : surroundings.Goes machine before later after) :
    surroundings.Alive capacity later := by
  induction goes with
  | stay => exact alive
  | next steps _ ih => exact ih (alive.next steps)
  | yields steps _ ih => exact ih (alive.yielded steps)

/-- What is on the stack of a machine of a run is known, and its closures are the program's. -/
theorem known (alive : surroundings.Alive capacity machine) :
    machine.store.Sound surroundings.program ∧
      ∀ value ∈ machine.stack.items.toList, value.Known machine.store := by
  rcases alive.charted with ⟨chart, charted⟩
  rcases alive.reached.tall charted alive.bounded alive.small with ⟨tower, same, holds⟩
  refine ⟨holds.sound, fun value member => holds.known value ?_⟩
  rw [same] at member
  exact member

end Alive

end Surroundings

end ScriptMachine
