import ScriptMachine.Proofs.Engine.Capacities
import ScriptMachine.Proofs.Engine.Turns
import ScriptMachine.Proofs.Simulation.Walks

/-!
# Turns

A walk of a machine takes an engine several turns: every yield ends one, and the engine goes on when
it is resumed. An engine that is resumed after every yield, against the store as the turn left it,
yields what the walk yields and ends as the walk ends.
-/

namespace ScriptMachine

/-- A turn that ends a run with a value or a fault. -/
def Turn.EndsWith (turn : Turn) : Except RuntimeFault Value → Prop
  | .ok value => turn.outcome = .completed value
  | .error fault => ∃ report, turn.outcome = .faulted report ∧ report.fault = fault

theorem Turn.EndsWith.drive {turn : Turn} {result : Except RuntimeFault Value}
    (ends : turn.EndsWith result) {bound turns : Nat} {registry : Registry} :
    Turn.drive bound registry turns turn = ([], turn) := by
  cases turns with
  | zero => rfl
  | succ turns =>
      cases result with
      | ok value =>
          unfold Turn.drive
          rw [ends]
      | error fault =>
          rcases ends with ⟨report, faulted, _⟩
          unfold Turn.drive
          rw [faulted]

/-- A yield is no obstacle: the next turn starts where the machine was. -/
theorem Engine.resume_turnOf {engine : Engine} {events : List TelemetryEvent} {value : Value}
    {machine : Machine} {trace : List String} {bound : Nat} {registry : Registry} :
    ∃ (later : Engine) (more : _) (traced : _), later.program = engine.program ∧
      (engine.turnOf events (.yielded value, machine, trace)).engine.resume bound registry
          machine.store =
        later.turnOf more (execute ⟨engine.program, registry⟩ traced bound machine []) :=
  ⟨{ engine.withMachine machine with state := .running, yielded := engine.yielded + 1 }, _, _, rfl,
    rfl⟩

namespace Surroundings

/-- A machine carries out the last instruction of a run. -/
def Halts (surroundings : Surroundings) (machine : Machine) (store : Store) :
    Except RuntimeFault Value → Prop
  | .ok value => ∃ later, surroundings.Steps machine (.ok (.completed value), later) ∧
      later.store = store
  | .error fault => ∃ later, surroundings.Steps machine (.error fault, later) ∧ later.store = store

variable {surroundings : Surroundings} {machine middle later last : Machine} {value : Value}
  {before after : List Value} {store : Store} {result : Except RuntimeFault Value}
  {traced : Option String} {fuel : Nat} {trace : List String}

theorem Steps.execute_next (steps : surroundings.Steps machine (.ok .next, middle)) :
    ∃ more, Engine.execute surroundings traced (fuel + 1) machine trace =
      Engine.execute surroundings traced fuel middle more := by
  rcases steps with ⟨instruction, found, stepped⟩
  rw [Engine.execute]
  simp only [found, stepped]
  exact ⟨_, rfl⟩

theorem Steps.execute_yields (steps : surroundings.Steps machine (.ok (.yielded value), middle)) :
    ∃ more, Engine.execute surroundings traced (fuel + 1) machine trace =
      (.yielded value, middle, more) := by
  rcases steps with ⟨instruction, found, stepped⟩
  rw [Engine.execute]
  simp only [found, stepped]
  exact ⟨_, rfl⟩

theorem Halts.turn (halts : surroundings.Halts machine store result) (engine : Engine)
    (events : List TelemetryEvent) :
    (engine.turnOf events (Engine.execute surroundings traced (fuel + 1) machine trace)).EndsWith
        result ∧
      (engine.turnOf events
        (Engine.execute surroundings traced (fuel + 1) machine trace)).store = store := by
  cases result with
  | ok value =>
      rcases halts with ⟨later, ⟨instruction, found, stepped⟩, rfl⟩
      rw [Engine.execute]
      simp only [found, stepped]
      exact ⟨rfl, rfl⟩
  | error fault =>
      rcases halts with ⟨later, ⟨instruction, found, stepped⟩, rfl⟩
      rw [Engine.execute]
      simp only [found, stepped]
      exact ⟨⟨_, rfl, rfl⟩, rfl⟩

/-- An engine that is driven yields what its machine yields, and ends as its machine ends. -/
theorem Goes.drives (goes : surroundings.Goes machine before last after)
    (halts : surroundings.Halts last store result) :
    ∃ limit yielded, after = before ++ yielded ∧
      ∀ fuel bound turns, limit ≤ fuel → limit ≤ bound → limit ≤ turns →
      ∀ (engine : Engine) events traced trace, engine.program = surroundings.program →
        ∃ final, Turn.drive bound surroundings.registry turns
            (engine.turnOf events (Engine.execute surroundings traced fuel machine trace)) =
          (yielded, final) ∧ final.EndsWith result ∧ final.store = store := by
  induction goes with
  | stay =>
      refine ⟨1, [], (List.append_nil _).symm, ?_⟩
      intro fuel bound turns enough _ _ engine events traced trace _
      rcases Nat.exists_eq_add_of_lt enough with ⟨fuel, rfl⟩
      rw [Nat.zero_add]
      rcases halts.turn engine events with ⟨ends, kept⟩
      exact ⟨_, ends.drive, ends, kept⟩
  | next steps _ ih =>
      rcases ih halts with ⟨limit, yielded, same, drives⟩
      refine ⟨limit + 1, yielded, same, ?_⟩
      intro fuel bound turns enough enoughBound enoughTurns engine events traced trace own
      rcases Nat.exists_eq_add_of_lt enough with ⟨more, rfl⟩
      rcases steps.execute_next with ⟨later, executed⟩
      rw [executed]
      exact drives _ bound turns (by omega) (by omega) (by omega) engine events traced later own
  | @yields _ middle _ value before _ steps _ ih =>
      rcases ih halts with ⟨limit, yielded, same, drives⟩
      refine ⟨limit + 1, value :: yielded, by rw [same, List.append_assoc]; rfl, ?_⟩
      intro fuel bound turns enough enoughBound enoughTurns engine events traced trace own
      rcases Nat.exists_eq_add_of_lt enough with ⟨more, rfl⟩
      rcases Nat.exists_eq_add_of_lt enoughTurns with ⟨moreTurns, rfl⟩
      rcases steps.execute_yields with ⟨later, executed⟩
      rw [executed]
      rcases @Engine.resume_turnOf engine events value middle later bound surroundings.registry with
        ⟨resumed, events, traced, sameProgram, turn⟩
      rcases drives bound bound (limit + moreTurns) (by omega) (by omega) (by omega) resumed events
        traced [] (sameProgram.trans own) with ⟨final, drove, ends, kept⟩
      rw [own] at turn
      refine ⟨final, ?_, ends, kept⟩
      calc
        _ = (value :: (Turn.drive bound surroundings.registry (limit + moreTurns)
                ((engine.turnOf _ (.yielded value, middle, later)).engine.resume bound
                  surroundings.registry middle.store)).1,
              (Turn.drive bound surroundings.registry (limit + moreTurns)
                ((engine.turnOf _ (.yielded value, middle, later)).engine.resume bound
                  surroundings.registry middle.store)).2) := rfl
        _ = _ := by rw [turn, drove]

/-! ## Smaller stacks -/

theorem Goes.isPrefix (goes : surroundings.Goes machine before last after) : before <+: after := by
  induction goes with
  | stay => exact List.prefix_refl _
  | next _ _ ih => exact ih
  | yields _ _ ih => exact (List.prefix_append _ _).trans ih

section Smaller

variable {larger : Nat} {control : Except RuntimeFault Control}

theorem Steps.scaled (more : machine.stack.capacity ≤ larger)
    (steps : surroundings.Steps (machine.withCapacity larger) (control, later)) :
    (∃ full, surroundings.Steps machine (.error (.stackOverflow machine.stack.capacity), full)) ∨
      ∃ smaller, smaller.stack.capacity = machine.stack.capacity ∧
        later = smaller.withCapacity larger ∧ surroundings.Steps machine (control, smaller) := by
  rcases steps with ⟨instruction, found, stepped⟩
  rcases Step.scales surroundings instruction { machine with ip := machine.ip + 1 } larger more with
    ⟨kept, overflow | same⟩
  · exact .inl ⟨_, instruction, found, Prod.ext overflow rfl⟩
  · have result := same.symm.trans stepped
    cases result
    exact .inr ⟨_, kept, rfl, instruction, found, rfl⟩

theorem Halts.scaled (more : machine.stack.capacity ≤ larger)
    (halts : surroundings.Halts (machine.withCapacity larger) store result) :
    surroundings.Halts machine store result ∨
      ∃ store, surroundings.Halts machine store
        (.error (.stackOverflow machine.stack.capacity)) := by
  cases result with
  | ok value =>
      rcases halts with ⟨later, steps, rfl⟩
      rcases steps.scaled more with ⟨full, overflows⟩ | ⟨smaller, _, rfl, scaled⟩
      · exact .inr ⟨_, full, overflows, rfl⟩
      · exact .inl ⟨smaller, scaled, rfl⟩
  | error fault =>
      rcases halts with ⟨later, steps, rfl⟩
      rcases steps.scaled more with ⟨full, overflows⟩ | ⟨smaller, _, rfl, scaled⟩
      · exact .inr ⟨_, full, overflows, rfl⟩
      · exact .inl ⟨smaller, scaled, rfl⟩

/-- What happens on a large stack happens on a smaller one, if that does not overflow before. -/
theorem Goes.scaled (more : machine.stack.capacity ≤ larger)
    (goes : surroundings.Goes (machine.withCapacity larger) before last after)
    (halts : surroundings.Halts last store result) :
    (∃ last, surroundings.Goes machine before last after ∧
        surroundings.Halts last store result) ∨
      ∃ between last store, between <+: after ∧ surroundings.Goes machine before last between ∧
        surroundings.Halts last store (.error (.stackOverflow machine.stack.capacity)) := by
  generalize same : machine.withCapacity larger = large at goes
  induction goes generalizing machine with
  | stay =>
      subst same
      rcases halts.scaled more with halts | ⟨store, overflows⟩
      · exact .inl ⟨machine, .stay, halts⟩
      · exact .inr ⟨_, machine, store, List.prefix_refl _, .stay, overflows⟩
  | next steps goes ih =>
      subst same
      rcases steps.scaled more with ⟨full, overflows⟩ | ⟨smaller, kept, rfl, scaled⟩
      · exact .inr ⟨_, _, _, goes.isPrefix, .stay, full, overflows, rfl⟩
      · rcases ih (kept ▸ more) halts rfl with
          ⟨last, goes, halts⟩ | ⟨between, last, store, shorter, goes, halts⟩
        · exact .inl ⟨last, .next scaled goes, halts⟩
        · exact .inr ⟨between, last, store, shorter, .next scaled goes, kept ▸ halts⟩
  | yields steps goes ih =>
      subst same
      rcases steps.scaled more with ⟨full, overflows⟩ | ⟨smaller, kept, rfl, scaled⟩
      · exact .inr ⟨_, _, _, (List.prefix_append _ _).trans goes.isPrefix, .stay, full, overflows,
          rfl⟩
      · rcases ih (kept ▸ more) halts rfl with
          ⟨last, goes, halts⟩ | ⟨between, last, store, shorter, goes, halts⟩
        · exact .inl ⟨last, .yields scaled goes, halts⟩
        · exact .inr ⟨between, last, store, shorter, .yields scaled goes, kept ▸ halts⟩

end Smaller

/-! ## Runs from the start -/

/-- What a run comes to, from what setting up its first frame came to: what it yields, its result,
and the store that it leaves. -/
inductive RunsTo (surroundings : Surroundings) :
    Except RuntimeFault Unit × Machine → List Value → Except RuntimeFault Value → Store → Prop
  | refused {fault machine} :
      RunsTo surroundings (.error fault, machine) [] (.error fault) machine.store
  | ran {machine last yielded result store}
      (goes : surroundings.Goes machine [] last yielded)
      (halts : surroundings.Halts last store result) :
      RunsTo surroundings (.ok (), machine) yielded result store

/-- Of a run on a smaller stack it is known what it comes to, unless it overflows. -/
theorem RunsTo.scaled {setUp : Step Unit} {larger : Nat} {yielded : List Value}
    (scales : setUp.Scales) (more : machine.stack.capacity ≤ larger)
    (runs : surroundings.RunsTo (setUp.run (machine.withCapacity larger)) yielded result store) :
    surroundings.RunsTo (setUp.run machine) yielded result store ∨
      ∃ before store, before <+: yielded ∧ surroundings.RunsTo (setUp.run machine) before
        (.error (.stackOverflow machine.stack.capacity)) store := by
  rcases scales machine larger more with ⟨kept, overflow | same⟩
  · have full : setUp.run machine =
        (.error (.stackOverflow machine.stack.capacity), (setUp.run machine).2) :=
      Prod.ext overflow rfl
    rw [full]
    exact .inr ⟨_, _, List.nil_prefix, .refused⟩
  · rw [same] at runs
    generalize setUp.run machine = entered at kept runs
    rcases entered with ⟨control, smaller⟩
    cases runs with
    | refused => exact .inl .refused
    | ran goes halts =>
        have bound : smaller.stack.capacity ≤ larger := kept ▸ more
        rcases goes.scaled bound halts with
          ⟨last, goes, halts⟩ | ⟨between, last, store, shorter, goes, halts⟩
        · exact .inl (.ran goes halts)
        · exact .inr ⟨between, store, shorter, .ran goes (kept ▸ halts)⟩

end Surroundings

namespace Engine

variable {program : Program} {options : RunOptions} {registry : Registry} {store later : Store}
  {path : List String} {name : String} {args yielded : List Value}
  {result : Except RuntimeFault Value} {machine : Machine} {bound : Nat}

/-- An engine, started with a function and resumed after every yield, yields values, ends with a
result and leaves a store. No bound that is large enough matters. -/
def Delivers (engine : Engine) (registry : Registry) (store : Store) (path : List String)
    (name : String) (args yielded : List Value) (result : Except RuntimeFault Value)
    (later : Store) : Prop :=
  ∃ limit, ∀ bound turns, limit ≤ bound → limit ≤ turns → ∃ final,
    Turn.drive bound registry turns (engine.start bound registry store path name args) =
      (yielded, final) ∧
    final.EndsWith result ∧ final.store = later

theorem delivers_create (runs : Surroundings.RunsTo ⟨program, registry⟩
      ((enter ⟨program, registry⟩ (qualifiedName path name) path name args).run
        ((create program options).machine store)) yielded result later) :
    (create program options).Delivers registry store path name args yielded result later := by
  generalize setUp : (enter ⟨program, registry⟩ (qualifiedName path name) path name args).run
    ((create program options).machine store) = entered at runs
  cases runs with
  | @refused fault machine =>
      refine ⟨0, ?_⟩
      intro bound turns _ _
      rw [start_create, setUp]
      exact ⟨_, @Turn.EndsWith.drive _ (.error fault) ⟨_, rfl, rfl⟩ _ _ _, ⟨_, rfl, rfl⟩, rfl⟩
  | ran goes halts =>
      rcases goes.drives halts with ⟨limit, yielded, rfl, drives⟩
      refine ⟨limit, ?_⟩
      intro bound turns enough enoughTurns
      rw [start_create, setUp]
      exact drives bound bound turns enough enough enoughTurns _ _ _ _ rfl

end Engine

end ScriptMachine
