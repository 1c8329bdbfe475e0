import ScriptMachine.Proofs.Balance.Internal
import ScriptMachine.Proofs.Engine.Entering
import ScriptMachine.Proofs.Engine.Turns

/-!
# Runs

A run starts with a machine that an engine has set up for a function and takes one instruction after
another. Behind a yield the host may do to the store what it likes, as long as it brings in no
closure of another program, and then resume the run, against the same registry or another one.

Every machine that a run of a compiled program reaches has a tower on its stack that holds. So no
run ever takes an internal branch.
-/

namespace ScriptMachine

/-- A machine that an engine has set up for a function. -/
inductive Started (program : Program) (capacity : Nat) : Machine → Prop
  | entered {registry : Registry} {store : Store} {entry name : String} {path : List String}
      {args : List Value} {machine : Machine} (hosts : registry.Sound program store)
      (sound : store.Sound program) (known : ∀ value ∈ args, value.Known store)
      (entered : (Engine.enter ⟨program, registry⟩ entry path name args).run
        ⟨.ofCapacity capacity, 0, 0, 0, [], store⟩ = (.ok (), machine)) :
      Started program capacity machine

/-- One instruction of a run that goes on. -/
inductive Proceeds (program : Program) : Machine → Machine → Prop
  | next {registry : Registry} {machine later : Machine} {instruction : Instruction}
      (hosts : registry.Sound program machine.store)
      (found : program.instructions[machine.ip]? = some instruction)
      (stepped : (step ⟨program, registry⟩ instruction).run { machine with ip := machine.ip + 1 } =
        (.ok .next, later)) :
      Proceeds program machine later
  | resumed {registry : Registry} {machine later : Machine} {instruction : Instruction}
      {value : Value} {store : Store} (hosts : registry.Sound program machine.store)
      (found : program.instructions[machine.ip]? = some instruction)
      (stepped : (step ⟨program, registry⟩ instruction).run { machine with ip := machine.ip + 1 } =
        (.ok (.yielded value), later))
      (follows : later.store.Follows program store) :
      Proceeds program machine { later with store := store }

/-- A machine that a run gets to. -/
inductive Reached (program : Program) (capacity : Nat) : Machine → Prop
  | start {machine : Machine} (started : Started program capacity machine) :
      Reached program capacity machine
  | proceed {machine later : Machine} (reached : Reached program capacity machine)
      (proceeds : Proceeds program machine later) : Reached program capacity later

section Towers

variable {program : Program} {chart : Chart} {capacity : Nat} {machine later : Machine}

/-- The machine has a tower on its stack that holds. -/
def Machine.Tall (program : Program) (chart : Chart) (capacity : Nat) (tower : Tower)
    (machine : Machine) : Prop :=
  machine = tower.machine capacity machine.ip machine.debugStack machine.store ∧
    tower.Holds program chart capacity machine.ip machine.store

/-- The tower that an engine sets up for a function. -/
theorem Program.Charted.entered (charted : program.Charted chart) {registry : Registry}
    {store : Store} {entry name : String} {path : List String} {args : List Value}
    (sound : store.Sound program) (known : ∀ value ∈ args, value.Known store)
    (entered : (Engine.enter ⟨program, registry⟩ entry path name args).run
      ⟨.ofCapacity capacity, 0, 0, 0, [], store⟩ = (.ok (), machine)) :
    ∃ function globals shape, program.lookup? path name = some function ∧
      program.globals.map (registry.global? store) = globals.map some ∧
      chart function.offset = some (shape, .entry) ∧
      machine.ip = function.offset ∧ machine.store = store ∧
      machine.Tall program chart capacity ⟨globals, ⟨shape, args ++ headerWords 0 0, []⟩, []⟩ := by
  rcases enter_ok entered with ⟨function, globals, found, arity, named, room, rfl⟩
  rcases charted.entries path name function found with ⟨shape, same, placed⟩
  have length : globals.length = program.globals.length := by
    simpa using (congrArg List.length named).symm
  have values : Tower.values ⟨globals, ⟨shape, args ++ headerWords 0 0, []⟩, []⟩ =
      globals ++ args ++ headerWords 0 0 := by
    simp [Tower.values, Tower.floor, content]
  refine ⟨function, globals, shape, found, named, placed, rfl, rfl, ?_, ?_⟩
  · rw [Tower.machine, values]
    simp [Tower.base, content]
  · refine ⟨length, ⟨.entry, placed, by simp [same, arity, frameHeader], rfl⟩, ?_, ?_, sound, ?_⟩
    · exact Activation.header_entered (same.trans arity)
    · rwa [values]
    · intro value member
      rw [values] at member
      rcases List.mem_append.mp member with member | word
      · rcases List.mem_append.mp member with inGlobals | inArgs
        · have present : some value ∈ program.globals.map (registry.global? store) :=
            named ▸ List.mem_map_of_mem inGlobals
          rcases List.mem_map.mp present with ⟨global, _, same⟩
          rcases Option.map_eq_some_iff.mp same with ⟨cell, _, rfl⟩
          exact sound.cells cell
        · exact known value inArgs
      · simp only [headerWords, List.mem_cons, List.not_mem_nil, or_false] at word
        rcases word with rfl | rfl <;> trivial

theorem Started.tall (charted : program.Charted chart)
    (started : Started program capacity machine) :
    ∃ tower, machine.Tall program chart capacity tower := by
  rcases started with ⟨_, sound, known, entered⟩
  rcases charted.entered sound known entered with ⟨_, _, _, _, _, _, _, _, tall⟩
  exact ⟨_, tall⟩

/-- The host may change the store. -/
theorem Tower.Holds.hostActs {tower : Tower} {ip : Nat} {store after : Store}
    (holds : tower.Holds program chart capacity ip store)
    (follows : store.Follows program after) : tower.Holds program chart capacity ip after :=
  { holds with
    sound := follows.sound
    known := fun value member => (holds.known value member).mono follows.grows }

/-- What a step from a machine with a tower that holds comes to. -/
theorem Machine.Tall.outcome (charted : program.Charted chart)
    (bounded : capacity ≤ twoTo 63) (small : program.size < twoTo 63) {tower : Tower}
    (tall : machine.Tall program chart capacity tower) {registry : Registry}
    (hosts : registry.Sound program machine.store) :
    ∃ instruction, program.instructions[machine.ip]? = some instruction ∧
      Outcome ⟨program, registry⟩ chart capacity instruction tower
        { machine with ip := machine.ip + 1 }
        ((step ⟨program, registry⟩ instruction).run { machine with ip := machine.ip + 1 }) := by
  rcases tall with ⟨same, holds⟩
  have shifted : { machine with ip := machine.ip + 1 } =
      tower.machine capacity (machine.ip + 1) machine.debugStack machine.store := by
    rw [same]
    rfl
  rw [shifted]
  exact @Tower.Holds.outcome ⟨program, registry⟩ _ _ _ _ _ _ charted bounded small hosts holds

/-- What a step of a run that goes on changes. Behind a yield the store is that of the host. -/
theorem Proceeds.change (charted : program.Charted chart) (bounded : capacity ≤ twoTo 63)
    (small : program.size < twoTo 63) {tower : Tower}
    (tall : machine.Tall program chart capacity tower) (proceeds : Proceeds program machine later) :
    ∃ registry instruction next store, program.instructions[machine.ip]? = some instruction ∧
      Change ⟨program, registry⟩ tower (machine.ip + 1) machine.debugStack machine.store instruction
        next later.ip later.debugStack store ∧
      later.Tall program chart capacity next := by
  cases proceeds with
  | next hosts found stepped =>
      rcases tall.outcome charted bounded small hosts with ⟨instruction, here, outcome⟩
      cases found.symm.trans here
      rw [stepped] at outcome
      cases outcome with
      | goes holds follows change => exact ⟨_, _, _, _, here, change, rfl, holds⟩
  | resumed hosts found stepped follows =>
      rcases tall.outcome charted bounded small hosts with ⟨instruction, here, outcome⟩
      cases found.symm.trans here
      rw [stepped] at outcome
      cases outcome with
      | yields holds _ change => exact ⟨_, _, _, _, here, change, rfl, holds.hostActs follows⟩

theorem Proceeds.tall (charted : program.Charted chart) (bounded : capacity ≤ twoTo 63)
    (small : program.size < twoTo 63) {tower : Tower}
    (tall : machine.Tall program chart capacity tower) (proceeds : Proceeds program machine later) :
    ∃ instruction next, program.instructions[machine.ip]? = some instruction ∧
      later.Tall program chart capacity next ∧
      Move instruction (machine.ip + 1) later.ip tower next := by
  rcases proceeds.change charted bounded small tall with
    ⟨_, instruction, next, _, found, change, tallNext⟩
  exact ⟨instruction, next, found, tallNext, change.move⟩

/-- Every machine of a run has a tower that holds. -/
theorem Reached.tall (charted : program.Charted chart) (bounded : capacity ≤ twoTo 63)
    (small : program.size < twoTo 63) (reached : Reached program capacity machine) :
    ∃ tower, machine.Tall program chart capacity tower := by
  induction reached with
  | start started => exact started.tall charted
  | proceed reached proceeds ih =>
      rcases ih with ⟨tower, tall⟩
      rcases proceeds.tall charted bounded small tall with ⟨_, next, _, tallNext, _⟩
      exact ⟨next, tallNext⟩

/-! ## Engines -/

/-- What the end of a turn tells about its run. -/
inductive TurnEnds (program : Program) (capacity : Nat) (registry : Registry) :
    TurnOutcome → Machine → Prop
  | unfinished {machine : Machine} (reached : Reached program capacity machine) :
      TurnEnds program capacity registry .unfinished machine
  | yielded {machine : Machine} {value : Value} (sound : machine.store.Sound program)
      (reached : ∀ store, machine.store.Follows program store →
        Reached program capacity { machine with store := store }) :
      TurnEnds program capacity registry (.yielded value) machine
  | completed {before machine : Machine} {instruction : Instruction} {value : Value}
      (reached : Reached program capacity before) (hosts : registry.Sound program before.store)
      (found : program.instructions[before.ip]? = some instruction)
      (stepped : (step ⟨program, registry⟩ instruction).run { before with ip := before.ip + 1 } =
        (.ok (.completed value), machine)) :
      TurnEnds program capacity registry (.completed value) machine
  | faulted {before machine : Machine} {instruction : Instruction} {fault : RuntimeFault}
      (reached : Reached program capacity before) (hosts : registry.Sound program before.store)
      (found : program.instructions[before.ip]? = some instruction)
      (stepped : (step ⟨program, registry⟩ instruction).run { before with ip := before.ip + 1 } =
        (.error fault, machine)) :
      TurnEnds program capacity registry
        (.faulted ⟨fault, some instruction, before.ip, machine.debugStack⟩) machine

/-- The machines that an engine goes through are those of a run. -/
theorem Reached.execute (charted : program.Charted chart) (bounded : capacity ≤ twoTo 63)
    (small : program.size < twoTo 63) {registry : Registry} (traced : Option String) (bound : Nat)
    (trace : List String) (reached : Reached program capacity machine)
    (hosts : registry.Sound program machine.store) :
    TurnEnds program capacity registry
      (Engine.execute ⟨program, registry⟩ traced bound machine trace).1
      (Engine.execute ⟨program, registry⟩ traced bound machine trace).2.1 := by
  induction bound generalizing machine trace with
  | zero => exact .unfinished reached
  | succ bound ih =>
      rcases reached.tall charted bounded small with ⟨tower, tall⟩
      rcases tall.outcome charted bounded small hosts with ⟨instruction, found, outcome⟩
      rw [Engine.execute]
      simp only [found]
      generalize stepped : (step ⟨program, registry⟩ instruction).run
        { machine with ip := machine.ip + 1 } = result at outcome
      cases outcome with
      | goes holds follows change =>
          exact ih _ (reached.proceed (.next hosts found stepped)) (hosts.mono follows.grows)
      | yields holds follows change =>
          exact .yielded follows.sound fun store later =>
            reached.proceed (.resumed hosts found stepped later)
      | completes => exact .completed reached hosts found stepped
      | faults ordinary => exact .faulted reached hosts found stepped

/-- The turns that an engine can take: a start and any number of resumptions. Between two turns the
host may change the store. -/
inductive Engine.Session (program : Program) (options : RunOptions) : Turn → Prop
  | start {bound : Nat} {registry : Registry} {store : Store} {path : List String} {name : String}
      {args : List Value} (hosts : registry.Sound program store) (sound : store.Sound program)
      (known : ∀ value ∈ args, value.Known store) :
      Session program options ((create program options).start bound registry store path name args)
  | resume {turn : Turn} {bound : Nat} {registry : Registry} {store : Store}
      (session : Session program options turn) (follows : turn.store.Follows program store)
      (hosts : registry.Sound program store) :
      Session program options (turn.engine.resume bound registry store)

/-- A turn of a session that gets to its first instruction: the function that is asked for could be
entered, or the engine was suspended. -/
inductive Engine.Begun (program : Program) (options : RunOptions) : Turn → Prop
  | start {bound : Nat} {registry : Registry} {store : Store} {path : List String} {name : String}
      {args : List Value} {machine : Machine} (hosts : registry.Sound program store)
      (sound : store.Sound program) (known : ∀ value ∈ args, value.Known store)
      (entered : (enter ⟨program, registry⟩ (qualifiedName path name) path name args).run
        ((create program options).machine store) = (.ok (), machine)) :
      Begun program options ((create program options).start bound registry store path name args)
  | resume {turn : Turn} {bound : Nat} {registry : Registry} {store : Store}
      (session : Session program options turn) (suspended : turn.engine.state = .suspended)
      (follows : turn.store.Follows program store) (hosts : registry.Sound program store) :
      Begun program options (turn.engine.resume bound registry store)

/-- A turn of a session that ends before its first instruction: the function that is asked for
cannot be entered, or the engine is not suspended. -/
inductive Engine.Refused (program : Program) (options : RunOptions) : Turn → Prop
  | start {bound : Nat} {registry : Registry} {store : Store} {path : List String} {name : String}
      {args : List Value} {fault : RuntimeFault} {machine : Machine}
      (refused : (enter ⟨program, registry⟩ (qualifiedName path name) path name args).run
        ((create program options).machine store) = (.error fault, machine)) :
      Refused program options ((create program options).start bound registry store path name args)
  | resume {turn : Turn} {bound : Nat} {registry : Registry} {store : Store}
      (session : Session program options turn) (waits : turn.engine.state ≠ .suspended) :
      Refused program options (turn.engine.resume bound registry store)

/-- A turn whose run is known: what a suspended engine goes on with, and where a fault came from. -/
structure Turn.Explained (turn : Turn) (program : Program) (options : RunOptions) : Prop where
  sameProgram : turn.engine.program = program
  sameOptions : turn.engine.options = options
  suspended : turn.engine.state = .suspended → ∀ store, turn.store.Follows program store →
    Reached program options.stackCapacity (turn.engine.machine store)
  faulted : ∀ report, turn.outcome = .faulted report →
    (report = .ofFault report.fault ∧ ∀ message, report.fault ≠ .unknown message) ∨
      ∃ registry machine, TurnEnds program options.stackCapacity registry (.faulted report) machine
  completed : ∀ value, turn.outcome = .completed value →
    ∃ registry, TurnEnds program options.stackCapacity registry (.completed value)
      (turn.engine.machine turn.store)

section Engines

variable {options : RunOptions} {registry : Registry} {store : Store} {turn : Turn}

theorem Engine.Session.begun_or_refused (session : Session program options turn) :
    Begun program options turn ∨ Refused program options turn := by
  cases session with
  | @start bound registry store path name args hosts sound known =>
      rcases entered : (enter ⟨program, registry⟩ (qualifiedName path name) path name args).run
        ((create program options).machine store) with ⟨fault | _, machine⟩
      · exact .inr (.start entered)
      · exact .inl (.start hosts sound known entered)
  | @resume turn bound registry store session follows hosts =>
      rcases Decidable.em (turn.engine.state = .suspended) with suspended | waits
      · exact .inl (.resume session suspended follows hosts)
      · exact .inr (.resume session waits)

/-- A refused turn reports why, and no instruction, place or active function. -/
theorem Engine.Refused.report (refused : Refused program options turn) :
    ∃ fault, turn.outcome = .faulted (.ofFault fault) := by
  cases refused with
  | @start _ _ _ _ _ _ fault _ refused =>
      refine ⟨fault, ?_⟩
      rw [start_create, refused]
      rfl
  | @resume turn _ _ _ session waits =>
      refine ⟨.notResumable turn.engine.state.label, ?_⟩
      rw [Engine.resume, if_pos waits]
      rfl

variable (charted : program.Charted chart) (bounded : options.stackCapacity ≤ twoTo 63)
  (small : program.size < twoTo 63)

include charted bounded small

/-- The fault of a turn that carries out instructions is one that an instruction has raised. -/
theorem Engine.ends_run {engine : Engine} {bound : Nat} {events : List TelemetryEvent}
    (sameProgram : engine.program = program) (sameOptions : engine.options = options)
    (reached : Reached program options.stackCapacity (engine.machine store))
    (hosts : registry.Sound program store) {report : FaultReport}
    (faulted : (engine.run bound registry store events).outcome = .faulted report) :
    ∃ machine, TurnEnds program options.stackCapacity registry (.faulted report) machine := by
  subst sameProgram sameOptions
  have ends := reached.execute charted bounded small
    (if engine.options.trace then some engine.entry else none) bound [] hosts
  rw [run_eq_turnOf, outcome_turnOf] at faulted
  rw [faulted] at ends
  exact ⟨_, ends⟩

theorem Engine.explained_run {engine : Engine} (bound : Nat) (events : List TelemetryEvent)
    (sameProgram : engine.program = program) (sameOptions : engine.options = options)
    (running : engine.state = .running)
    (reached : Reached program options.stackCapacity (engine.machine store))
    (hosts : registry.Sound program store) :
    (engine.run bound registry store events).Explained program options := by
  subst sameProgram sameOptions
  let traced := if engine.options.trace then some engine.entry else none
  have ends := reached.execute charted bounded small traced bound [] hosts
  rcases executed : Engine.execute ⟨engine.program, registry⟩ traced bound (engine.machine store) []
    with ⟨outcome, machine, trace⟩
  rw [executed] at ends
  unfold Engine.run
  simp only [traced] at executed
  simp only [executed]
  cases outcome with
  | unfinished =>
      refine ⟨rfl, rfl, ?_, fun _ same => TurnOutcome.noConfusion same,
        fun _ same => TurnOutcome.noConfusion same⟩
      intro suspended
      cases running.symm.trans suspended
  | yielded value =>
      refine ⟨rfl, rfl, ?_, fun _ same => TurnOutcome.noConfusion same,
        fun _ same => TurnOutcome.noConfusion same⟩
      intro _ later follows
      cases ends with
      | yielded sound reached => exact reached later follows
  | completed value =>
      refine ⟨rfl, rfl, fun other => EngineState.noConfusion other,
        fun _ same => TurnOutcome.noConfusion same, ?_⟩
      intro other same
      cases same
      exact ⟨registry, ends⟩
  | faulted report =>
      refine ⟨rfl, rfl, nofun, ?_, fun _ same => TurnOutcome.noConfusion same⟩
      intro other same
      cases same
      exact .inr ⟨registry, machine, ends⟩

/-- Every turn of a session belongs to a run. -/
theorem Engine.Session.explained (session : Session program options turn) :
    turn.Explained program options := by
  induction session with
  | @start bound registry store path name args hosts sound known =>
      rw [start_create]
      rcases entered : (enter ⟨program, registry⟩ (qualifiedName path name) path name args).run
        ((create program options).machine store) with ⟨fault | _, machine⟩
      · refine ⟨rfl, rfl, nofun, ?_, nofun⟩
        intro report same
        cases same
        refine .inl ⟨rfl, ?_⟩
        rintro message rfl
        rcases enter_error entered with early | ⟨_, early⟩ | ⟨_, early⟩ | ⟨_, early⟩ <;> cases early
      · have kept : machine.store = store := store_of_enter_ok entered
        refine explained_run charted bounded small bound _ rfl rfl rfl ?_ (kept.symm ▸ hosts)
        exact .start (.entered hosts sound known entered)
  | @resume turn bound registry store session follows hosts ih =>
      rcases Decidable.em (turn.engine.state = .suspended) with suspended | waits
      · rw [resume_of_suspended suspended]
        exact explained_run charted bounded small bound _ ih.sameProgram ih.sameOptions rfl
          (ih.suspended suspended store follows) hosts
      · rw [Engine.resume, if_pos waits]
        refine ⟨ih.sameProgram, ih.sameOptions, fun suspended => absurd suspended waits, ?_, nofun⟩
        intro report same
        cases same
        exact .inl ⟨rfl, nofun⟩

/-- What a turn reports that got to its first instruction was raised by an instruction. -/
theorem Engine.Begun.ends (begun : Begun program options turn) {report : FaultReport}
    (faulted : turn.outcome = .faulted report) :
    ∃ registry machine,
      TurnEnds program options.stackCapacity registry (.faulted report) machine := by
  cases begun with
  | @start bound registry store path name args machine hosts sound known entered =>
      have kept : machine.store = store := store_of_enter_ok entered
      rw [start_create, entered] at faulted
      exact ⟨registry, ends_run charted bounded small rfl rfl
        (.start (.entered hosts sound known entered)) (kept.symm ▸ hosts) faulted⟩
  | @resume turn bound registry store session suspended follows hosts =>
      have explained := session.explained charted bounded small
      rw [resume_of_suspended suspended] at faulted
      refine ⟨registry, ends_run charted bounded small ?_ ?_ ?_ hosts faulted⟩
      · exact explained.sameProgram
      · exact explained.sameOptions
      · exact explained.suspended suspended store follows

end Engines

/-! ## Internal faults -/

/-- A machine that has a next instruction, which never raises an internal fault on it, whatever the
host: the faults that it does raise are ordinary ones. -/
def Machine.Safe (program : Program) (machine : Machine) : Prop :=
  ∃ instruction, program.instructions[machine.ip]? = some instruction ∧
    ∀ registry : Registry, registry.Sound program machine.store →
      (∀ fault, ¬InternalBranch ⟨program, registry⟩ machine instruction fault) ∧
      ∀ fault later, (step ⟨program, registry⟩ instruction).run
          { machine with ip := machine.ip + 1 } = (.error fault, later) →
        Ordinary registry instruction { machine with ip := machine.ip + 1 } fault

theorem Machine.Tall.safe (charted : program.Charted chart) (bounded : capacity ≤ twoTo 63)
    (small : program.size < twoTo 63) {tower : Tower}
    (tall : machine.Tall program chart capacity tower) : machine.Safe program := by
  rcases tall.2.here with ⟨point, here, _⟩
  rcases charted.checked _ _ _ here with ⟨instruction, _, found, _⟩
  refine ⟨instruction, found, ?_⟩
  intro registry hosts
  refine ⟨?_, ?_⟩
  · intro fault
    rw [tall.1]
    exact @Tower.Holds.not_internal ⟨program, registry⟩ _ _ _ _ _ _ _ _ _ charted bounded small
      hosts tall.2 found
  · intro fault later stepped
    rcases tall.outcome charted bounded small hosts with ⟨_, same, outcome⟩
    cases found.symm.trans same
    rw [stepped] at outcome
    cases outcome with
    | faults ordinary => exact ordinary

/-- No run of a compiled program ever takes an internal branch. What an engine reports is refused
before the first instruction, or an ordinary fault of an instruction that the run has reached. The
bounds are those of memory: neither the program nor the stack has more than `2 ^ 63` places. -/
theorem internal_faults_unreachable {units : List ProgramUnit} {globals : List String}
    {options : RunOptions} (accepted : compileUnits units globals = .ok program)
    (small : program.size < twoTo 63) (bounded : options.stackCapacity ≤ twoTo 63) :
    (∀ machine, Reached program options.stackCapacity machine → machine.Safe program) ∧
    ∀ turn, Engine.Session program options turn → ∀ report, turn.outcome = .faulted report →
      (report = .ofFault report.fault ∧ ∀ message, report.fault ≠ .unknown message) ∨
      ∃ registry machine instruction, Reached program options.stackCapacity machine ∧
        program.instructions[machine.ip]? = some instruction ∧
        report.instruction = some instruction ∧ report.ip = machine.ip ∧
        Ordinary registry instruction { machine with ip := machine.ip + 1 } report.fault := by
  rcases compileUnits_ok accepted with ⟨placed, compiled⟩
  rcases compiled.charted with ⟨chart, charted⟩
  have safe : ∀ machine, Reached program options.stackCapacity machine → machine.Safe program := by
    intro machine reached
    rcases reached.tall charted bounded small with ⟨tower, tall⟩
    exact tall.safe charted bounded small
  refine ⟨safe, ?_⟩
  intro turn session report faulted
  rcases (session.explained charted bounded small).faulted report faulted with
    early | ⟨registry, machine, ends⟩
  · exact .inl early
  · cases ends with
    | @faulted before _ instruction fault reached hosts found stepped =>
        rcases safe before reached with ⟨_, same, ordinary⟩
        cases found.symm.trans same
        exact .inr ⟨registry, before, instruction, reached, found, rfl, rfl,
          (ordinary registry hosts).2 fault machine stepped⟩

end Towers

/-! ## A small program -/

namespace Sample

/-- Two functions, one of which calls the other. -/
def units : List ProgramUnit :=
  [⟨"sample", [],
    [⟨"main", [], [.returnValue (some (.call [] "same" [.literal (.int 1)]))], .nowhere⟩,
      ⟨"same", ["x"], [.returnValue (some (.var "x"))], .nowhere⟩]⟩]

def mainContext : DebugContext := ⟨"sample", "main", .nowhere⟩

def sameContext : DebugContext := ⟨"sample", "same", .nowhere⟩

def program : Program where
  instructions := #[
    .allocFrame 0, .pushDebug mainContext, .pushConst (.int 1), .callFunction ⟨[], "same"⟩ 1,
    .popDebug, .returnValue 0, .pushConst .unit, .popDebug, .returnValue 0,
    .allocFrame 0, .pushDebug sameContext, .loadLocal 0, .popDebug, .returnValue 1,
    .pushConst .unit, .popDebug, .returnValue 1]
  namespaces := .mk [("main", ⟨0, 0⟩), ("same", ⟨9, 1⟩)] []
  globals := []
  metadata := [("compiler", compilerName), ("units", "sample")]

theorem accepted : compileUnits units [] = .ok program := rfl

theorem emptyStore {program : Program} : Store.empty.Sound program where
  closures _ inside := absurd inside (Nat.not_lt_zero _)
  arrays _ _ present := by simp [Store.array, Store.empty] at present
  iterators _ := by
    simp only [Store.iterator, Store.empty]
    exact ⟨trivial, List.forall_mem_nil _⟩
  objects _ _ present := by
    simp only [Store.object, Store.empty] at present
    cases present
  cells _ := by
    simp only [Store.cell, Store.empty]
    trivial

theorem emptyRegistry {program : Program} (store : Store) :
    Registry.empty.Sound program store where
  callables function offered := by
    rcases offered with ⟨_, present, _⟩ | ⟨_, present, _⟩ <;> cases present
  statics _ present := by cases present

/-- A machine with room for ten values. -/
def machine (values : List Value) (ip base depth : Nat) (debug : List DebugContext) : Machine :=
  ⟨.ofList 10 values, ip, base, depth, debug, .empty⟩

theorem started : Started program 10 (machine [.int 0, .int 0] 0 0 1 []) :=
  @Started.entered program 10 .empty .empty "main" "main" [] [] _ (emptyRegistry _) emptyStore nofun
    rfl

theorem proceeds {before later : Machine} {instruction : Instruction}
    (found : program.instructions[before.ip]? = some instruction)
    (stepped : (step ⟨program, .empty⟩ instruction).run { before with ip := before.ip + 1 } =
      (.ok .next, later)) : Proceeds program before later :=
  .next (emptyRegistry _) found stepped

/-- The machine that is about to call. -/
theorem reachedCall :
    Reached program 10 (machine [.int 0, .int 0, .int 1] 3 0 1 [mainContext]) :=
  (((Reached.start started).proceed
    (@proceeds _ (machine [.int 0, .int 0] 1 0 1 []) _ rfl rfl)).proceed
    (@proceeds _ (machine [.int 0, .int 0] 2 0 1 [mainContext]) _ rfl rfl)).proceed
    (proceeds rfl rfl)

/-- The machine inside the call, before it reads the argument. -/
def inside : Machine :=
  machine [.int 0, .int 0, .int 1, .int 0, .int 4] 11 2 2 [sameContext, mainContext]

theorem reachedInside : Reached program 10 inside :=
  ((reachedCall.proceed
    (@proceeds _ (machine [.int 0, .int 0, .int 1, .int 0, .int 4] 9 2 2 [mainContext]) _ rfl
      rfl)).proceed
    (@proceeds _ (machine [.int 0, .int 0, .int 1, .int 0, .int 4] 10 2 2 [mainContext]) _ rfl
      rfl)).proceed
    (proceeds rfl rfl)

end Sample

theorem internal_faults_unreachable_sample : Sample.inside.Safe Sample.program :=
  (@internal_faults_unreachable Sample.program Sample.units [] ⟨10, false⟩ Sample.accepted
    (by decide) (by decide)).1 _ Sample.reachedInside

end ScriptMachine
