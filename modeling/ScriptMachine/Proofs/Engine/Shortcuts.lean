import ScriptMachine.Proofs.Engine.Stacks
import ScriptMachine.Proofs.Engine.Turns
import ScriptMachine.Proofs.Image.Bindings
import Mathlib.Data.List.Forall2

/-!
# Bindings are shortcuts

A call of the host that is bound looks for its function by name and signature, and takes it if it is
still the only one of its name; else the call chooses among all overloads, as it does when it is not
bound. Overloads only come behind those that are there. So a name has either one overload, and that
is the one that was bound, or more, and then the binding is not used. The marks on accesses to types
are not looked at while a program runs.

So a program and the same program bound go through the same turns, call by call, against every
registry that further registrations make.
-/

namespace ScriptMachine

/-! ## Bound instructions -/

namespace Instruction

variable {registry : Registry} {instruction bound : Instruction}

/-- Two instructions that read the same, or call the same function of the host by name. -/
inductive ReadsLike : Instruction → Instruction → Prop
  | same {first second : Instruction} (rendered : first.render = second.render) :
      ReadsLike first second
  | callHost (name : String) (argc : Nat) (first second : Option HostFunctionRef) :
      ReadsLike (.callHost name argc first) (.callHost name argc second)

/-- The instructions that binding changes, and how. -/
theorem bind?_eq_some (binds : instruction.bind? registry = some bound) :
    (∃ name argc only, registry.overloads name = [only] ∧ instruction = .callHost name argc none ∧
      bound = .callHost name argc (some only.reference)) ∨
    (∃ typeName name argc, instruction = .callStatic typeName name argc false ∧
      bound = .callStatic typeName name argc true) ∨
    (∃ typeName name, instruction = .loadStatic typeName name false ∧
      bound = .loadStatic typeName name true) := by
  unfold bind? at binds
  split at binds
  · split at binds
    · rename_i only sole
      exact .inl ⟨_, _, only, sole, rfl, (Option.some.inj binds).symm⟩
    · cases binds
  · split at binds
    · exact .inr (.inl ⟨_, _, _, rfl, (Option.some.inj binds).symm⟩)
    · cases binds
  · split at binds
    · exact .inr (.inr ⟨_, _, rfl, (Option.some.inj binds).symm⟩)
    · cases binds
  · cases binds

theorem readsLike_bind (registry : Registry) (instruction : Instruction) :
    ReadsLike instruction ((instruction.bind? registry).getD instruction) := by
  cases binds : instruction.bind? registry with
  | none => exact .same rfl
  | some bound =>
      rcases bind?_eq_some binds with
        ⟨name, argc, only, _, rfl, rfl⟩ | ⟨typeName, name, argc, rfl, rfl⟩ |
        ⟨typeName, name, rfl, rfl⟩
      · exact .callHost name argc none (some only.reference)
      · exact .same rfl
      · exact .same rfl

/-- What is bound is not bound again. -/
theorem bind?_bind (registry : Registry) (instruction : Instruction) :
    ((instruction.bind? registry).getD instruction).bind? registry = none := by
  cases binds : instruction.bind? registry with
  | none => exact binds
  | some bound =>
      rcases bind?_eq_some binds with
        ⟨name, argc, only, _, _, rfl⟩ | ⟨typeName, name, argc, _, rfl⟩ | ⟨typeName, name, _, rfl⟩
      all_goals rfl

end Instruction

namespace Program

theorem bind_bind (program : Program) (registry : Registry) :
    (program.bind registry).bind registry = program.bind registry := by
  simp [bind, Instruction.bind?_bind, Function.comp_def]

theorem bindableCount_bind (program : Program) (registry : Registry) :
    (program.bind registry).bindableCount registry = 0 := by
  simp [bindableCount, bind, Instruction.bind?_bind]

end Program

/-! ## Steps -/

section Steps

variable {registry later : Registry} {program : Program}

/-- A step looks only at the functions and the globals of its program. -/
theorem step_bindProgram (instruction : Instruction) :
    step ⟨program.bind registry, later⟩ instruction = step ⟨program, later⟩ instruction := by
  cases instruction <;> rfl

/-- A binding is taken where choosing among the overloads would come to the same function. -/
theorem step_callHost_bound (made : Registry.empty.Grows registry) (grows : registry.Grows later)
    {name : String} {only : HostFunction} (sole : registry.overloads name = [only]) (argc : Nat) :
    step ⟨program, later⟩ (.callHost name argc (some only.reference)) =
      step ⟨program, later⟩ (.callHost name argc none) := by
  have named : only.name = name := made.names (by rw [sole]; exact List.mem_cons_self)
  rcases grows.overloads name with ⟨more, overloads⟩
  rw [sole] at overloads
  have chosen : later.soleFunction? only.reference.name only.reference.signature =
      if more = [] then some only else none := by
    cases more with
    | nil => simp [Registry.soleFunction?, HostFunction.reference, named, overloads]
    | cons => simp [Registry.soleFunction?, HostFunction.reference, named, overloads]
  have resolved (store : Store) (args : List Value) :
      later.resolveFunction store name args = later.resolve store name (only :: more) args := by
    simp [Registry.resolveFunction, overloads]
  simp only [step, Option.bind_some, Option.bind_none, chosen, resolved]
  cases more with
  | nil => rfl
  | cons => rfl

theorem step_bind (made : Registry.empty.Grows registry) (grows : registry.Grows later)
    (program : Program) (instruction : Instruction) :
    step ⟨program.bind registry, later⟩ ((instruction.bind? registry).getD instruction) =
      step ⟨program, later⟩ instruction := by
  rw [step_bindProgram]
  cases binds : instruction.bind? registry with
  | none => rfl
  | some bound =>
      rcases Instruction.bind?_eq_some binds with
        ⟨name, argc, only, sole, rfl, rfl⟩ | ⟨typeName, name, argc, rfl, rfl⟩ |
        ⟨typeName, name, rfl, rfl⟩
      · exact step_callHost_bound made grows sole argc
      · rfl
      · rfl

end Steps

/-! ## Runs -/

/-- Two trace lines that differ in no more than what the instruction at the end is bound to. -/
def TraceReadsLike (first second : String) : Prop :=
  ∃ (front : String) (instruction other : Instruction), instruction.ReadsLike other ∧
    first = front ++ instruction.render ∧ second = front ++ other.render

/-- Two reports that differ in no more than what the failing instruction is bound to. -/
structure FaultReport.ReadsLike (first second : FaultReport) : Prop where
  fault : first.fault = second.fault
  instruction : Option.Rel Instruction.ReadsLike first.instruction second.instruction
  ip : first.ip = second.ip
  debugStack : first.debugStack = second.debugStack

/-- Two outcomes that differ in no more than what a failing instruction is bound to. -/
inductive TurnOutcome.ReadsLike : TurnOutcome → TurnOutcome → Prop
  | yielded (value : Value) : ReadsLike (.yielded value) (.yielded value)
  | completed (value : Value) : ReadsLike (.completed value) (.completed value)
  | faulted {first second : FaultReport} (alike : first.ReadsLike second) :
      ReadsLike (.faulted first) (.faulted second)
  | unfinished : ReadsLike .unfinished .unfinished

/-- The engine with its program bound. -/
def Engine.bind (engine : Engine) (registry : Registry) : Engine :=
  { engine with program := engine.program.bind registry }

/-- The second turn is the first with the program bound, and else differs in no more than what
instructions are bound to. -/
structure Turn.ReadsLike (registry : Registry) (first second : Turn) : Prop where
  outcome : first.outcome.ReadsLike second.outcome
  engine : second.engine = first.engine.bind registry
  store : second.store = first.store
  events : second.events = first.events
  trace : List.Forall₂ TraceReadsLike first.trace second.trace

namespace Engine

section Runs

variable {registry later : Registry} {program : Program} {engine : Engine}
  {trace other : List String}

/-- The trace is grown by the instruction that comes next. -/
def traceWith (traced : Option String) (machine : Machine) (instruction : Instruction)
    (trace : List String) : List String :=
  match traced with
  | none => trace
  | some entry => traceLine entry machine instruction :: trace

theorem readsLike_traceWith {first second : Instruction} (alike : first.ReadsLike second)
    (same : List.Forall₂ TraceReadsLike trace other) (traced : Option String) (machine : Machine) :
    List.Forall₂ TraceReadsLike (traceWith traced machine first trace)
      (traceWith traced machine second other) := by
  cases traced with
  | none => exact same
  | some entry => exact .cons ⟨_, first, second, alike, rfl, rfl⟩ same

theorem execute_bind (made : Registry.empty.Grows registry) (grows : registry.Grows later)
    (traced : Option String) (bound : Nat) (machine : Machine)
    (same : List.Forall₂ TraceReadsLike trace other) :
    let deferred := execute ⟨program, later⟩ traced bound machine trace
    let bound := execute ⟨program.bind registry, later⟩ traced bound machine other
    deferred.1.ReadsLike bound.1 ∧ deferred.2.1 = bound.2.1 ∧
      List.Forall₂ TraceReadsLike deferred.2.2 bound.2.2 := by
  induction bound generalizing machine trace other with
  | zero => exact ⟨.unfinished, rfl, same⟩
  | succ bound ih =>
      have fetched : (program.bind registry).instructions[machine.ip]? =
          program.instructions[machine.ip]?.map fun instruction =>
            (instruction.bind? registry).getD instruction := by
        simp [Program.bind]
      simp only [execute, fetched]
      cases program.instructions[machine.ip]? with
      | none => exact ⟨.faulted ⟨rfl, .none, rfl, rfl⟩, rfl, same⟩
      | some instruction =>
          have alike := Instruction.readsLike_bind registry instruction
          have grown := readsLike_traceWith alike same traced machine
          simp only [Option.map_some, step_bind made grows]
          rcases (step ⟨program, later⟩ instruction).run { machine with ip := machine.ip + 1 } with
            ⟨fault | control, after⟩
          · exact ⟨.faulted ⟨rfl, .some alike, rfl, rfl⟩, rfl, grown⟩
          · cases control with
            | next => exact ih after grown
            | yielded value => exact ⟨.yielded value, rfl, grown⟩
            | completed value => exact ⟨.completed value, rfl, grown⟩

theorem turnOf_readsLike {first second : TurnOutcome × Machine × List String}
    {events : List TelemetryEvent} (alike : first.1.ReadsLike second.1)
    (same : first.2.1 = second.2.1)
    (traces : List.Forall₂ TraceReadsLike first.2.2 second.2.2) :
    (engine.turnOf events first).ReadsLike registry
      ((engine.bind registry).turnOf events second) := by
  rcases first with ⟨outcome, machine, trace⟩
  rcases second with ⟨_, _, other⟩
  cases same
  have reversed := List.rel_reverse traces
  cases alike with
  | yielded value => exact ⟨.yielded value, rfl, rfl, rfl, reversed⟩
  | completed value => exact ⟨.completed value, rfl, rfl, rfl, reversed⟩
  | unfinished => exact ⟨.unfinished, rfl, rfl, rfl, reversed⟩
  | faulted alike =>
      refine ⟨.faulted alike, rfl, rfl, ?_, reversed⟩
      dsimp only [turnOf]
      rw [alike.fault]
      rfl

theorem run_bind (made : Registry.empty.Grows registry) (grows : registry.Grows later)
    (engine : Engine) (bound : Nat) (store : Store) (before : List TelemetryEvent) :
    (engine.run bound later store before).ReadsLike registry
      ((engine.bind registry).run bound later store before) := by
  rw [run_eq_turnOf, run_eq_turnOf]
  rcases @execute_bind registry later engine.program [] [] made grows
    (if engine.options.trace then some engine.entry else none) bound (engine.machine store) .nil with
    ⟨alike, same, traces⟩
  exact turnOf_readsLike alike same traces

theorem start_bind (made : Registry.empty.Grows registry) (grows : registry.Grows later)
    (ready : engine.state = .ready) (bound : Nat) (store : Store) (path : List String)
    (name : String) (args : List Value) :
    (engine.start bound later store path name args).ReadsLike registry
      ((engine.bind registry).start bound later store path name args) := by
  have entered : enter ⟨engine.program.bind registry, later⟩ (qualifiedName path name) path name
      args = enter ⟨engine.program, later⟩ (qualifiedName path name) path name args := rfl
  have bindStarts := @start_of_ready (engine.bind registry) bound later store path name args ready
  rw [start_of_ready ready, bindStarts]
  simp only [bind, machine, entered]
  rcases (enter ⟨engine.program, later⟩ (qualifiedName path name) path name args).run
    ⟨engine.stack, engine.ip, engine.base, engine.depth, engine.debugStack, store⟩ with
    ⟨fault | _, machine⟩
  · exact ⟨.faulted ⟨rfl, .none, rfl, rfl⟩, rfl, rfl, rfl, .nil⟩
  · exact run_bind made grows _ _ _ _

theorem resume_bind (made : Registry.empty.Grows registry) (grows : registry.Grows later)
    (suspended : engine.state = .suspended) (bound : Nat) (store : Store) :
    (engine.resume bound later store).ReadsLike registry
      ((engine.bind registry).resume bound later store) := by
  have bindResumes := @resume_of_suspended (engine.bind registry) bound later store suspended
  rw [resume_of_suspended suspended, bindResumes]
  exact run_bind made grows _ _ _ _

/-- A call of an engine whose program is bound comes to the same turn. -/
theorem turn_bind (made : Registry.empty.Grows registry) (engine : Engine) (call : EngineCall)
    (grows : registry.Grows call.registry) :
    (call.turn engine).ReadsLike registry (call.turn (engine.bind registry)) := by
  by_cases permitted : call.Permitted engine.state
  · cases call with
    | start => exact start_bind made grows permitted _ _ _ _ _
    | resume => exact resume_bind made grows permitted _ _
  · have alsoNot : ¬ call.Permitted (engine.bind registry).state := permitted
    rw [turn_of_not_permitted permitted, turn_of_not_permitted alsoNot]
    exact ⟨.faulted ⟨rfl, .none, rfl, rfl⟩, rfl, rfl, rfl, .nil⟩

theorem turns_bind (made : Registry.empty.Grows registry) (engine : Engine)
    (calls : List EngineCall) (grow : ∀ call ∈ calls, registry.Grows call.registry) :
    List.Forall₂ (Turn.ReadsLike registry) (engine.turns calls)
      ((engine.bind registry).turns calls) := by
  induction calls generalizing engine with
  | nil => exact .nil
  | cons call rest ih =>
      have alike := turn_bind made engine call (grow call List.mem_cons_self)
      have later := ih (call.turn engine).engine fun other present =>
        grow other (List.mem_cons_of_mem _ present)
      rw [← alike.engine] at later
      exact .cons alike later

/-- A program that is bound goes through the same turns, against every registry that further
registrations make; and binding it once more changes nothing. -/
theorem bound_runs_alike (made : Registry.empty.Grows registry) (program : Program)
    (options : RunOptions) (calls : List EngineCall)
    (grow : ∀ call ∈ calls, registry.Grows call.registry) :
    List.Forall₂ (Turn.ReadsLike registry) ((create program options).turns calls)
        ((create (program.bind registry) options).turns calls) ∧
      (program.bind registry).bind registry = program.bind registry ∧
      (program.bind registry).bindableCount registry = 0 :=
  ⟨turns_bind made (create program options) calls grow, program.bind_bind registry,
    program.bindableCount_bind registry⟩

end Runs

end Engine

namespace Sample

/-- A function of the host that tells the type that it takes. -/
def describing (type : String) : HostFunction :=
  .ofTypes "describe" [.named type] fun _ store => (.ok (.str type), store)

def numbersDescribed : Registry := Registry.empty.registerFunction (describing "float")

/-- A program that has a whole number described. -/
def describes : Program where
  instructions := #[.pushConst (.int 1), .callHost "describe" 1 none, .returnValue 0]
  namespaces := .mk [("main", ⟨0, 0⟩)] []
  globals := []
  metadata := []

/-- The program is run once the host has an overload for whole numbers too. -/
def describedLater : List EngineCall :=
  [.start 3 (numbersDescribed.registerFunction (describing "int")) .empty [] "main" []]

end Sample

open Sample in
theorem Engine.bound_runs_alike_described :
    describes.bindableCount numbersDescribed = 1 ∧
      List.Forall₂ (Turn.ReadsLike numbersDescribed)
        ((create describes ⟨10, true⟩).turns describedLater)
        ((create (describes.bind numbersDescribed) ⟨10, true⟩).turns describedLater) :=
  ⟨rfl,
    (bound_runs_alike (.function .refl (describing "float")) describes ⟨10, true⟩ describedLater
      (List.forall_mem_singleton.mpr (.function .refl (describing "int")))).1⟩

end ScriptMachine
