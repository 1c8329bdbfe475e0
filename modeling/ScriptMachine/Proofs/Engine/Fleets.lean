import ScriptMachine.Compiler.Basic
import ScriptMachine.Proofs.Engine.Parallel
import ScriptMachine.Proofs.Value.Pictures

/-!
# Engines that share a store

A host has any number of engines for one program, one host and one store, and calls them in whatever
order it likes. Each engine has a job, the function that it runs and the arguments. If the program
has no globals, the host is pure and no two jobs reach a common thing, every engine does what it
does when the others are never called.

To see this, each engine is run again on its own, in a store of its own. A pairing for each engine
joins the shared store to that engine's store. No two of them pair the same thing of the shared
store, so a turn of one engine leaves alone what the pairings of the others are about.
-/

namespace ScriptMachine

/-! ## Jobs and requests -/

/-- What an engine is to run. -/
structure Job where
  options : RunOptions
  path : List String
  name : String
  args : List Value

/-- What a host asks of an engine: to start or to go on, for so many instructions at most. -/
inductive Request where
  | start (bound : Nat)
  | resume (bound : Nat)

/-- The call that a request comes to. -/
def Job.call (job : Job) (registry : Registry) (store : Store) : Request → EngineCall
  | .start bound => .start bound registry store job.path job.name job.args
  | .resume bound => .resume bound registry store

@[simp] theorem Job.store_call (job : Job) (registry : Registry) (store : Store)
    (request : Request) : (job.call registry store request).store = store := by
  cases request <;> rfl

/-- The turns of an engine that is alone with its store. -/
def Engine.serve (registry : Registry) (job : Job) (engine : Engine) (store : Store) :
    List Request → List Turn
  | [] => []
  | request :: rest =>
      let turn := (job.call registry store request).turn engine
      turn :: turn.engine.serve registry job turn.store rest

/-- Engines that share a store. -/
structure Fleet (Name : Type) where
  engines : Name → Engine
  store : Store

namespace Fleet

variable {Name : Type} [DecidableEq Name]

/-- Engines that are ready for their jobs. -/
def ready (program : Program) (jobs : Name → Job) (store : Store) : Fleet Name :=
  ⟨fun name => .create program (jobs name).options, store⟩

/-- The turn of one of the engines. -/
def turn (fleet : Fleet Name) (registry : Registry) (jobs : Name → Job) (name : Name)
    (request : Request) : Turn :=
  ((jobs name).call registry fleet.store request).turn (fleet.engines name)

/-- The engines after a turn of one of them. -/
def after (fleet : Fleet Name) (name : Name) (turn : Turn) : Fleet Name :=
  ⟨Function.update fleet.engines name turn.engine, turn.store⟩

/-- The turns of engines that are called in some order. -/
def serve (registry : Registry) (jobs : Name → Job) (fleet : Fleet Name) :
    List (Name × Request) → List (Name × Turn)
  | [] => []
  | (name, request) :: rest =>
      let turn := fleet.turn registry jobs name request
      (name, turn) :: serve registry jobs (fleet.after name turn) rest

/-- What concerns one of the engines. -/
def concerning {α : Type} (name : Name) (entries : List (Name × α)) : List α :=
  entries.filterMap fun entry => if entry.1 = name then some entry.2 else none

end Fleet

/-! ## What is seen of a turn -/

/-- How a turn ended, with what its value holds. -/
inductive SeenOutcome where
  | yielded (picture : Picture)
  | completed (picture : Picture)
  | faulted (report : FaultReport)
  | unfinished

/-- What a host sees of a turn. -/
structure Sight where
  outcome : SeenOutcome
  state : EngineState
  events : List TelemetryEvent
  trace : List String

def TurnOutcome.seen (store : Store) (depth : Nat) : TurnOutcome → SeenOutcome
  | .yielded value => .yielded (value.picture store depth)
  | .completed value => .completed (value.picture store depth)
  | .faulted report => .faulted report
  | .unfinished => .unfinished

/-- What is seen of a turn, with values down to a depth. -/
def Turn.seen (depth : Nat) (turn : Turn) : Sight where
  outcome := turn.outcome.seen turn.store depth
  state := turn.engine.state
  events := turn.events
  trace := turn.trace

theorem TurnOutcome.Twins.seen {pairs : Pairing} {first second : Store}
    {outcome twin : TurnOutcome} (twins : outcome.Twins pairs twin)
    (joins : pairs.Joins first second) (depth : Nat) :
    outcome.seen first depth = twin.seen second depth := by
  cases twins with
  | yielded values => exact congrArg SeenOutcome.yielded (values.picture joins depth)
  | completed values => exact congrArg SeenOutcome.completed (values.picture joins depth)
  | faulted => rfl
  | unfinished => rfl

/-- Turns that are the same up to what their values refer to look the same. -/
theorem Turn.Twins.seen {pairs : Pairing} {first second : Turn} (twins : first.Twins pairs second)
    (depth : Nat) : first.seen depth = second.seen depth := by
  simp only [Turn.seen, twins.outcome.seen twins.joins depth, twins.engine.state, twins.events,
    twins.trace]

/-! ## Each engine on its own -/

/-- A request comes to calls that are the same up to what the arguments refer to. -/
theorem Job.call_twins {pairs : Pairing} {before other : Store} {job : Job} (registry : Registry)
    (request : Request) (joins : pairs.Joins before other)
    (args : List.Forall₂ (Value.Twins pairs) job.args job.args) :
    EngineCall.Twins pairs registry (job.call registry before request)
      (job.call registry other request) := by
  cases request with
  | start bound => exact .start bound job.path job.name joins args
  | resume bound => exact .resume bound joins

/-- An engine for a job, in a store that others may use too, and the same engine on its own. -/
structure Engine.Shadowed (program : Program) (job : Job) (pairs : Pairing) (engine : Engine)
    (store : Store) (alone : Engine × Store) : Prop where
  program : engine.program = program
  twins : engine.Twins pairs alone.1
  joins : pairs.Joins store alone.2
  args : List.Forall₂ (Value.Twins pairs) job.args job.args

namespace Engine.Shadowed

variable {program : Program} {registry : Registry} {job : Job} {pairs : Pairing} {engine : Engine}
  {store : Store} {alone : Engine × Store}

/-- In a turn of its own, an engine does what its shadow does. -/
theorem turn (shadowed : Shadowed program job pairs engine store alone)
    (globals : program.globals = []) (host : registry.Pure) (request : Request) :
    let turn := (job.call registry store request).turn engine
    let own := (job.call registry alone.2 request).turn alone.1
    ∃ later, pairs.Later later store turn.store ∧ turn.Twins later own ∧
      Shadowed program job later turn.engine turn.store (own.engine, own.store) := by
  have calls := Job.call_twins registry request shadowed.joins shadowed.args
  rcases shadowed.twins.turn (shadowed.program ▸ globals) host calls with ⟨later, goesOn, twins⟩
  rw [Job.store_call] at goesOn
  exact ⟨later, goesOn, twins, (Engine.program_turn _ _).trans shadowed.program, twins.engine,
    twins.joins, Value.Twins.monoAll goesOn.keeps shadowed.args⟩

/-- In the turn of another engine, nothing is changed that this engine's pairing is about. -/
theorem spared {after : Store} {others later : Pairing}
    (shadowed : Shadowed program job pairs engine store alone)
    (goesOn : others.Later later store after)
    (apart : ∀ {kind here there partner}, pairs kind here there → ¬others kind here partner) :
    Shadowed program job pairs engine after alone where
  program := shadowed.program
  twins := shadowed.twins
  joins.things paired := by
    rcases shadowed.joins.things paired with ⟨one, partner, found, foundOther, twins⟩
    exact ⟨one, partner, goesOn.frame found fun _ => apart paired, foundOther, twins⟩
  joins.one := shadowed.joins.one
  joins.back := shadowed.joins.back
  args := shadowed.args

end Engine.Shadowed

namespace Fleet

variable {Name : Type} [DecidableEq Name]

/-- Engines that share a store, each with a shadow, of which no two know a common thing. -/
structure Shadowed (program : Program) (jobs : Name → Job) (fleet : Fleet Name)
    (pairs : Name → Pairing) (alone : Name → Engine × Store) : Prop where
  each : ∀ name, (fleet.engines name).Shadowed program (jobs name) (pairs name) fleet.store
    (alone name)
  apart : ∀ {name other kind here there partner}, pairs name kind here there →
    pairs other kind here partner → name = other

variable {fleet : Fleet Name} {registry : Registry} {jobs : Name → Job} {program : Program}
  {pairs : Name → Pairing} {alone : Name → Engine × Store}

/-- A turn of one engine is a turn of its shadow, and all engines have shadows again. What the turn
has made is new in the shared store, so no other engine knows it. -/
theorem Shadowed.turn (shadowed : Shadowed program jobs fleet pairs alone)
    (globals : program.globals = []) (host : registry.Pure) (name : Name) (request : Request) :
    let turn := fleet.turn registry jobs name request
    let own := ((jobs name).call registry (alone name).2 request).turn (alone name).1
    ∃ later, turn.Twins later own ∧
      Shadowed program jobs (fleet.after name turn) (Function.update pairs name later)
        (Function.update alone name (own.engine, own.store)) := by
  intro turn own
  rcases (shadowed.each name).turn globals host request with ⟨later, goesOn, twins, shadowedOwn⟩
  have mine {other : Name} {kind : Kind} {here there partner : Nat}
      (paired : later kind here there) (pairedOther : pairs other kind here partner) :
      name = other := by
    rcases goesOn.fresh paired with old | new
    · exact shadowed.apart old pairedOther
    · exact absurd new ((shadowed.each other).joins.present pairedOther).1
  refine ⟨later, twins, ?_, ?_⟩
  · intro other
    by_cases same : other = name
    · subst same
      simp only [after, Function.update_self]
      exact shadowedOwn
    · simp only [after, Function.update_of_ne same]
      exact (shadowed.each other).spared goesOn fun paired known =>
        same (shadowed.apart paired known)
  · intro first second kind here there partner paired pairedOther
    by_cases one : first = name <;> by_cases two : second = name
    · exact one.trans two.symm
    · subst one
      rw [Function.update_self] at paired
      rw [Function.update_of_ne two] at pairedOther
      exact mine paired pairedOther
    · subst two
      rw [Function.update_of_ne one] at paired
      rw [Function.update_self] at pairedOther
      exact (mine pairedOther paired).symm
    · rw [Function.update_of_ne one] at paired
      rw [Function.update_of_ne two] at pairedOther
      exact shadowed.apart paired pairedOther

@[simp] theorem concerning_nil {α : Type} (name : Name) :
    concerning name ([] : List (Name × α)) = [] := rfl

@[simp] theorem concerning_self {α : Type} (name : Name) (entry : α) (rest : List (Name × α)) :
    concerning name ((name, entry) :: rest) = entry :: concerning name rest := by
  simp [concerning]

theorem concerning_other {α : Type} {name other : Name} (different : other ≠ name) (entry : α)
    (rest : List (Name × α)) : concerning name ((other, entry) :: rest) = concerning name rest := by
  simp [concerning, different]

/-- All turns of an engine among the others look as those of its shadow do. The induction is on the
requests, one turn at a time. -/
theorem Shadowed.serve (shadowed : Shadowed program jobs fleet pairs alone)
    (globals : program.globals = []) (host : registry.Pure) (requests : List (Name × Request))
    (name : Name) (depth : Nat) :
    (concerning name (fleet.serve registry jobs requests)).map (Turn.seen depth) =
      ((alone name).1.serve registry (jobs name) (alone name).2
        (concerning name requests)).map (Turn.seen depth) := by
  induction requests generalizing fleet pairs alone with
  | nil => rfl
  | cons entry rest ih =>
      rcases entry with ⟨called, request⟩
      rcases shadowed.turn globals host called request with ⟨later, twins, shadowedLater⟩
      have rests := ih shadowedLater
      rw [Fleet.serve]
      by_cases same : called = name
      · subst same
        rw [Function.update_self] at rests
        simp only [concerning_self, Engine.serve, List.map_cons]
        rw [twins.seen, rests]
      · rw [Function.update_of_ne (Ne.symm same)] at rests
        simp only [concerning_other same]
        exact rests

end Fleet

/-- Jobs of which each reaches its own things: everything that the arguments reach is in the store,
and no thing is reached from the arguments of two jobs. -/
structure Store.Separates {Name : Type} (store : Store) (jobs : Name → Job) : Prop where
  backs : ∀ name, store.Backs (jobs name).args
  apart : ∀ {name other kind index}, store.Reaches (jobs name).args kind index →
    store.Reaches (jobs other).args kind index → name = other

/-- Engines that are ready are shadowed by themselves. -/
theorem Store.Separates.shadowed {Name : Type} {store : Store} {jobs : Name → Job}
    (separates : store.Separates jobs) (program : Program) :
    Fleet.Shadowed program jobs (.ready program jobs store)
      (fun name => store.reached (jobs name).args)
      (fun name => (.create program (jobs name).options, store)) where
  each name := ⟨rfl, ⟨_, ⟨.nil, rfl⟩, rfl⟩, (separates.backs name).joins, Store.reached_self _⟩
  apart reached reachedOther := separates.apart reached.1 reachedOther.1

/-- Engines that share a program without globals, a pure host and a store do not disturb each
other. In whatever order they are started and resumed, each of them yields, completes and faults as
it does alone. -/
theorem engines_do_not_disturb {Name : Type} [DecidableEq Name] {program : Program}
    {registry : Registry} {store : Store} {jobs : Name → Job} (globals : program.globals = [])
    (host : registry.Pure) (separates : store.Separates jobs) (requests : List (Name × Request))
    (name : Name) (depth : Nat) :
    (Fleet.concerning name
        ((Fleet.ready program jobs store).serve registry jobs requests)).map (Turn.seen depth) =
      ((Engine.create program (jobs name).options).serve registry (jobs name) store
        (Fleet.concerning name requests)).map (Turn.seen depth) :=
  (separates.shadowed program).serve globals host requests name depth

/-! ## Two engines that fill their own arrays -/

namespace Sample

/-- A host function that puts its arguments into a new array. -/
def gather : HostFunction :=
  ⟨"gather", [⟨.any, false⟩], fun call store =>
    let (id, store) := store.allocArray call.args.toArray
    (.ok (.array id), store)⟩

def gatherHost : Registry := ⟨[("gather", [gather])], [], []⟩

/-- Wraps the first element of its argument, yields the argument, and returns what it has wrapped. -/
def wrapperUnit : ProgramUnit :=
  ⟨"wrapper", [],
    [⟨"main", ["list"],
      [.indexAssign (.var "list") (.literal (.int 0))
          (.call [] "gather" [.index (.var "list") (.literal (.int 0))]),
        .yieldValue (some (.var "list")),
        .returnValue (some (.index (.var "list") (.literal (.int 0))))], .nowhere⟩]⟩

def wrapper : Program where
  instructions := #[
    .allocFrame 0, .pushDebug ⟨"wrapper", "main", .nowhere⟩, .loadLocal 0, .pushConst (.int 0),
    .loadLocal 0, .pushConst (.int 0), .loadIndex, .callHost "gather" 1 none, .storeIndex,
    .loadLocal 0, .yieldValue, .loadLocal 0, .pushConst (.int 0), .loadIndex, .popDebug,
    .returnValue 1, .pushConst .unit, .popDebug, .returnValue 1]
  namespaces := .mk [("main", ⟨0, 1⟩)] []
  globals := []
  metadata := [("compiler", compilerName), ("units", "wrapper")]

theorem wrapper_accepted : compileUnits [wrapperUnit] [] = .ok wrapper := rfl

/-- A store with an array for each engine. -/
def wrapperStore : Store := { Store.empty with arrays := #[#[.int 1], #[.int 2]] }

def wrapperJobs (second : Bool) : Job :=
  ⟨⟨16, false⟩, [], "main", [.array ⟨second.toNat⟩]⟩

def wrapperRequests : List (Bool × Request) :=
  [(false, .start 20), (true, .start 20), (false, .resume 20), (true, .resume 20)]

theorem gather_pure : HostBody.Pure gather.body := by
  intro pairs first second call twin joins twins
  have new : first.thing? .array first.arrays.size = none := Store.thing?_size.1
  have puts := @Store.puts_allocArray first call.args.toArray
  rcases joins.add new Store.thing?_size.1 puts (Store.puts_allocArray twin.args.toArray)
    (.array twins.args) with ⟨joinsLater, goesOn⟩
  refine ⟨_, joinsLater, ⟨goesOn.keeps, goesOn.fresh, ?_⟩, .ok (.array (.inr ⟨rfl, rfl, rfl⟩))⟩
  intro kind here thing found
  refine (puts kind here).trans ((if_neg ?_).trans found)
  rintro ⟨rfl, rfl⟩
  cases new.symm.trans found

theorem gatherHost_pure : gatherHost.Pure where
  callables function offered := by
    rcases offered with ⟨entry, present, among⟩ | ⟨entry, present, -⟩
    · cases List.mem_singleton.mp present
      cases List.mem_singleton.mp among
      exact gather_pure
    · cases present
  statics _ present := by cases present

theorem wrapperStore_reaches {second : Bool} {kind : Kind} {index : Nat}
    (reached : wrapperStore.Reaches (wrapperJobs second).args kind index) :
    kind = .array ∧ index = second.toNat := by
  induction reached with
  | given among refers =>
      cases List.mem_singleton.mp among
      cases refers
      exact ⟨rfl, rfl⟩
  | held _ found among refers ih =>
      rcases ih with ⟨rfl, rfl⟩
      cases second
      all_goals
        cases found
        cases List.mem_singleton.mp among
        cases refers

theorem wrapperStore_separates : wrapperStore.Separates wrapperJobs where
  backs second kind index reached := by
    rcases wrapperStore_reaches reached with ⟨rfl, rfl⟩
    cases second <;> exact ⟨_, rfl⟩
  apart {first second _ _} reached reachedOther := by
    have same := (wrapperStore_reaches reached).2.symm.trans (wrapperStore_reaches reachedOther).2
    revert same
    cases first <;> cases second <;> decide

/-- The turns of the second engine on its own, with the arrays that their values refer to. -/
theorem wrapper_alone :
    (Engine.serve gatherHost (wrapperJobs true) (Engine.create wrapper (wrapperJobs true).options)
        wrapperStore (Fleet.concerning true wrapperRequests)).map
      (fun turn => (turn.outcome, turn.store.array ⟨1⟩, turn.store.array ⟨2⟩)) =
        [(.yielded (.array ⟨1⟩), #[.array ⟨2⟩], #[.int 2]),
          (.completed (.array ⟨2⟩), #[.array ⟨2⟩], #[.int 2])] := by
  decide +kernel

end Sample

/-- Both engines are started before either goes on. The second one yields and returns what it has
wrapped itself. -/
theorem engines_do_not_disturb_wrapper :
    compileUnits [Sample.wrapperUnit] [] = .ok Sample.wrapper ∧
      ((Fleet.concerning true
        ((Fleet.ready Sample.wrapper Sample.wrapperJobs Sample.wrapperStore).serve Sample.gatherHost
          Sample.wrapperJobs Sample.wrapperRequests)).map (Turn.seen 3)).map Sight.outcome =
        [.yielded (.array [.array [.plain (.int 2)]]), .completed (.array [.plain (.int 2)])] := by
  refine ⟨Sample.wrapper_accepted, ?_⟩
  rw [@engines_do_not_disturb _ _ Sample.wrapper _ _ _ rfl Sample.gatherHost_pure
    Sample.wrapperStore_separates]
  rcases List.map_eq_cons_iff.mp Sample.wrapper_alone with ⟨first, rest, turns, yields, others⟩
  rcases List.map_eq_singleton_iff.mp others with ⟨second, rfl, completes⟩
  simp only [Prod.mk.injEq] at yields completes
  rw [turns]
  simp [Turn.seen, TurnOutcome.seen, Value.picture, yields, completes]

end ScriptMachine
