import Mathlib.Data.List.Nodup
import ScriptMachine.Proofs.Balance.Runs
import ScriptMachine.Proofs.Engine.Turns
import ScriptMachine.Proofs.Engine.Writes

/-!
# Slots of globals and their cells

A global of a program lives twice: in a cell of the host and in a slot at the bottom of the stack. An
engine copies the cells into the slots when it enters a function, and from then on every store to a
global goes to both places. So the two agree for as long as nobody else writes the cells.

The argument has two halves. Nothing but a store to a global touches the globals of a tower, which is
read off the ways in which a step can change it. And nothing but a store to a global touches the
cells, which holds of every write that an effect can make, because an instruction that stores to no
global behaves as if the host had none.
-/

namespace ScriptMachine

/-! ## Cells -/

namespace Store

/-- What stands in the cell of a global. -/
def global? (store : Store) (cells : Dictionary CellId) (name : String) : Option Value :=
  (cells.find? name).map store.cell

/-- A store with the cells of globals in it, a different one for each name. -/
structure Houses (store : Store) (cells : Dictionary CellId) : Prop where
  inside : ∀ name id, cells.find? name = some id → id.index < store.cells.size
  apart : ∀ name other id other', cells.find? name = some id → cells.find? other = some other' →
    id.index = other'.index → name = other

/-- A change of the store that leaves the cells of some globals alone. -/
structure SparesGlobals (cells : Dictionary CellId) (names : List String)
    (before after : Store) : Prop where
  grows : before.cells.size ≤ after.cells.size
  kept : ∀ name ∈ names, after.global? cells name = before.global? cells name

variable {cells : Dictionary CellId} {names : List String} {before middle after : Store}

theorem SparesGlobals.ofCells (same : after.cells = before.cells) :
    SparesGlobals cells names before after := by
  constructor
  · exact Nat.le_of_eq (congrArg Array.size same).symm
  · intro name _
    have cell : after.cell = before.cell := funext fun id => by simp only [Store.cell, same]
    rw [global?, global?, cell]

theorem SparesGlobals.trans (first : SparesGlobals cells names before middle)
    (second : SparesGlobals cells names middle after) : SparesGlobals cells names before after where
  grows := Nat.le_trans first.grows second.grows
  kept name member := (second.kept name member).trans (first.kept name member)

theorem Houses.mono (houses : before.Houses cells) (grows : before.cells.size ≤ after.cells.size) :
    after.Houses cells where
  inside name id found := Nat.lt_of_lt_of_le (houses.inside name id found) grows
  apart := houses.apart

/-- Writing the cell of one global. -/
theorem Houses.global?_setCell (houses : before.Houses cells) {name other : String} {id : CellId}
    (found : cells.find? name = some id) (value : Value) :
    (before.setCell id value).global? cells other =
      if other = name then some value else before.global? cells other := by
  have inside := houses.inside name id found
  by_cases same : other = name
  · subst other
    simp [global?, found, cell_setCell, inside]
  · rw [if_neg same]
    cases there : cells.find? other with
    | none => simp [global?, there]
    | some id' =>
        have differ : id'.index ≠ id.index := fun here =>
          same (houses.apart other name id' id there found here)
        simp [global?, there, cell_setCell, differ]

end Store

/-- A host that keeps some globals in given cells and none of whose callables writes them. -/
structure Registry.SparesGlobals (registry : Registry) (cells : Dictionary CellId)
    (names : List String) : Prop where
  shares : ∀ name ∈ names, registry.globals.find? name = cells.find? name
  callables : ∀ function, registry.Offers function → ∀ call store,
    Store.SparesGlobals cells names store (function.body call store).2

section Steps

variable {program : Program} {registry : Registry} {cells : Dictionary CellId}
  {names : List String} {instruction : Instruction}

/-- An instruction that stores to no global does not look at the globals of the host. -/
theorem step_withoutGlobals (other : ∀ slot, instruction ≠ .storeGlobal slot) :
    step ⟨program, registry⟩ instruction =
      step ⟨program, { registry with globals := [] }⟩ instruction := by
  cases instruction with
  | storeGlobal slot => exact absurd rfl (other slot)
  | _ => rfl

/-- An instruction that stores to no global leaves their cells alone. -/
theorem Registry.SparesGlobals.step (spares : registry.SparesGlobals cells names)
    (other : ∀ slot, instruction ≠ .storeGlobal slot) (machine : Machine) :
    Store.SparesGlobals cells names machine.store
      ((ScriptMachine.step ⟨program, registry⟩ instruction).run machine).2.store := by
  rw [step_withoutGlobals other]
  refine Store.Respected.step ⟨fun _ => .ofCells rfl, .trans, ?_⟩ instruction machine
  intro before after written
  cases written with
  | host call offered => exact spares.callables _ offered call before
  | cell found value => cases found
  | _ => exact .ofCells rfl

end Steps

/-! ## Towers -/

/-- The globals at the bottom of a tower are what stands in their cells. -/
structure Tower.Mirrors (tower : Tower) (program : Program) (cells : Dictionary CellId)
    (store : Store) : Prop where
  slots : tower.globals.map some = program.globals.map (store.global? cells)
  houses : store.Houses cells

/-- Each slot of a global holds what stands in the cell of the global. -/
def Machine.MirrorsGlobals (program : Program) (cells : Dictionary CellId)
    (machine : Machine) : Prop :=
  ∀ (index : Nat) (name : String), program.globals[index]? = some name →
    ∃ value, machine.store.global? cells name = some value ∧
      machine.stack.items[index]? = some value

section Towers

variable {program : Program} {registry : Registry} {cells : Dictionary CellId} {tower next : Tower}
  {store later : Store} {instruction : Instruction} {machine after : Machine}

theorem Tower.Mirrors.mirrorsGlobals (mirrors : tower.Mirrors program cells machine.store)
    {rest : List Value} (stack : machine.stack.items.toList = tower.globals ++ rest) :
    machine.MirrorsGlobals program cells := by
  intro index name named
  have there : (tower.globals.map some)[index]? = some (machine.store.global? cells name) := by
    rw [mirrors.slots, List.getElem?_map, named]
    rfl
  rw [List.getElem?_map] at there
  rcases Option.map_eq_some_iff.mp there with ⟨value, slot, same⟩
  refine ⟨value, same.symm, ?_⟩
  rw [← Array.getElem?_toList, stack]
  exact List.getElem?_append_left (List.getElem?_eq_some_iff.mp slot).1 ▸ slot

theorem Tower.Mirrors.spared (mirrors : tower.Mirrors program cells store)
    (spared : store.SparesGlobals cells program.globals later) :
    tower.Mirrors program cells later where
  slots := by
    rw [mirrors.slots]
    exact List.map_congr_left fun name member => (spared.kept name member).symm
  houses := mirrors.houses.mono spared.grows

/-- A store to a global goes to its slot and its cell. -/
theorem Tower.Mirrors.stored (distinct : program.globals.Nodup)
    (shares : ∀ name ∈ program.globals, registry.globals.find? name = cells.find? name)
    (mirrors : tower.Mirrors program cells store) {slot : Nat} (inside : slot < tower.globals.length)
    (value : Value) {active : Activation} {callers : List Activation} :
    Tower.Mirrors ⟨tower.globals.set slot value, active, callers⟩ program cells
      (Effect.storeGlobal registry program.globals[slot]? value store).2 := by
  have length : tower.globals.length = program.globals.length := by
    simpa using congrArg List.length mirrors.slots
  have named : slot < program.globals.length := length ▸ inside
  have found : (tower.globals.map some)[slot]? =
      some (store.global? cells program.globals[slot]) := by
    rw [mirrors.slots, List.getElem?_map, List.getElem?_eq_getElem named]
    rfl
  rw [List.getElem?_map, List.getElem?_eq_getElem inside] at found
  rcases Option.map_eq_some_iff.mp (Option.some.inj found).symm with ⟨id, registered, _⟩
  have here : registry.globals.find? program.globals[slot] = some id :=
    (shares _ (List.getElem_mem named)).trans registered
  have written : (Effect.storeGlobal registry program.globals[slot]? value store).2 =
      store.setCell id value := by
    simp [Effect.storeGlobal, List.getElem?_eq_getElem named, Registry.setGlobal?, here]
  rw [written]
  refine ⟨?_, mirrors.houses.mono (by simp [Store.setCell])⟩
  apply List.ext_getElem?
  intro index
  have pointwise : (tower.globals.map some)[index]? =
      (program.globals.map (store.global? cells))[index]? := by rw [mirrors.slots]
  simp only [List.getElem?_map, List.getElem?_set] at pointwise ⊢
  by_cases same : slot = index
  · subst index
    rw [if_pos rfl, if_pos inside, List.getElem?_eq_getElem named]
    simp [mirrors.houses.global?_setCell registered]
  · rw [if_neg same, pointwise]
    refine Option.map_congr fun name present => ?_
    have differ : name ≠ program.globals[slot] := by
      rintro rfl
      rcases List.getElem?_eq_some_iff.mp present with ⟨bound, repeated⟩
      exact same (distinct.getElem_inj_iff.mp repeated).symm
    rw [mirrors.houses.global?_setCell registered, if_neg differ]

theorem Tower.stack_machine {capacity ip : Nat} {debug : List DebugContext} :
    (tower.machine capacity ip debug store).stack.items.toList = tower.globals ++
      (content tower.callers ++ tower.active.slots ++ tower.active.operands) := by
  simp [Tower.machine, Tower.values, Tower.floor]

theorem Machine.Tall.stack {chart : Chart} {capacity : Nat}
    (tall : machine.Tall program chart capacity tower) :
    machine.stack.items.toList = tower.globals ++
      (content tower.callers ++ tower.active.slots ++ tower.active.operands) := by
  rw [tall.1]
  exact Tower.stack_machine

/-- What a step changes leaves globals and cells in agreement. -/
theorem Change.mirrors {behind there : Nat} {debug further : List DebugContext}
    (distinct : program.globals.Nodup) (spares : registry.SparesGlobals cells program.globals)
    (change : Change ⟨program, registry⟩ tower behind debug store instruction next there further
      later)
    (spared : (∀ slot, instruction ≠ .storeGlobal slot) →
      store.SparesGlobals cells program.globals later)
    (mirrors : tower.Mirrors program cells store) : next.Mirrors program cells later := by
  cases change with
  | storeGlobal operands inside => exact mirrors.stored distinct spares.shares inside _
  | works operands works =>
      have kept := mirrors.spared (spared fun slot same => by subst same; cases works)
      exact ⟨kept.slots, kept.houses⟩
  | call _ operands calls =>
      have kept := mirrors.spared (spared fun slot same => by subst same; cases calls)
      exact ⟨kept.slots, kept.houses⟩
  | _ => exact ⟨mirrors.slots, mirrors.houses⟩

/-! ## Runs -/

/-- A run during which only its own stores to globals write the cells of its globals. The host may
change between two steps, as long as it keeps the globals in the same cells. -/
inductive Undisturbed (program : Program) (capacity : Nat) (cells : Dictionary CellId) :
    Machine → Prop
  | start {registry : Registry} {store : Store} {entry name : String} {path : List String}
      {args : List Value} {machine : Machine} (hosts : registry.Sound program store)
      (sound : store.Sound program) (known : ∀ value ∈ args, value.Known store)
      (spares : registry.SparesGlobals cells program.globals) (houses : store.Houses cells)
      (entered : (Engine.enter ⟨program, registry⟩ entry path name args).run
        ⟨.ofCapacity capacity, 0, 0, 0, [], store⟩ = (.ok (), machine)) :
      Undisturbed program capacity cells machine
  | next {registry : Registry} {machine later : Machine} {instruction : Instruction}
      (undisturbed : Undisturbed program capacity cells machine)
      (hosts : registry.Sound program machine.store)
      (spares : registry.SparesGlobals cells program.globals)
      (found : program.instructions[machine.ip]? = some instruction)
      (stepped : (step ⟨program, registry⟩ instruction).run { machine with ip := machine.ip + 1 } =
        (.ok .next, later)) :
      Undisturbed program capacity cells later
  | resumed {registry : Registry} {machine later : Machine} {instruction : Instruction}
      {value : Value} {store : Store} (undisturbed : Undisturbed program capacity cells machine)
      (hosts : registry.Sound program machine.store)
      (spares : registry.SparesGlobals cells program.globals)
      (found : program.instructions[machine.ip]? = some instruction)
      (stepped : (step ⟨program, registry⟩ instruction).run { machine with ip := machine.ip + 1 } =
        (.ok (.yielded value), later))
      (follows : later.store.Follows program store)
      (spared : later.store.SparesGlobals cells program.globals store) :
      Undisturbed program capacity cells { later with store := store }

theorem Undisturbed.reached {capacity : Nat} (undisturbed : Undisturbed program capacity cells machine) :
    Reached program capacity machine := by
  induction undisturbed with
  | start hosts sound known spares houses entered =>
      exact .start (.entered hosts sound known entered)
  | next _ hosts spares found stepped ih => exact ih.proceed (.next hosts found stepped)
  | resumed _ hosts spares found stepped follows spared ih =>
      exact ih.proceed (.resumed hosts found stepped follows)

/-- A store to a global always goes on. -/
theorem Machine.Tall.storesGlobal {chart : Chart} {capacity : Nat} (charted : program.Charted chart)
    (tall : machine.Tall program chart capacity tower) {slot : Nat}
    (found : program.instructions[machine.ip]? = some (.storeGlobal slot)) :
    ∃ later, (step ⟨program, registry⟩ (.storeGlobal slot)).run
      { machine with ip := machine.ip + 1 } = (.ok .next, later) := by
  rcases tall with ⟨same, holds⟩
  rcases holds.here with ⟨point, here, stands⟩
  rcases charted.checked _ _ point here with ⟨_, next, there, checked, _⟩
  cases found.symm.trans there
  cases checked with
  | plain effect => cases effect
  | storeGlobal valid =>
      rcases stands.2.1 with ⟨below, value, operands, _, _⟩
      have inside : slot < (tower.floor ++ below).length := by
        have globals := Nat.lt_of_lt_of_eq valid holds.globals.symm
        simp only [Tower.floor, List.length_append]
        omega
      rw [same, Tower.machine_of_operands operands]
      exact ⟨_, step_storeGlobal inside⟩

section Bounded

variable {chart : Chart} {capacity : Nat} (charted : program.Charted chart)
  (bounded : capacity ≤ twoTo 63) (small : program.size < twoTo 63)

include charted bounded small

/-- Whatever a step comes to, globals and cells agree behind it. If the run goes on, there is a tower
again. -/
theorem Tower.Mirrors.step (distinct : program.globals.Nodup)
    (tall : machine.Tall program chart capacity tower)
    (mirrors : tower.Mirrors program cells machine.store)
    (hosts : registry.Sound program machine.store)
    (spares : registry.SparesGlobals cells program.globals)
    (found : program.instructions[machine.ip]? = some instruction)
    {result : Except RuntimeFault Control}
    (stepped : (ScriptMachine.step ⟨program, registry⟩ instruction).run
      { machine with ip := machine.ip + 1 } = (result, after)) :
    after.MirrorsGlobals program cells ∧
      (result = .ok .next ∨ (∃ value, result = .ok (.yielded value)) →
        ∃ next, after.Tall program chart capacity next ∧
          next.Mirrors program cells after.store) := by
  have spared : (∀ slot, instruction ≠ .storeGlobal slot) →
      machine.store.SparesGlobals cells program.globals after.store := by
    intro other
    have kept := @Registry.SparesGlobals.step program registry cells _ instruction spares other
      { machine with ip := machine.ip + 1 }
    rwa [stepped] at kept
  have goesOn : result ≠ .ok .next → machine.store.SparesGlobals cells program.globals after.store := by
    intro stops
    apply spared
    rintro slot rfl
    rcases @Machine.Tall.storesGlobal _ registry _ _ _ _ charted tall slot found with ⟨later, goes⟩
    rw [stepped] at goes
    exact stops (Prod.mk.inj goes).1
  rcases tall.outcome charted bounded small hosts with ⟨_, here, outcome⟩
  cases found.symm.trans here
  rw [stepped] at outcome
  cases outcome with
  | goes holds follows change =>
      have kept := change.mirrors distinct spares spared mirrors
      exact ⟨kept.mirrorsGlobals Tower.stack_machine, fun _ => ⟨_, ⟨rfl, holds⟩, kept⟩⟩
  | yields holds follows change =>
      have kept := change.mirrors distinct spares spared mirrors
      exact ⟨kept.mirrorsGlobals Tower.stack_machine, fun _ => ⟨_, ⟨rfl, holds⟩, kept⟩⟩
  | completes outermost stack =>
      refine ⟨(mirrors.spared (goesOn nofun)).mirrorsGlobals (by rw [stack]; rfl), ?_⟩
      rintro (impossible | ⟨_, impossible⟩) <;> cases impossible
  | faults ordinary stops =>
      rcases stops.stack with ⟨more, stack⟩
      refine ⟨(mirrors.spared (goesOn nofun)).mirrorsGlobals (by
        rw [stack, ValueStack.toList_items_ofList, Tower.floor, List.append_assoc,
          List.append_assoc]), ?_⟩
      rintro (impossible | ⟨_, impossible⟩) <;> cases impossible

/-- Every machine of an undisturbed run has a tower whose globals agree with their cells. -/
theorem Undisturbed.mirrors (distinct : program.globals.Nodup)
    (undisturbed : Undisturbed program capacity cells machine) :
    ∃ tower, machine.Tall program chart capacity tower ∧
      tower.Mirrors program cells machine.store := by
  induction undisturbed with
  | @start registry store entry name path args machine hosts sound known spares houses entered =>
      rcases Started.tall charted (.entered hosts sound known entered) with ⟨tower, tall⟩
      refine ⟨tower, tall, ?_, ?_⟩
      · rcases enter_ok entered with ⟨function, globals, found, arity, named, room, rfl⟩
        have length : tower.globals.length = globals.length := by
          rw [tall.2.globals]
          simpa using congrArg List.length named
        have stack := tall.stack
        simp only [ValueStack.toList_items_ofList, List.append_assoc] at stack
        rw [← (List.append_inj stack length.symm).1, ← named]
        refine List.map_congr_left fun name member => ?_
        simp [Registry.global?, Store.global?, spares.shares name member]
      · rcases enter_ok entered with ⟨_, _, _, _, _, _, rfl⟩
        exact houses
  | next _ hosts spares found stepped ih =>
      rcases ih with ⟨tower, tall, mirrors⟩
      exact (mirrors.step charted bounded small distinct tall hosts spares found stepped).2 (.inl rfl)
  | resumed _ hosts spares found stepped follows spared ih =>
      rcases ih with ⟨tower, tall, mirrors⟩
      rcases (mirrors.step charted bounded small distinct tall hosts spares found stepped).2
        (.inr ⟨_, rfl⟩) with ⟨next, ⟨same, holds⟩, kept⟩
      refine ⟨next, ⟨?_, holds.hostActs follows⟩, kept.spared spared⟩
      rw [same]
      rfl

/-- A step that stores to no global leaves the slots of the globals as they are. -/
theorem Machine.Tall.globals_kept (tall : machine.Tall program chart capacity tower)
    (hosts : registry.Sound program machine.store)
    (found : program.instructions[machine.ip]? = some instruction)
    (other : ∀ slot, instruction ≠ .storeGlobal slot) {result : Except RuntimeFault Control}
    (stepped : (ScriptMachine.step ⟨program, registry⟩ instruction).run
      { machine with ip := machine.ip + 1 } = (result, after)) {index : Nat}
    (inside : index < program.globals.length) :
    after.stack.items[index]? = machine.stack.items[index]? := by
  have bottom : ∀ (values rest : List Value), values.length = program.globals.length →
      (values ++ rest)[index]? = values[index]? := fun values rest length =>
    List.getElem?_append_left (length ▸ inside)
  have before : machine.stack.items[index]? = tower.globals[index]? := by
    rw [← Array.getElem?_toList, tall.stack]
    exact bottom _ _ tall.2.globals
  have above : ∀ rest, after.stack = .ofList capacity (tower.globals ++ rest) →
      after.stack.items[index]? = machine.stack.items[index]? := by
    intro rest stack
    rw [before, stack, ← Array.getElem?_toList]
    exact bottom _ _ tall.2.globals
  have kept : ∀ {next there debug further store later}, Change ⟨program, registry⟩ tower
      (machine.ip + 1) debug store instruction next there further later →
      next.globals = tower.globals := by
    intro next there debug further store later change
    cases change with
    | storeGlobal => exact absurd rfl (other _)
    | _ => rfl
  rcases tall.outcome charted bounded small hosts with ⟨_, here, outcome⟩
  cases found.symm.trans here
  rw [stepped] at outcome
  cases outcome with
  | goes holds follows change =>
      rw [before, ← kept change, ← Array.getElem?_toList, Tower.stack_machine]
      exact bottom _ _ holds.globals
  | yields holds follows change =>
      rw [before, ← kept change, ← Array.getElem?_toList, Tower.stack_machine]
      exact bottom _ _ holds.globals
  | completes outermost stack => exact above _ stack
  | faults ordinary stops =>
      rcases stops.stack with ⟨more, stack⟩
      apply above (content tower.callers ++ tower.active.slots ++ more)
      rw [stack]
      simp [Tower.floor]

end Bounded

end Towers

/-! ## Engines -/

/-- The turns of an engine that has got under way, while nobody but the engine writes the cells of
its globals: a start that enters its function and any number of resumptions. -/
inductive Engine.UndisturbedSession (program : Program) (options : RunOptions)
    (cells : Dictionary CellId) : Turn → Prop
  | start {bound : Nat} {registry : Registry} {store : Store} {path : List String} {name : String}
      {args : List Value} {machine : Machine} (hosts : registry.Sound program store)
      (sound : store.Sound program) (known : ∀ value ∈ args, value.Known store)
      (spares : registry.SparesGlobals cells program.globals) (houses : store.Houses cells)
      (entered : (enter ⟨program, registry⟩ (qualifiedName path name) path name args).run
        ((create program options).machine store) = (.ok (), machine)) :
      UndisturbedSession program options cells
        ((create program options).start bound registry store path name args)
  | resume {turn : Turn} {bound : Nat} {registry : Registry} {store : Store}
      (session : UndisturbedSession program options cells turn)
      (follows : turn.store.Follows program store)
      (spared : turn.store.SparesGlobals cells program.globals store)
      (hosts : registry.Sound program store)
      (spares : registry.SparesGlobals cells program.globals) :
      UndisturbedSession program options cells (turn.engine.resume bound registry store)

/-- A turn behind which globals and cells agree, and which an undisturbed run goes on from. -/
structure Turn.Mirrors (turn : Turn) (program : Program) (options : RunOptions)
    (cells : Dictionary CellId) : Prop where
  sameProgram : turn.engine.program = program
  mirrors : (turn.engine.machine turn.store).MirrorsGlobals program cells
  suspended : turn.engine.state = .suspended → ∀ store, turn.store.Follows program store →
    turn.store.SparesGlobals cells program.globals store →
    Undisturbed program options.stackCapacity cells (turn.engine.machine store)

theorem Machine.MirrorsGlobals.spared {program : Program} {cells : Dictionary CellId}
    {machine : Machine} {store : Store} (mirrors : machine.MirrorsGlobals program cells)
    (spared : machine.store.SparesGlobals cells program.globals store) :
    Machine.MirrorsGlobals program cells { machine with store := store } := by
  intro index name named
  rcases mirrors index name named with ⟨value, cell, slot⟩
  exact ⟨value, (spared.kept name (List.mem_of_getElem? named)).trans cell, slot⟩

section Engines

variable {program : Program} {chart : Chart} {options : RunOptions} {cells : Dictionary CellId}
  (charted : program.Charted chart) (bounded : options.stackCapacity ≤ twoTo 63)
  (small : program.size < twoTo 63) (distinct : program.globals.Nodup)

include charted bounded small distinct

theorem Engine.mirrors_run {engine : Engine} {registry : Registry} {store : Store} (bound : Nat)
    (events : List TelemetryEvent) (sameProgram : engine.program = program)
    (running : engine.state = .running)
    (undisturbed : Undisturbed program options.stackCapacity cells (engine.machine store))
    (hosts : registry.Sound program store)
    (spares : registry.SparesGlobals cells program.globals) :
    (engine.run bound registry store events).Mirrors program options cells := by
  subst sameProgram
  let traced := if engine.options.trace then some engine.entry else none
  have ends := @Engine.execute_ends ⟨engine.program, registry⟩
    (fun machine => Undisturbed engine.program options.stackCapacity cells machine ∧
      registry.Sound engine.program machine.store) traced ?keeps bound _ [] ⟨undisturbed, hosts⟩
  case keeps =>
    rintro before instruction later ⟨undisturbed, hosts⟩ found stepped
    refine ⟨undisturbed.next hosts spares found stepped, ?_⟩
    rcases undisturbed.reached.tall charted bounded small with ⟨tower, tall⟩
    rcases tall.outcome charted bounded small hosts with ⟨_, here, outcome⟩
    cases found.symm.trans here
    rw [stepped] at outcome
    cases outcome with
    | goes holds follows change => exact hosts.mono follows.grows
  have behind : ∀ {before later : Machine} {instruction : Instruction}
      {result : Except RuntimeFault Control},
      Undisturbed engine.program options.stackCapacity cells before →
      registry.Sound engine.program before.store →
      engine.program.instructions[before.ip]? = some instruction →
      (step ⟨engine.program, registry⟩ instruction).run { before with ip := before.ip + 1 } =
        (result, later) → later.MirrorsGlobals engine.program cells := by
    intro before later instruction result undisturbed hosts found stepped
    rcases undisturbed.mirrors charted bounded small distinct with ⟨tower, tall, mirrors⟩
    exact (mirrors.step charted bounded small distinct tall hosts spares found stepped).1
  have here : ∀ {machine : Machine}, Undisturbed engine.program options.stackCapacity cells machine →
      machine.MirrorsGlobals engine.program cells := by
    intro machine undisturbed
    rcases undisturbed.mirrors charted bounded small distinct with ⟨tower, tall, mirrors⟩
    exact mirrors.mirrorsGlobals tall.stack
  rw [Engine.run_eq_turnOf]
  rcases executed : Engine.execute ⟨engine.program, registry⟩ traced bound (engine.machine store) []
    with ⟨outcome, machine, trace⟩
  rw [executed] at ends
  dsimp only at ends
  cases ends with
  | unfinished holds =>
      refine ⟨rfl, here holds.1, ?_⟩
      intro suspended
      cases running.symm.trans suspended
  | lost holds => exact ⟨rfl, here holds.1, nofun⟩
  | yielded holds found stepped =>
      refine ⟨rfl, behind holds.1 holds.2 found stepped, ?_⟩
      intro _ later follows spared
      exact holds.1.resumed holds.2 spares found stepped follows spared
  | completed holds found stepped =>
      exact ⟨rfl, behind holds.1 holds.2 found stepped, nofun⟩
  | faulted holds found stepped => exact ⟨rfl, behind holds.1 holds.2 found stepped, nofun⟩

theorem Engine.UndisturbedSession.mirrors {turn : Turn}
    (session : UndisturbedSession program options cells turn) :
    turn.Mirrors program options cells := by
  induction session with
  | @start bound registry store path name args machine hosts sound known spares houses entered =>
      have kept : machine.store = store := store_of_enter_ok entered
      rw [start_create, entered]
      refine mirrors_run charted bounded small distinct bound _ rfl rfl ?_ (kept.symm ▸ hosts) spares
      exact .start hosts sound known spares houses entered
  | @resume turn bound registry store session follows spared hosts spares ih =>
      rcases Decidable.em (turn.engine.state = .suspended) with suspended | refused
      · rw [Engine.resume_of_suspended suspended]
        exact mirrors_run charted bounded small distinct bound _ ih.sameProgram rfl
          (ih.suspended suspended store follows spared) hosts spares
      · have same : turn.engine.resume bound registry store = turn.engine.refuse store :=
          if_pos refused
        rw [same]
        exact ⟨ih.sameProgram, ih.mirrors.spared spared, fun suspended => absurd suspended refused⟩

end Engines

/-- The slots of the globals hold what stands in the cells of the globals, in every machine that a
run reaches and behind every turn of an engine, as long as nobody but the run writes the cells. No
instruction but a store to a global changes such a slot, whatever the step comes to. -/
theorem globals_mirror_cells {units : List ProgramUnit} {globals : List String} {program : Program}
    {options : RunOptions} {cells : Dictionary CellId}
    (accepted : compileUnits units globals = .ok program) (distinct : globals.Nodup)
    (small : program.size < twoTo 63) (bounded : options.stackCapacity ≤ twoTo 63) :
    (∀ machine, Undisturbed program options.stackCapacity cells machine →
      machine.MirrorsGlobals program cells) ∧
    (∀ turn, Engine.UndisturbedSession program options cells turn →
      (turn.engine.machine turn.store).MirrorsGlobals program cells) ∧
    ∀ (registry : Registry) machine instruction result later,
      Reached program options.stackCapacity machine → registry.Sound program machine.store →
      program.instructions[machine.ip]? = some instruction →
      (∀ slot, instruction ≠ .storeGlobal slot) →
      (step ⟨program, registry⟩ instruction).run { machine with ip := machine.ip + 1 } =
        (result, later) →
      ∀ index < program.globals.length, later.stack.items[index]? = machine.stack.items[index]? := by
  rcases compileUnits_ok accepted with ⟨placed, compiled⟩
  rcases compiled.charted with ⟨chart, charted⟩
  have nodup : program.globals.Nodup := compiled.globals ▸ distinct
  refine ⟨?_, ?_, ?_⟩
  · intro machine undisturbed
    rcases undisturbed.mirrors charted bounded small nodup with ⟨tower, tall, mirrors⟩
    exact mirrors.mirrorsGlobals tall.stack
  · intro turn session
    exact (session.mirrors charted bounded small nodup).mirrors
  · intro registry machine instruction result later reached hosts found other stepped index inside
    rcases reached.tall charted bounded small with ⟨tower, tall⟩
    exact tall.globals_kept charted bounded small hosts found other stepped inside

namespace Sample

/-- Counts in a global of the host, and yields between two counts. -/
def counterUnit : ProgramUnit :=
  ⟨"counter", [],
    [⟨"main", [],
      [.assign "count" (.binary .add (.var "count") (.literal (.int 1))),
        .yieldValue (some (.var "count")),
        .assign "count" (.binary .add (.var "count") (.literal (.int 1)))], .nowhere⟩]⟩

def counter : Program := (compileUnits [counterUnit] ["count"]).toOption.getD ⟨#[], .empty, [], []⟩

theorem counter_accepted : compileUnits [counterUnit] ["count"] = .ok counter := rfl

def counterCells : Dictionary CellId := [("count", ⟨0⟩)]

def counterHost : Registry := { Registry.empty with globals := counterCells }

/-- A store with nothing in it but the value of the global. -/
def counterStore (count : Int64) : Store := { Store.empty with cells := #[.int count] }

theorem counterStore_sound (count : Int64) : (counterStore count).Sound counter where
  closures _ inside := absurd inside (Nat.not_lt_zero _)
  arrays _ _ present := by simp [Store.array, counterStore, Store.empty] at present
  iterators := (@emptyStore counter).iterators
  objects _ _ present := by
    simp only [Store.object, counterStore, Store.empty] at present
    cases present
  cells id := by
    rcases id with ⟨_ | index⟩
    · trivial
    · simp [Store.cell, counterStore, Value.Known]

theorem counterHost_sound (store : Store) : counterHost.Sound counter store where
  callables function offered := by
    rcases offered with ⟨_, present, _⟩ | ⟨_, present, _⟩ <;> cases present
  statics _ present := by cases present

theorem counterHost_spares : counterHost.SparesGlobals counterCells counter.globals where
  shares _ _ := rfl
  callables function offered := by
    rcases offered with ⟨_, present, _⟩ | ⟨_, present, _⟩ <;> cases present

theorem counterStore_houses (count : Int64) : (counterStore count).Houses counterCells := by
  have only : ∀ name id, counterCells.find? name = some id → name = "count" ∧ id = ⟨0⟩ := by
    intro name id found
    simp only [counterCells, Dictionary.find?] at found
    split at found
    · rename_i same
      exact ⟨same.symm, (Option.some.inj found).symm⟩
    · cases found
  constructor
  · intro name id found
    rw [(only name id found).2]
    exact Nat.one_pos
  · intro name other id other' found found' _
    rw [(only name id found).1, (only other other' found').1]

/-- The first turn counts once, the second one once more. -/
def counterTurn : Turn :=
  ((Engine.create counter ⟨16, false⟩).start 20 counterHost (counterStore 3) [] "main" []).engine.resume
    20 counterHost (counterStore 4)

theorem counterTurn_session :
    Engine.UndisturbedSession counter ⟨16, false⟩ counterCells counterTurn :=
  .resume
    (.start (counterHost_sound _) (counterStore_sound 3) nofun counterHost_spares
      (counterStore_houses 3) rfl)
    ⟨counterStore_sound 4, Nat.le_refl _⟩ (.ofCells rfl) (counterHost_sound _) counterHost_spares

end Sample

theorem globals_mirror_cells_counter :
    (Sample.counterTurn.engine.machine Sample.counterTurn.store).MirrorsGlobals Sample.counter
      Sample.counterCells :=
  (@globals_mirror_cells _ _ _ _ _ Sample.counter_accepted (by decide) (by decide)
    (by decide)).2.1 _ Sample.counterTurn_session

end ScriptMachine
