import ScriptMachine.Proofs.Balance.Ownership
import ScriptMachine.Proofs.Balance.Returns

/-!
# Captures have one owner

The array in which a closure keeps the values of its captured variables is like any other array, and
it goes over the operand stack and through the arguments of calls. Still nothing but the closure and
the frames of its invocations ever refers to it: not a global, an argument or a local, nor an
element, a field or an iterator.

A run is told here together with the owners of its frames. A call of a closure puts a frame on top
that belongs to the closure, another call one that belongs to nobody, and a return takes the topmost
one off. The invariant is that of the tower, `Tower.Heeds`; what it says of the frames on the stack
and of what steps change is spelled out for machines.
-/

namespace ScriptMachine

/-! ## Frames and their owners -/

/-- A frame whose values stay away from the arrays in which closures keep their values. Only an
invocation has such an array, which is that of its closure: as its first argument, and perhaps among
its operands. -/
structure StackFrame.Minds (store : Store) (owner : Option ClosureId) (frame : StackFrame) :
    Prop where
  carrier : ∀ id, owner = some id →
    store.HasClosure id ∧ frame.args[0]? = some (.array (store.carrier id))
  args : ∀ place value, frame.args[place]? = some value →
    value.Apart store ∨ place = 0 ∧ owner.isSome
  locals : ∀ value ∈ frame.locals, value.Apart store
  operands : ∀ value ∈ frame.operands,
    value.Apart store ∨ ∃ id, owner = some id ∧ value = .array (store.carrier id)

/-- A machine whose stack holds the globals and frames with these owners, the innermost first, which
stay away from the arrays of closures as far as their owners allow. -/
def Machine.Minds (program : Program) (counts : FrameCounts) (machine : Machine)
    (owners : List (Option ClosureId)) : Prop :=
  ∃ globals active callers, machine.stack.items.toList = globals ++ stacked (active :: callers) ∧
    globals.length = program.globals.length ∧
    machine.base = globals.length + (stacked callers).length ∧
    StackFrame.Runs active program counts machine.ip ∧
    HeadersLink program counts globals.length (active :: callers) ∧
    (∀ value ∈ globals, value.Apart machine.store) ∧
    List.Forall₂ (StackFrame.Minds machine.store) owners (active :: callers)

section Frames

variable {store : Store} {owner : Option ClosureId} {owners others : List (Option ClosureId)}
  {activation callee : Activation} {chart : Chart} {ip : Nat} {tags : List Tag}
  {operands : List Value} {tower : Tower}

theorem Matches.apart_or_own (matched : Matches (Tag.Grants store owner) tags operands) :
    ∀ value ∈ operands,
      value.Apart store ∨ ∃ id, owner = some id ∧ value = .array (store.carrier id) := by
  intro value present
  rcases matched.exists_tag present with ⟨tag, _, grants⟩
  cases tag with
  | carrier =>
      rcases grants with ⟨id, owns, _, same⟩
      exact .inr ⟨id, owns, same⟩
  | any | iterator => exact .inl grants

/-- The frame of an activation that belongs to an owner. -/
theorem Activation.Belongs.minds (belongs : activation.Belongs store owner)
    (own : ∀ value ∈ activation.operands,
      value.Apart store ∨ ∃ id, owner = some id ∧ value = .array (store.carrier id))
    {saved back : Nat} : (activation.frame saved back).Minds store owner := by
  have arity : activation.shape.source.carrierCount ≤ activation.shape.arity := Nat.le_add_left _ _
  refine ⟨?_, ?_, ?_, own⟩
  · intro id owns
    rcases belongs.carrier id owns with ⟨has, first⟩
    have keeps := belongs.keeps.mp (by rw [owns]; rfl)
    exact ⟨has, (List.getElem?_take_of_lt (by omega)).trans first⟩
  · intro place value found
    rcases List.getElem?_eq_some_iff.mp found with ⟨inside, _⟩
    have before : place < activation.shape.arity :=
      Nat.lt_of_lt_of_le inside (List.length_take_le _ _)
    rw [Activation.frame, List.getElem?_take_of_lt before] at found
    rcases Nat.lt_or_ge place activation.shape.source.carrierCount with hidden | behind
    · have single := activation.shape.source.carrierCount_le_one
      exact .inr ⟨by omega, belongs.keeps.mpr (by omega)⟩
    · exact .inl (belongs.slots place value behind found)
  · intro value present
    rcases List.mem_iff_getElem?.mp present with ⟨place, found⟩
    rw [Activation.frame, List.getElem?_drop] at found
    exact belongs.slots _ value (by omega) found

/-- The frames that wait, with their owners. -/
theorem Attended.minds {callers : List Activation} {frames : List StackFrame}
    (attended : Attended chart store callee callers owners)
    (same : List.Forall₂ (fun caller frame => ∃ saved back, frame = caller.frame saved back) callers
      frames) : List.Forall₂ (StackFrame.Minds store) owners frames := by
  induction same generalizing callee owners with
  | nil =>
      cases attended
      exact .nil
  | cons frame _ ih =>
      rcases frame with ⟨saved, back, rfl⟩
      rcases attended with ⟨owner, others, base, ip, rfl, _, awaits, attended⟩
      rcases awaits with ⟨belongs, _, _, _, _, _, matched⟩
      exact .cons (belongs.minds matched.apart_or_own) (ih attended)

/-- What is known of a tower wherever it is. While a closure is made, its array is not yet one of
those from which values are to be apart. -/
theorem Tower.Heeds.owned (heeds : tower.Heeds chart ip owners store) :
    ∃ owner others, owners = owner :: others ∧ tower.Owned chart store owner others ∧
      ∀ value ∈ tower.active.operands,
        value.Apart store ∨ ∃ id, owner = some id ∧ value = .array (store.carrier id) := by
  cases heeds with
  | settled _ _ owned matched => exact ⟨_, _, rfl, owned, matched.apart_or_own⟩
  | closing _ apart operands matched owned =>
      have made := owned.guarded.allocArray apart
      refine ⟨_, _, rfl, @Tower.Owned.operands _ _ _ _ _ _ tower.active.operands owned
        made.1.1.toExtends made.1.2, ?_⟩
      rw [operands]
      refine forall_mem_append (matched.later made.1.1.toExtends).apart_or_own ?_
      exact List.forall_mem_singleton.mpr (.inl made.2)

theorem Tower.Heeds.guarded (heeds : tower.Heeds chart ip owners store) : store.Guarded := by
  rcases heeds.owned with ⟨_, _, _, owned, _⟩
  exact owned.guarded

/-- The closure that a frame belongs to is there. -/
theorem Tower.Heeds.hasClosure {id : ClosureId}
    (heeds : tower.Heeds chart ip (some id :: others) store) : store.HasClosure id := by
  rcases heeds.owned with ⟨_, _, same, owned, _⟩
  cases same
  exact (owned.active.carrier id rfl).1

/-- The stack of a machine with a tower that heeds owners. -/
theorem Machine.Tall.minds {program : Program} {capacity : Nat} {machine : Machine}
    (charted : program.Charted chart) (tall : machine.Tall program chart capacity tower)
    (heeds : tower.Heeds chart machine.ip owners machine.store) :
    machine.Minds program chart.counts owners := by
  rcases tall with ⟨same, holds⟩
  rcases holds.chained.frames with ⟨saved, back, frames, alike, below, whole, links⟩
  rcases holds.here with ⟨point, here, stands⟩
  rcases heeds.owned with ⟨owner, others, rfl, owned, own⟩
  refine ⟨tower.globals, tower.active.frame saved back, frames, ?_, holds.globals, ?_,
    stands.runs charted here, links, owned.globals,
    .cons (owned.active.minds own) (owned.callers.minds alike)⟩
  · rw [same, whole]
    simp [Tower.machine, Tower.values, Tower.floor, content]
  · rw [same, below]
    simp [Tower.machine, Tower.base]

end Frames

/-! ## Steps that fault -/

section Faults

variable {surroundings : Surroundings} {tower : Tower} {chart : Chart} {store : Store}
  {owners : List (Option ClosureId)} {capacity ip : Nat} {instruction : Instruction}
  {tags popped pushed : List Tag} {iterators : List Nat} {debug : List DebugContext}
  {shape : Shape} {fault : RuntimeFault} {later : Machine}

/-- The store behind an instruction that takes no array of a closure. -/
theorem Tower.Heeds.handled (discreet : surroundings.registry.Discreet store)
    (heeds : tower.Heeds chart ip owners store)
    (here : chart ip = some (shape, .running (popped ++ tags) iterators))
    (stands : tower.active.Stands (.running (popped ++ tags) iterators))
    (handles : instruction.Handles popped pushed) (plain : .carrier ∉ popped) :
    store.Spares ((step surroundings instruction).run
        (tower.machine capacity (ip + 1) debug store)).2.store ∧
      ((step surroundings instruction).run
        (tower.machine capacity (ip + 1) debug store)).2.store.Guarded := by
  rcases heeds.at_settled here rfl with ⟨owner, others, rfl, owned, matched⟩
  rcases stands.2.1.split with ⟨below, args, operands, length, _⟩
  have admitted := stands.2.1
  rw [operands] at matched admitted
  rw [Tower.machine_of_operands operands]
  exact surroundings.discretion_lawful.step ⟨owned.guarded, discreet⟩ handles
    (admitted.parts length).1 ((matched.parts length).1.apart plain)

/-- An instruction that faults leaves what closures keep alone. -/
theorem Tower.Heeds.faulted (charted : surroundings.program.Charted chart)
    (discreet : surroundings.registry.Discreet store)
    (holds : tower.Holds surroundings.program chart capacity ip store)
    (heeds : tower.Heeds chart ip owners store)
    (found : surroundings.program.instructions[ip]? = some instruction)
    (faults : (step surroundings instruction).run (tower.machine capacity (ip + 1) debug store) =
      (.error fault, later)) : store.Spares later.store ∧ later.store.Guarded := by
  rcases holds.here with ⟨point, here, stands⟩
  rcases charted.checked ip _ point here with ⟨_, _, same, checked, _⟩
  cases found.symm.trans same
  have lawful := surroundings.discretion_lawful
  have obeys : surroundings.discretion.obeys store := ⟨heeds.guarded, discreet⟩
  have blind (unseeing : Step.Blind (step surroundings instruction)) :
      store.Spares later.store ∧ later.store.Guarded := by
    have kept := unseeing.keeps (tower.machine capacity (ip + 1) debug store)
    rw [faults] at kept
    rw [show later.store = store from kept]
    exact ⟨.refl, heeds.guarded⟩
  have handled (popped : List Tag) {pushed tags : List Tag} {iterators : List Nat}
      (same : point = .running (popped ++ tags) iterators)
      (handles : instruction.Handles popped pushed) (plain : .carrier ∉ popped) :
      store.Spares later.store ∧ later.store.Guarded := by
    have made := @Tower.Heeds.handled _ _ _ _ _ capacity _ _ _ _ _ _ debug _ discreet heeds
      (same ▸ here) (same ▸ stands) handles plain
    rwa [faults] at made
  cases checked with
  | plain effect => exact handled _ rfl (.plain effect) (by simp [List.mem_replicate])
  | @pop tag =>
      rcases stands.2.1 with ⟨below, value, operands, _⟩
      rw [Tower.machine_of_operands operands, step_pop] at faults
      cases faults
  | loadKept =>
      rcases heeds.at_settled here rfl with ⟨owner, others, rfl, owned, matched⟩
      rcases (@Matches.split _ _ [.any, .carrier] _ matched) with ⟨below, args, operands, length, _⟩
      rw [operands] at matched
      have above := (@Matches.parts _ _ [.any, .carrier] _ _ matched length).1
      rcases List.length_eq_two.mp length with ⟨target, index, rfl⟩
      rcases above.pair with ⟨⟨id, _, _, rfl⟩, apartIndex⟩
      have follows := (@Discipline.Lawful.loadIndex _ _ _ lawful obeys (.array (store.carrier id)) index
        (.inl ⟨_, rfl⟩) apartIndex).follows
      rw [Tower.machine_of_operands operands, step_loadIndex] at faults
      rw [← @Discipline.Lawful.store_deliver capacity (ip + 1) tower.base
        (tower.callers.length + 1) (tower.floor ++ below) debug, faults] at follows
      exact follows
  | storeKept =>
      rcases heeds.at_settled here rfl with ⟨owner, others, rfl, owned, matched⟩
      rcases (@Matches.split _ _ [.any, .any, .carrier] _ matched) with
        ⟨below, args, operands, length, _⟩
      rw [operands] at matched
      have above := (@Matches.parts _ _ [.any, .any, .carrier] _ _ matched length).1
      rcases List.length_eq_three.mp length with ⟨target, index, value, rfl⟩
      rcases above.triple with ⟨⟨id, _, _, rfl⟩, _, _⟩
      rw [Tower.machine_of_operands operands, step_storeIndex] at faults
      simp only [Effect.storeIndex] at faults
      cases place : Step.elementIndex store index (store.array (store.carrier id)).size with
      | error fault =>
          rw [place] at faults
          cases faults
          exact ⟨.refl, owned.guarded⟩
      | ok place =>
          rw [place] at faults
          cases faults
  | loadLocal | loadIterator | loadCarrier =>
      exact blind (.bind (fun _ _ => rfl) fun _ => .bind (.onStack _) fun _ =>
        .bind (.onStack _) fun _ => .pure _)
  | storeLocal | storeIterator =>
      exact blind (.bind (.onStack _) fun _ => .bind (fun _ _ => rfl) fun _ =>
        .bind (.onStack _) fun _ => .pure _)
  | loadGlobal =>
      exact blind (.bind (.onStack _) fun _ => .bind (.onStack _) fun _ => .pure _)
  | @storeGlobal slot _ _ valid =>
      rcases stands.2.1 with ⟨below, value, operands, _⟩
      have inside : slot < (tower.floor ++ below).length := by
        have globals := holds.globals
        simp only [Program.context] at valid
        simp only [Tower.floor, List.length_append]
        omega
      rw [Tower.machine_of_operands operands, step_storeGlobal inside] at faults
      cases faults
  | callFunction linked =>
      refine blind (.bind ?_ fun _ => .bind (.enterCall _ _) fun _ => .pure _)
      unfold Step.resolveFunction
      split
      · exact .lift _
      · exact .throw _
  | makeCarrier => exact handled _ rfl (.plain rfl) (by simp [List.mem_replicate])
  | makeClosure =>
      rcases stands.2.1 with ⟨below, id, operands, _⟩
      have room : (tower.floor ++ below).length < capacity := holds.roomBelow operands
      rw [Tower.machine_of_operands operands, step_makeClosure, deliver_room room] at faults
      cases faults
  | getIterator => exact handled [.any] rfl .getIterator (by simp)
  | iterMoveNext => exact handled [.iterator] rfl .iterMoveNext (by simp)
  | iterCurrent => exact handled [.iterator] rfl .iterCurrent (by simp)
  | jump => exact handled [] rfl .jump (by simp)
  | jumpIfFalse => exact handled [.any] rfl .jumpIfFalse (by simp)
  | jumpIfFalseKeep => exact handled [.any] rfl .falseKeeps (by simp)
  | jumpIfTrueKeep => exact handled [.any] rfl .trueKeeps (by simp)
  | allocFrame =>
      exact blind (.bind (.pushUnits _) fun _ => .pure _)
  | pushDebug | popDebug => cases faults
  | returnValue => exact blind (Step.Blind.returnFrom _)

end Faults

/-! ## Runs -/

/-- One instruction of a run whose host reaches into no array of a closure, neither during the
instruction nor, where that is a yield, before the run is resumed. -/
inductive Machine.Takes (program : Program) (instruction : Instruction) : Machine → Machine → Prop
  | next {registry : Registry} {machine later : Machine}
      (hosts : registry.Sound program machine.store) (discreet : registry.Discreet machine.store)
      (found : program.instructions[machine.ip]? = some instruction)
      (stepped : (step ⟨program, registry⟩ instruction).run { machine with ip := machine.ip + 1 } =
        (.ok .next, later)) :
      Takes program instruction machine later
  | resumed {registry : Registry} {machine later : Machine} {value : Value} {store : Store}
      (hosts : registry.Sound program machine.store) (discreet : registry.Discreet machine.store)
      (found : program.instructions[machine.ip]? = some instruction)
      (stepped : (step ⟨program, registry⟩ instruction).run { machine with ip := machine.ip + 1 } =
        (.ok (.yielded value), later))
      (follows : later.store.Follows program store) (spares : later.store.Spares store)
      (guarded : store.Guarded) :
      Takes program instruction machine { later with store := store }

/-- The owners of the frames after an instruction. -/
def Machine.heirs (machine later : Machine) (instruction : Instruction)
    (owners : List (Option ClosureId)) : List (Option ClosureId) :=
  handOver machine.depth later.depth
    (instruction.invoked? machine.store machine.stack.items.toList) owners

/-- A machine that a run of a declared function gets to, with the owners of its frames. -/
inductive Attributed (units : List ProgramUnit) (program : Program) (capacity : Nat) :
    Machine → List (Option ClosureId) → Prop
  | start {registry : Registry} {store : Store} {entry : String} {unit : ProgramUnit}
      {function : FunctionDef} {args : List Value} {machine : Machine} (unitMem : unit ∈ units)
      (declared : function ∈ unit.functions) (hosts : registry.Sound program store)
      (sound : store.Sound program) (known : ∀ value ∈ args, value.Known store)
      (guarded : store.Guarded) (apart : ∀ value ∈ args, value.Apart store)
      (entered : (Engine.enter ⟨program, registry⟩ entry unit.path function.name args).run
        ⟨.ofCapacity capacity, 0, 0, 0, [], store⟩ = (.ok (), machine)) :
      Attributed units program capacity machine [none]
  | proceed {machine later : Machine} {instruction : Instruction}
      {owners : List (Option ClosureId)}
      (attributed : Attributed units program capacity machine owners)
      (takes : machine.Takes program instruction later) :
      Attributed units program capacity later (machine.heirs later instruction owners)

/-- An assignment to a captured variable. It changes one value that the closure keeps, and takes
three operands off the stack, the first of which is the array of the closure. -/
structure Machine.Assigns (machine later : Machine) (instruction : Instruction) (id : ClosureId) :
    Prop where
  instruction : instruction = .storeIndex
  effect : ∃ stays index value place,
    machine.stack.items.toList = stays ++ [.array (machine.store.carrier id), index, value] ∧
    later.stack.items.toList = stays ∧
    later.store = machine.store.setElement (machine.store.carrier id) place value

/-- What an instruction does with the arrays of closures. -/
structure Machine.Leaves (machine later : Machine) (instruction : Instruction)
    (owners : List (Option ClosureId)) : Prop where
  /-- Every closure keeps its array. What is in the array stays the same, unless an invocation of
  the closure assigns to one of its captured variables. -/
  kept : ∀ id, machine.store.HasClosure id →
    later.store.HasClosure id ∧ later.store.carrier id = machine.store.carrier id ∧
      (later.store.array (machine.store.carrier id) =
          machine.store.array (machine.store.carrier id) ∨
        owners.head? = some (some id) ∧ machine.Assigns later instruction id)
  /-- The array of a closure is where it was on the stack, or it has been loaded from the first slot
  of an invocation, or it is in the first slot of a new invocation. -/
  news : ∀ place id, later.store.HasClosure id →
    later.stack.items.toList[place]? = some (.array (later.store.carrier id)) →
    machine.stack.items.toList[place]? = some (.array (later.store.carrier id)) ∨
      (instruction = .loadLocal 0 ∧ owners.head? = some (some id) ∧
        place + 1 = later.stack.items.toList.length) ∨
      (machine.heirs later instruction owners = some id :: owners ∧ place = later.base)

/-- A part of a run, across yields, in which no invocation of a closure assigns to one of its captured
variables. -/
inductive Machine.Spends (program : Program) (id : ClosureId) :
    Machine → List (Option ClosureId) → Machine → List (Option ClosureId) → Prop
  | done {machine : Machine} {owners : List (Option ClosureId)} :
      Spends program id machine owners machine owners
  | step {machine next last : Machine} {instruction : Instruction}
      {owners final : List (Option ClosureId)} (takes : machine.Takes program instruction next)
      (idle : ¬(owners.head? = some (some id) ∧ machine.Assigns next instruction id))
      (rest : Spends program id next (machine.heirs next instruction owners) last final) :
      Spends program id machine owners last final

section Runs

variable {units : List ProgramUnit} {program : Program} {placed : List Placement} {chart : Chart}
  {capacity : Nat} {machine later : Machine} {tower next : Tower} {instruction : Instruction}
  {owners : List (Option ClosureId)} {globals : List String}

/-- The first machine of a run. -/
theorem Tower.Heeds.entered {registry : Registry} {store : Store} {entry : String}
    {source : FunctionSource} {args : List Value} (compiled : program.Compiled units globals placed)
    (plain : PlainNames units) (homes : chart.Homes placed) (charted : program.Charted chart)
    (declared : source ∈ declaredSources units)
    (sound : store.Sound program) (known : ∀ value ∈ args, value.Known store)
    (guarded : store.Guarded) (apart : ∀ value ∈ args, value.Apart store)
    (entered : (Engine.enter ⟨program, registry⟩ entry source.path source.name args).run
      ⟨.ofCapacity capacity, 0, 0, 0, [], store⟩ = (.ok (), machine)) :
    ∃ tower, machine.Tall program chart capacity tower ∧
      tower.Heeds chart machine.ip [none] machine.store := by
  rcases charted.entered sound known entered with
    ⟨function, globals, shape, found, named, placed, ip, same, tall⟩
  rw [ip, same]
  refine ⟨_, tall, .settled placed rfl ⟨guarded, ?_, ?_, rfl⟩ rfl⟩
  · intro value present
    have inside : some value ∈ program.globals.map (registry.global? store) :=
      named ▸ List.mem_map_of_mem present
    rcases List.mem_map.mp inside with ⟨global, _, same⟩
    rcases Option.map_eq_some_iff.mp same with ⟨cell, _, rfl⟩
    exact guarded.cells cell
  · exact .called (compiled.carrierCount_declared plain homes declared found placed) apart

/-- The owners of the frames after an instruction, seen from the towers. -/
theorem Machine.Tall.heirs (tall : machine.Tall program chart capacity tower)
    (tallLater : later.Tall program chart capacity next) :
    machine.heirs later instruction owners =
      handOver tower.callers.length next.callers.length
        (instruction.invoked? machine.store tower.values) owners := by
  rw [Machine.heirs, handOver, handOver, tall.depth, tallLater.depth, tall.1]
  simp [Tower.machine]

/-- A yield takes one operand and changes nothing else. -/
theorem Change.of_yieldValue {surroundings : Surroundings} {behind there : Nat}
    {debug after : List DebugContext} {store storeLater : Store}
    (change : Change surroundings tower behind debug store .yieldValue next there after storeLater) :
    (∃ below value, tower.active.operands = below ++ [value] ∧
      next = tower.withOperands (below ++ [])) ∧ there = behind ∧ storeLater = store := by
  cases change with
  | works operands works =>
      cases works
      exact ⟨⟨_, _, operands, rfl⟩, rfl, rfl⟩
  | call _ _ calls => cases calls

/-- A yield, after which the host has changed the store. -/
theorem Tower.Heeds.yields {below : List Value} {value : Value} {ip : Nat} {store after : Store}
    (charted : program.Charted chart) (heeds : tower.Heeds chart ip owners store)
    (here : ∃ point, chart ip = some (tower.active.shape, point))
    (found : program.instructions[ip]? = some .yieldValue)
    (operands : tower.active.operands = below ++ [value]) (spares : store.Spares after)
    (guarded : after.Guarded) :
    tower.HandsOver (tower.withOperands (below ++ [])) chart (ip + 1) store after .yieldValue
      owners := by
  rcases here with ⟨point, here⟩
  rcases charted.checked ip _ point here with ⟨_, _, same, checked, falls⟩
  cases found.symm.trans same
  cases checked with
  | plain effect =>
      cases effect
      rcases falls _ rfl with ⟨target, placed, meets⟩
      rcases heeds.at_settled here rfl with ⟨owner, others, rfl, owned, matched⟩
      rw [operands] at matched
      have stays := (@Matches.parts _ _ [.any] _ _ matched rfl).2
      exact @HandsOver.operands _ _ _ _ _ _ _ _ _ _ _ _ _ _ [] owned operands stays spares guarded rfl
        nofun nofun placed meets

section Steps

variable (charted : program.Charted chart) (tells : chart.TellsKeepers program)
  (bounded : capacity ≤ twoTo 63) (small : program.size < twoTo 63)
  (tall : machine.Tall program chart capacity tower)
  (heeds : tower.Heeds chart machine.ip owners machine.store)

include charted tells bounded small tall heeds

/-- A step of a run keeps frames in order with their owners. -/
theorem Machine.Takes.handsOver (takes : machine.Takes program instruction later) :
    ∃ next, later.Tall program chart capacity next ∧
      tower.HandsOver next chart later.ip machine.store later.store instruction owners := by
  cases takes with
  | next hosts discreet found stepped =>
      rcases tall.outcome charted bounded small hosts with ⟨_, again, outcome⟩
      cases found.symm.trans again
      rw [stepped] at outcome
      cases outcome with
      | goes holds follows change =>
          exact ⟨_, ⟨rfl, holds⟩,
            heeds.handsOver charted tells small discreet found change tall.2 holds⟩
  | resumed hosts discreet found stepped follows spares guarded =>
      rcases tall.outcome charted bounded small hosts with ⟨_, again, outcome⟩
      cases found.symm.trans again
      rw [stepped] at outcome
      cases outcome with
      | yields holds _ change yields given =>
          subst yields
          rcases tall.2.here with ⟨point, here, _⟩
          rcases change.of_yieldValue with ⟨⟨below, other, operands, rfl⟩, rfl, rfl⟩
          exact ⟨_, ⟨rfl, holds.hostActs follows⟩,
            heeds.yields charted ⟨point, here⟩ found operands spares guarded⟩

omit tells in
/-- What an instruction that ends a turn leaves of the store, and the value that it gives away. -/
theorem Machine.Tall.ends {registry : Registry} {result : Except RuntimeFault Control}
    (hosts : registry.Sound program machine.store) (discreet : registry.Discreet machine.store)
    (found : program.instructions[machine.ip]? = some instruction)
    (stepped : (step ⟨program, registry⟩ instruction).run { machine with ip := machine.ip + 1 } =
      (result, later)) (last : result ≠ .ok .next) :
    machine.store.Spares later.store ∧ later.store.Guarded ∧
      ∀ value, result = .ok (.yielded value) ∨ result = .ok (.completed value) →
        value.Apart later.store := by
  rcases tall.outcome charted bounded small hosts with ⟨_, again, outcome⟩
  cases found.symm.trans again
  rcases tall.2.here with ⟨point, here, _⟩
  rcases charted.checked _ _ point here with ⟨_, _, again, checked, _⟩
  cases found.symm.trans again
  have given {tags : List Tag} {below : List Value} {value : Value}
      (settled : point.settled? = some (.any :: tags))
      (operands : tower.active.operands = below ++ [value]) : value.Apart machine.store := by
    rcases heeds.at_settled here settled with ⟨_, _, _, _, matched⟩
    rw [operands] at matched
    exact (@Matches.parts _ _ [.any] _ _ matched rfl).1.apart nofun value (List.mem_singleton_self _)
  rw [stepped] at outcome
  cases outcome with
  | goes => exact absurd rfl last
  | yields holds _ change yields given' =>
      subst yields
      rcases given' with ⟨below, operands⟩
      cases checked with
      | plain effect =>
          cases effect
          rcases change.of_yieldValue with ⟨_, _, rfl⟩
          refine ⟨.refl, heeds.guarded, ?_⟩
          rintro _ (same | same)
          · cases same
            exact given rfl operands
          · cases same
  | completes outermost _ _ returns _ store given' =>
      subst returns
      rcases given' with ⟨below, operands⟩
      cases checked with
      | plain effect => cases effect
      | returnValue =>
          rw [store]
          refine ⟨.refl, heeds.guarded, ?_⟩
          rintro _ (same | same)
          · cases same
          · cases same
            exact given rfl operands
  | faults =>
      have shifted : { machine with ip := machine.ip + 1 } =
          tower.machine capacity (machine.ip + 1) machine.debugStack machine.store := by
        rw [tall.1]
        rfl
      rw [shifted] at stepped
      have kept := @Tower.Heeds.faulted ⟨program, registry⟩ _ _ _ _ _ _ _ _ _ _ charted discreet
        tall.2 heeds found stepped
      exact ⟨kept.1, kept.2, nofun⟩

end Steps

/-- What a step does with the arrays of closures, seen on the machine. -/
theorem Tower.HandsOver.leaves (tall : machine.Tall program chart capacity tower)
    (heeds : tower.Heeds chart machine.ip owners machine.store)
    (tallLater : later.Tall program chart capacity next)
    (handsOver : tower.HandsOver next chart later.ip machine.store later.store instruction owners) :
    machine.Leaves later instruction owners := by
  have values : machine.stack.items.toList = tower.values := by
    rw [tall.1]
    simp [Tower.machine]
  have valuesLater : later.stack.items.toList = next.values := by
    rw [tallLater.1]
    simp [Tower.machine]
  have heedsLater := handsOver.heeds
  rw [← tall.heirs tallLater] at heedsLater
  refine ⟨?_, ?_⟩
  · intro id has
    rcases handsOver.kept id has with ⟨still, carrier, same | ⟨own, assigns⟩⟩
    · exact ⟨still, carrier, .inl same⟩
    · rcases assigns with ⟨stores, below, index, value, place, operands, rfl, written⟩
      refine ⟨still, carrier, .inr ⟨own, stores, tower.floor ++ below, index, value, place, ?_, ?_,
        written⟩⟩
      · rw [values, Tower.values, operands, List.append_assoc]
      · rw [valuesLater, Tower.values_withOperands]
  · intro place id has found
    rw [valuesLater] at found
    rw [values, valuesLater, tall.heirs tallLater]
    have same (other : ClosureId) (hasOther : later.store.HasClosure other)
        (alike : Value.array (later.store.carrier id) = .array (later.store.carrier other)) :
        other = id :=
      (heedsLater.guarded.distinct id other has hasOther (Value.array.inj alike)).symm
    rcases handsOver.news place _ found with before | apart | ⟨other, alike, loaded | invoked⟩
    · exact .inl before
    · exact absurd ⟨id, has, rfl⟩ apart.2
    · rcases loaded with ⟨loads, own, last⟩
      have hasOther : later.store.HasClosure other := by
        cases owners with
        | nil => cases own
        | cons owner others =>
            cases own
            exact (handsOver.kept other heeds.hasClosure).1
      cases same other hasOther alike
      exact .inr (.inl ⟨loads, own, last⟩)
    · rcases invoked with ⟨own, first⟩
      rw [tall.heirs tallLater, own] at heedsLater
      cases same other heedsLater.hasClosure alike
      refine .inr (.inr ⟨own, ?_⟩)
      rw [first, tallLater.1]
      rfl

theorem Attributed.heeds (compiled : program.Compiled units globals placed)
    (plain : PlainNames units) (homes : chart.Homes placed) (charted : program.Charted chart)
    (bounded : capacity ≤ twoTo 63) (small : program.size < twoTo 63)
    (attributed : Attributed units program capacity machine owners) :
    ∃ tower, machine.Tall program chart capacity tower ∧
      tower.Heeds chart machine.ip owners machine.store := by
  have tells := compiled.tellsKeepers plain homes
  induction attributed with
  | @start registry store entry unit function args machine unitMem declared _ sound known guarded
      apart entered =>
      have declared : FunctionSource.declared unit function ∈ declaredSources units :=
        List.mem_flatMap.mpr ⟨unit, unitMem, List.mem_map_of_mem declared⟩
      exact Tower.Heeds.entered compiled plain homes charted declared sound known guarded apart entered
  | proceed attributed takes ih =>
      rcases ih with ⟨tower, tall, heeds⟩
      rcases takes.handsOver charted tells bounded small tall heeds with ⟨next, tallNext, handsOver⟩
      refine ⟨next, tallNext, ?_⟩
      rw [tall.heirs tallNext]
      exact handsOver.heeds

/-- The array of a closure, and what is in it, through a part of a run. -/
theorem Machine.Spends.kept {last : Machine} {final : List (Option ClosureId)} {id : ClosureId}
    (leaves : ∀ machine owners, Attributed units program capacity machine owners →
      ∀ later instruction, machine.Takes program instruction later →
        machine.Leaves later instruction owners)
    (attributed : Attributed units program capacity machine owners)
    (spends : Machine.Spends program id machine owners last final)
    (has : machine.store.HasClosure id) :
    last.store.HasClosure id ∧ last.store.carrier id = machine.store.carrier id ∧
      last.store.array (last.store.carrier id) =
        machine.store.array (machine.store.carrier id) := by
  induction spends with
  | done => exact ⟨has, rfl, rfl⟩
  | step takes idle rest ih =>
      rcases (leaves _ _ attributed _ _ takes).kept id has with ⟨still, carrier, same | assigns⟩
      · rcases ih (attributed.proceed takes) still with ⟨ends, carrierLast, sameLast⟩
        exact ⟨ends, carrierLast.trans carrier, sameLast.trans (by rw [carrier, same])⟩
      · exact absurd assigns idle

/-- Captures belong to one closure. In every state of a run nothing refers to the array of a closure
but the closure, the first argument of its invocations and operands that such an invocation has
loaded from there. So what a closure keeps changes only where an invocation of this closure assigns
to a captured variable. It lasts from one invocation to the next and across yields, and an assignment
neither changes another place of the stack nor what another closure keeps. -/
theorem captures_have_one_owner (accepted : compileUnits units globals = .ok program)
    (plain : PlainNames units) (small : program.size < twoTo 63) (bounded : capacity ≤ twoTo 63) :
    (∃ counts, ∀ machine owners, Attributed units program capacity machine owners →
      machine.store.Guarded ∧ machine.Minds program counts owners) ∧
    (∀ machine owners, Attributed units program capacity machine owners →
      (∀ later instruction, machine.Takes program instruction later →
        machine.Leaves later instruction owners) ∧
      ∀ (registry : Registry) instruction result later, registry.Sound program machine.store →
        registry.Discreet machine.store → program.instructions[machine.ip]? = some instruction →
        (step ⟨program, registry⟩ instruction).run { machine with ip := machine.ip + 1 } =
          (result, later) → result ≠ .ok .next →
        machine.store.Spares later.store ∧ later.store.Guarded ∧
          ∀ value, result = .ok (.yielded value) ∨ result = .ok (.completed value) →
            value.Apart later.store) ∧
    ∀ machine owners last final id, Attributed units program capacity machine owners →
      machine.store.HasClosure id → Machine.Spends program id machine owners last final →
      last.store.HasClosure id ∧ last.store.carrier id = machine.store.carrier id ∧
        last.store.array (last.store.carrier id) =
          machine.store.array (machine.store.carrier id) := by
  rcases compileUnits_ok accepted with ⟨placed, compiled⟩
  rcases compiled.charted_homes with ⟨chart, charted, homes⟩
  have tells := compiled.tellsKeepers plain homes
  have heeds {machine owners} (attributed : Attributed units program capacity machine owners) :=
    attributed.heeds compiled plain homes charted bounded small
  have leaves : ∀ machine owners, Attributed units program capacity machine owners →
      ∀ later instruction, machine.Takes program instruction later →
        machine.Leaves later instruction owners := by
    intro machine owners attributed later instruction takes
    rcases heeds attributed with ⟨tower, tall, heeds⟩
    rcases takes.handsOver charted tells bounded small tall heeds with ⟨next, tallNext, handsOver⟩
    exact handsOver.leaves tall heeds tallNext
  refine ⟨⟨chart.counts, ?_⟩, ?_, ?_⟩
  · intro machine owners attributed
    rcases heeds attributed with ⟨tower, tall, heeds⟩
    exact ⟨heeds.guarded, tall.minds charted heeds⟩
  · intro machine owners attributed
    refine ⟨leaves machine owners attributed, ?_⟩
    intro registry instruction result later hosts discreet found stepped ends
    rcases heeds attributed with ⟨tower, tall, heeds⟩
    exact tall.ends charted bounded small heeds hosts discreet found stepped ends
  · intro machine owners last final id attributed has spends
    exact spends.kept leaves attributed has

end Runs

/-! ## A closure that counts -/

namespace Sample

/-- Makes a closure that adds one to what it keeps, and calls it. -/
def bumperUnit : ProgramUnit :=
  ⟨"bumper", [],
    [⟨"main", ["n"],
      [.letVar "bump" (.action []
          [.assign "n" (.binary .add (.var "n") (.literal (.int 1))),
            .returnValue (some (.var "n"))]),
        .returnValue (some (.call [] "bump" []))], .nowhere⟩]⟩

def bumper : Program := (compileUnits [bumperUnit] []).toOption.getD ⟨#[], .empty, [], []⟩

theorem bumper_accepted : compileUnits [bumperUnit] [] = .ok bumper := rfl

def bumperContext : DebugContext := ⟨"bumper", "main", .nowhere⟩

def bumpContext : DebugContext := ⟨"bumper", "main$action0", .nowhere⟩

/-- A store with one closure, which keeps one value. -/
def bumperStore (resolved : Option FunctionEntry) : Store :=
  { Store.empty with arrays := #[#[.int 3]], closures := #[⟨⟨[], "main$action0"⟩, ⟨0⟩, resolved⟩] }

def bumperMachine (values : List Value) (ip base depth : Nat) (debug : List DebugContext)
    (store : Store) : Machine :=
  ⟨.ofList 16 values, ip, base, depth, debug, store⟩

theorem emptyRegistry_discreet (store : Store) : Registry.empty.Discreet store where
  callables function offered := by
    rcases offered with ⟨_, present, _⟩ | ⟨_, present, _⟩ <;> cases present
  statics _ present := by cases present

theorem emptyStore_guarded : Store.empty.Guarded where
  inside _ has := absurd has (Nat.not_lt_zero _)
  distinct _ _ has := absurd has (Nat.not_lt_zero _)
  arrays _ _ present := by simp [Store.array, Store.empty] at present
  iterators _ := by
    simp only [Store.iterator, Store.empty]
    exact ⟨trivial, List.forall_mem_nil _⟩
  objects _ _ present := by
    simp only [Store.object, Store.empty] at present
    cases present
  cells _ := by
    simp only [Store.cell, Store.empty]
    trivial

theorem bumper_takes {machine later : Machine} {owners heirs : List (Option ClosureId)}
    {instruction : Instruction}
    (attributed : Attributed [bumperUnit] bumper 16 machine owners)
    (found : bumper.instructions[machine.ip]? = some instruction)
    (stepped : (step ⟨bumper, .empty⟩ instruction).run { machine with ip := machine.ip + 1 } =
      (.ok .next, later)) (same : machine.heirs later instruction owners = heirs) :
    Attributed [bumperUnit] bumper 16 later heirs :=
  same ▸ attributed.proceed (.next (emptyRegistry _) (emptyRegistry_discreet _) found stepped)

theorem bumper_started :
    Attributed [bumperUnit] bumper 16 (bumperMachine [.int 3, .int 0, .int 0] 0 0 1 [] .empty)
      [none] :=
  @Attributed.start _ _ _ .empty .empty "main" bumperUnit _ [.int 3] _ (List.mem_singleton_self _)
    (List.mem_singleton_self _) (emptyRegistry _) emptyStore (List.forall_mem_singleton.mpr trivial)
    emptyStore_guarded (List.forall_mem_singleton.mpr trivial) rfl

/-- The closure is made. -/
theorem bumper_made :
    Attributed [bumperUnit] bumper 16
      (bumperMachine [.int 3, .int 0, .int 0, .unit, .closure ⟨0⟩] 5 0 1 [bumperContext]
        (bumperStore none)) [none] :=
  let opened := @bumper_takes _
    (bumperMachine [.int 3, .int 0, .int 0, .unit] 1 0 1 [] .empty) _ [none] _ bumper_started rfl
    rfl rfl
  let noted := @bumper_takes _
    (bumperMachine [.int 3, .int 0, .int 0, .unit] 2 0 1 [bumperContext] .empty) _ [none] _ opened
    rfl rfl rfl
  let loaded := @bumper_takes _
    (bumperMachine [.int 3, .int 0, .int 0, .unit, .int 3] 3 0 1 [bumperContext] .empty) _ [none] _
    noted rfl rfl rfl
  let gathered := @bumper_takes _
    (bumperMachine [.int 3, .int 0, .int 0, .unit, .array ⟨0⟩] 4 0 1 [bumperContext]
      { Store.empty with arrays := #[#[.int 3]] }) _ [none] _ loaded rfl rfl rfl
  bumper_takes gathered rfl rfl rfl

/-- The closure is invoked, and the invocation has loaded the array of the closure. -/
theorem bumper_loaded :
    Attributed [bumperUnit] bumper 16
      (bumperMachine [.int 3, .int 0, .int 0, .closure ⟨0⟩, .array ⟨0⟩, .int 0, .int 8, .array ⟨0⟩]
        16 4 2 [bumpContext, bumperContext] (bumperStore (some ⟨13, 1⟩))) [some ⟨0⟩, none] :=
  let stored := @bumper_takes _
    (bumperMachine [.int 3, .int 0, .int 0, .closure ⟨0⟩] 6 0 1 [bumperContext] (bumperStore none))
    _ [none] _ bumper_made rfl rfl rfl
  let loaded := @bumper_takes _
    (bumperMachine [.int 3, .int 0, .int 0, .closure ⟨0⟩, .closure ⟨0⟩] 7 0 1 [bumperContext]
      (bumperStore none)) _ [none] _ stored rfl rfl rfl
  let invoked := @bumper_takes _
    (bumperMachine [.int 3, .int 0, .int 0, .closure ⟨0⟩, .array ⟨0⟩, .int 0, .int 8] 13 4 2
      [bumperContext] (bumperStore (some ⟨13, 1⟩))) _ [some ⟨0⟩, none] _ loaded rfl rfl rfl
  let opened := @bumper_takes _
    (bumperMachine [.int 3, .int 0, .int 0, .closure ⟨0⟩, .array ⟨0⟩, .int 0, .int 8] 14 4 2
      [bumperContext] (bumperStore (some ⟨13, 1⟩))) _ [some ⟨0⟩, none] _ invoked rfl rfl rfl
  let noted := @bumper_takes _
    (bumperMachine [.int 3, .int 0, .int 0, .closure ⟨0⟩, .array ⟨0⟩, .int 0, .int 8] 15 4 2
      [bumpContext, bumperContext] (bumperStore (some ⟨13, 1⟩))) _ [some ⟨0⟩, none] _ opened rfl rfl
    rfl
  bumper_takes noted rfl rfl rfl

end Sample

theorem captures_have_one_owner_bumper :
    ∃ counts, (Sample.bumperStore (some ⟨13, 1⟩)).Guarded ∧
      (Sample.bumperMachine
        [.int 3, .int 0, .int 0, .closure ⟨0⟩, .array ⟨0⟩, .int 0, .int 8, .array ⟨0⟩] 16 4 2
        [Sample.bumpContext, Sample.bumperContext] (Sample.bumperStore (some ⟨13, 1⟩))).Minds
          Sample.bumper counts [some ⟨0⟩, none] := by
  rcases (@captures_have_one_owner [Sample.bumperUnit] Sample.bumper 16 [] Sample.bumper_accepted
    (.of_length (by decide)) (by decide) (by decide)).1 with ⟨counts, known⟩
  exact ⟨counts, known _ _ Sample.bumper_loaded⟩

end ScriptMachine
