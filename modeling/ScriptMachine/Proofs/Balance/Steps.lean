import ScriptMachine.Proofs.Balance.Changes

/-!
# Steps on charted programs

A machine whose stack is a tower that holds carries out its next instruction in one of four ways. It
goes on with a tower that holds again, yields and leaves such a tower behind, completes, or faults.
A fault is ordinary: the stack is full, a call has the wrong number of arguments or nothing to call,
the step of a loop is zero, or the effect of the instruction faults on its operands.

The towers before and after a step differ by a `Change`. Seen from the frames there are three ways:
they stay as they were, or a frame has been put on top by a call, or the topmost one has been taken
off by a return.
-/

namespace ScriptMachine

/-! ## Faults -/

/-- The fault that an effect ends in. -/
def Effect.fault? {α : Type} : Except RuntimeFault α × Store → Option RuntimeFault
  | (.error fault, _) => some fault
  | (.ok _, _) => none

/-- The fault that comes from what an instruction does to the store with its operands. -/
def Instruction.effectFault? (registry : Registry) (store : Store) :
    Instruction → List Value → Option RuntimeFault
  | .binary operator, [left, right] =>
      Effect.fault? (Effect.binary registry operator left right store)
  | .unary operator, [operand] => Effect.fault? (Effect.unary operator operand store)
  | .callHost name argc binding, args =>
      if args.length = argc then Effect.fault? (Effect.callNamed registry name binding args store)
      else none
  | .callStatic typeName name argc _, args =>
      if args.length = argc then
        Effect.fault? (Effect.callStatic registry typeName name args store)
      else none
  | .callMethod name argc, receiver :: args =>
      if args.length = argc then
        Effect.fault? (Effect.callMember registry receiver name args store)
      else none
  | .loadStatic typeName name _, [] =>
      Effect.fault? (Effect.loadStatic registry typeName name store)
  | .loadField name, [target] => Effect.fault? (Effect.loadField registry target name store)
  | .storeField name, [target, value] =>
      Effect.fault? (Effect.storeField registry target name value store)
  | .loadIndex, [target, index] => Effect.fault? (Effect.loadIndex registry target index store)
  | .storeIndex, [target, index, value] =>
      Effect.fault? (Effect.storeIndex registry target index value store)
  | .getIterator, [value] => Effect.fault? (value.toIterator store)
  | .iterMoveNext, [.iterator id] => Effect.fault? (Effect.moveNext id store)
  | _, _ => none

theorem Effect.gives {α : Type} {given : α} {store : Store} {Q : α → Store → Prop}
    (holds : Q given store) (value : α) (later : Store)
    (same : (Except.ok given, store) = ((.ok value, later) : Except RuntimeFault α × Store)) :
    Q value later := by
  cases same
  exact holds

theorem Effect.no_fault {α : Type} {value : α} {store : Store} {Q : RuntimeFault → Prop}
    (fault : RuntimeFault) (fails : (Except.ok value, store).1 = Except.error fault) : Q fault := by
  cases fails

/-- A fault that a program can bring about. -/
inductive Ordinary (registry : Registry) (instruction : Instruction) (machine : Machine) :
    RuntimeFault → Prop
  | overflow : Ordinary registry instruction machine (.stackOverflow machine.stack.capacity)
  | effect {below operands : List Value} {fault : RuntimeFault}
      (top : machine.stack.items.toList = below ++ operands)
      (faults : instruction.effectFault? registry machine.store operands = some fault) :
      Ordinary registry instruction machine fault
  | argumentCount {name : String} {expected given : Nat}
      (call : instruction.callOperands?.isSome) (differ : expected ≠ given) :
      Ordinary registry instruction machine (.argumentCount name expected given)
  | notCallable {argc : Nat} {typeName : String} (call : instruction = .invokeClosure argc) :
      Ordinary registry instruction machine (.notCallable typeName)
  | zeroStep (test : instruction = .checkStep) : Ordinary registry instruction machine .zeroForStep

/-! ## Outcomes -/

/-- How a step changes the frames. Behind the instruction is `ip`, and the next one is at `there`. -/
inductive Move (instruction : Instruction) (ip there : Nat) (tower next : Tower) : Prop
  | within (callers : next.callers = tower.callers)
      (kept : ∀ base ip, tower.active.Header base ip → next.active.Header base ip)
  | call {below args : List Value} (operands : tower.active.operands = below ++ args)
      (taken : instruction.callOperands? = some args.length)
      (globals : next.globals = tower.globals)
      (callers : next.callers = { tower.active with operands := below } :: tower.callers)
      (header : next.active.Header tower.base ip)
  | leave {caller : Activation} {value : Value} (globals : next.globals = tower.globals)
      (callers : tower.callers = caller :: next.callers)
      (active : next.active = { caller with operands := caller.operands ++ [value] })
      (header : tower.active.Header next.base there)

/-- A step that leaves all slots as they are. -/
theorem Move.operands {instruction : Instruction} {ip there : Nat} {tower next : Tower}
    (callers : next.callers = tower.callers) (shape : next.active.shape = tower.active.shape)
    (slots : next.active.slots = tower.active.slots) :
    Move instruction ip there tower next := by
  refine .within callers fun base back header => ?_
  constructor
  · rw [shape, slots]
    exact header.saved
  · rw [shape, slots]
    exact header.resumption

theorem Instruction.Calls.callOperands {surroundings : Surroundings} {store later : Store}
    {instruction : Instruction} {taken args : List Value} {entry : FunctionEntry}
    (calls : instruction.Calls surroundings store taken args later entry) :
    instruction.callOperands? = some taken.length := by
  cases calls <;> rfl

theorem Instruction.Calls.arity {surroundings : Surroundings} {store later : Store}
    {instruction : Instruction} {taken args : List Value} {entry : FunctionEntry}
    (calls : instruction.Calls surroundings store taken args later entry) :
    entry.arity = args.length := by
  cases calls with
  | function _ arity => exact arity
  | closure _ _ arity => exact arity
  | member _ _ _ arity => exact arity

theorem Activation.header_entered {shape : Shape} {args operands : List Value} {base ip : Nat}
    (arity : shape.arity = args.length) :
    Header ⟨shape, args ++ headerWords base ip, operands⟩ base ip := by
  constructor <;> simp [headerWords, arity]

/-- Every change is a move of the frames. -/
theorem Change.move {surroundings : Surroundings} {tower next : Tower} {behind there : Nat}
    {debug after : List DebugContext} {store later : Store} {instruction : Instruction}
    (change : Change surroundings tower behind debug store instruction next there after later) :
    Move instruction behind there tower next := by
  cases change with
  | works | loadLocal | loadGlobal | storeGlobal | pushDebug | popDebug =>
      exact .operands rfl rfl rfl
  | @storeLocal slot _ _ operands valid =>
      have outsideHeader : slot ≠ tower.active.shape.arity ∧ slot ≠ tower.active.shape.arity + 1 := by
        simp only [Shape.HasSlot, frameHeader] at valid
        omega
      refine .within rfl fun base back header => ⟨?_, ?_⟩
      · exact (List.getElem?_set_ne outsideHeader.1).trans header.saved
      · exact (List.getElem?_set_ne outsideHeader.2).trans header.resumption
  | allocFrame =>
      refine .within rfl fun base back header => ⟨?_, ?_⟩
      · rcases List.getElem?_eq_some_iff.mp header.saved with ⟨inside, _⟩
        exact (List.getElem?_append_left inside).trans header.saved
      · rcases List.getElem?_eq_some_iff.mp header.resumption with ⟨inside, _⟩
        exact (List.getElem?_append_left inside).trans header.resumption
  | call arity operands calls =>
      exact .call operands calls.callOperands rfl rfl
        (Activation.header_entered (arity.trans calls.arity))
  | leave operands callers header => exact .leave rfl callers rfl header

/-- What the step of an instruction comes to on a tower that holds. -/
inductive Outcome (surroundings : Surroundings) (chart : Chart) (capacity : Nat)
    (instruction : Instruction) (tower : Tower) (machine : Machine) : StepResult → Prop
  | goes {next : Tower} {ip : Nat} {debug : List DebugContext} {store : Store}
      (holds : next.Holds surroundings.program chart capacity ip store)
      (follows : machine.store.Follows surroundings.program store)
      (change : Change surroundings tower machine.ip machine.debugStack machine.store instruction
        next ip debug store) :
      Outcome surroundings chart capacity instruction tower machine
        (.ok .next, next.machine capacity ip debug store)
  | yields {next : Tower} {value : Value} {ip : Nat} {debug : List DebugContext} {store : Store}
      (holds : next.Holds surroundings.program chart capacity ip store)
      (follows : machine.store.Follows surroundings.program store)
      (change : Change surroundings tower machine.ip machine.debugStack machine.store instruction
        next ip debug store)
      (yields : instruction = .yieldValue) (given : ∃ below, tower.active.operands = below ++ [value]) :
      Outcome surroundings chart capacity instruction tower machine
        (.ok (.yielded value), next.machine capacity ip debug store)
  | completes {value : Value} {later : Machine} (outermost : tower.callers = [])
      (stack : later.stack = .ofList capacity (tower.globals ++ [value])) (depth : later.depth = 0)
      (returns : instruction = .returnValue tower.active.shape.arity)
      (debug : later.debugStack = machine.debugStack) (store : later.store = machine.store)
      (given : ∃ below, tower.active.operands = below ++ [value]) :
      Outcome surroundings chart capacity instruction tower machine
        (.ok (.completed value), later)
  | faults {fault : RuntimeFault} {later : Machine}
      (ordinary : Ordinary surroundings.registry instruction machine fault)
      (stops : tower.Stops capacity machine.debugStack later) :
      Outcome surroundings chart capacity instruction tower machine (.error fault, later)

section Operands

variable {surroundings : Surroundings} {chart : Chart} {capacity ip there : Nat}
  {instruction : Instruction} {tower : Tower} {store later : Store}
  {debug after : List DebugContext} {below args operands : List Value} {value : Value} {tag : Tag}
  {before tags : List Tag} {iterators : List Nat} {point : Point}

/-- The values below the operands that an instruction takes are still known after it. -/
theorem Tower.Holds.knownBelow
    (holds : tower.Holds surroundings.program chart capacity ip store)
    (taken : tower.active.operands = below ++ args)
    (follows : store.Follows surroundings.program later) :
    ∀ value ∈ below, value.Known later := by
  intro value member
  have present : value ∈ tower.values := by simp [Tower.values, taken, member]
  exact (holds.known value present).mono follows.grows

theorem Tower.Holds.knownArgs
    (holds : tower.Holds surroundings.program chart capacity ip store)
    (taken : tower.active.operands = below ++ args) : ∀ value ∈ args, value.Known store := by
  intro value member
  have present : value ∈ tower.values := by simp [Tower.values, taken, member]
  exact holds.known value present

theorem Tower.Holds.roomBelow
    (holds : tower.Holds surroundings.program chart capacity ip store)
    (taken : tower.active.operands = below ++ args) :
    (tower.floor ++ below).length + args.length ≤ capacity := by
  have room := holds.room
  rw [Tower.values, taken] at room
  simpa [Nat.add_assoc] using room

/-- Going on with other operands. -/
theorem Outcome.continues
    (holds : tower.Holds surroundings.program chart capacity ip store)
    (stands : tower.active.Stands (.running before iterators)) (matched : Matches Tag.Admits tags operands)
    (change : Change surroundings tower (ip + 1) debug store instruction
      (tower.withOperands operands) there after later)
    (placed : chart there = some (tower.active.shape, point))
    (meets : (Point.running tags iterators).Meets point)
    (follows : store.Follows surroundings.program later)
    (known : ∀ value ∈ operands, value.Known later)
    (room : (tower.floor ++ operands).length ≤ capacity) :
    Outcome surroundings chart capacity instruction tower
      (tower.machine capacity (ip + 1) debug store)
      (.ok .next, ⟨.ofList capacity (tower.floor ++ operands), there, tower.base,
        tower.callers.length + 1, after, later⟩) :=
  .goes (holds.operands placed (Tower.stands_withOperands stands matched meets) follows known room)
    follows change

/-- Leaving a value in the place of operands, on a frame that is then as the point there says. -/
theorem Outcome.pushes {result : Except RuntimeFault Value × Store}
    (holds : tower.Holds surroundings.program chart capacity ip store)
    (taken : tower.active.operands = below ++ args)
    (change : ∀ value later, result = (.ok value, later) →
      Change surroundings tower (ip + 1) debug store instruction
        (tower.withOperands (below ++ [value])) (ip + 1) debug later)
    (placed : chart (ip + 1) = some (tower.active.shape, point))
    (stands : ∀ value, result.1 = .ok value →
      (tower.withOperands (below ++ [value])).active.Stands point)
    (kept : surroundings.soundness.Keeps store result)
    (ordinary : ∀ fault, result.1 = .error fault →
      instruction.effectFault? surroundings.registry store args = some fault) :
    Outcome surroundings chart capacity instruction tower
      (tower.machine capacity (ip + 1) debug store)
      (deliver capacity (tower.floor ++ below) (ip + 1) tower.base (tower.callers.length + 1) debug
        result) := by
  rcases result with ⟨_ | value, later⟩
  · refine .faults (@Ordinary.effect _ _ _ (tower.floor ++ below) _ _ ?_ (ordinary _ rfl))
      ⟨⟨below, rfl⟩, rfl⟩
    simp [Tower.machine, Tower.values, taken]
  · rcases Nat.lt_or_ge (tower.floor ++ below).length capacity with room | full
    · rw [deliver_room room, List.append_assoc]
      have next := @Tower.Holds.operands _ _ _ _ _ _ _ _ (below ++ [value]) _ holds placed
        (stands value rfl) kept.follows ?_ ?_
      · exact .goes next kept.follows (change value later rfl)
      · intro other member
        rcases List.mem_append.mp member with old | new
        · exact holds.knownBelow taken kept.follows other old
        · rw [List.mem_singleton.mp new]
          exact kept.allows value rfl
      · rw [← List.append_assoc, List.length_append]
        exact room
    · rw [deliver, if_neg (Nat.not_lt.mpr full)]
      exact .faults .overflow ⟨⟨below, rfl⟩, rfl⟩

/-- Leaving a value in the place of operands. -/
theorem Outcome.delivers {result : Except RuntimeFault Value × Store}
    (holds : tower.Holds surroundings.program chart capacity ip store)
    (stands : tower.active.Stands (.running before iterators))
    (taken : tower.active.operands = below ++ args) (matched : Matches Tag.Admits tags below)
    (change : ∀ value later, result = (.ok value, later) →
      Change surroundings tower (ip + 1) debug store instruction
        (tower.withOperands (below ++ [value])) (ip + 1) debug later)
    (placed : chart (ip + 1) = some (tower.active.shape, point))
    (meets : (Point.running (tag :: tags) iterators).Meets point)
    (kept : surroundings.soundness.Keeps store result)
    (admits : ∀ value, result.1 = .ok value → tag.Admits value)
    (ordinary : ∀ fault, result.1 = .error fault →
      instruction.effectFault? surroundings.registry store args = some fault) :
    Outcome surroundings chart capacity instruction tower
      (tower.machine capacity (ip + 1) debug store)
      (deliver capacity (tower.floor ++ below) (ip + 1) tower.base (tower.callers.length + 1) debug
        result) :=
  .pushes holds taken change placed
    (fun value same => Tower.stands_withOperands stands (matched.push (admits value same)) meets)
    kept ordinary

/-- Taking operands off. -/
theorem Outcome.drops
    (holds : tower.Holds surroundings.program chart capacity ip store)
    (stands : tower.active.Stands (.running before iterators))
    (taken : tower.active.operands = below ++ args) (matched : Matches Tag.Admits tags below)
    (works : instruction.Works surroundings (ip + 1) store args [] later there)
    (placed : chart there = some (tower.active.shape, point))
    (meets : (Point.running tags iterators).Meets point)
    (follows : store.Follows surroundings.program later) :
    Outcome surroundings chart capacity instruction tower
      (tower.machine capacity (ip + 1) debug store)
      (.ok .next, ⟨.ofList capacity (tower.floor ++ below), there, tower.base,
        tower.callers.length + 1, debug, later⟩) := by
  have room := holds.roomBelow taken
  exact .continues holds stands matched (.takes taken works) placed meets follows
    (holds.knownBelow taken follows) (by omega)

/-- Leaving nothing in the place of operands. -/
theorem Outcome.settles {result : Except RuntimeFault Unit × Store}
    (holds : tower.Holds surroundings.program chart capacity ip store)
    (stands : tower.active.Stands (.running before iterators))
    (taken : tower.active.operands = below ++ args) (matched : Matches Tag.Admits tags below)
    (works : ∀ later, result = (.ok (), later) →
      instruction.Works surroundings (ip + 1) store args [] later (ip + 1))
    (placed : chart (ip + 1) = some (tower.active.shape, point))
    (meets : (Point.running tags iterators).Meets point)
    (follows : store.Follows surroundings.program result.2)
    (ordinary : ∀ fault, result.1 = .error fault →
      instruction.effectFault? surroundings.registry store args = some fault) :
    Outcome surroundings chart capacity instruction tower
      (tower.machine capacity (ip + 1) debug store)
      (settle capacity (tower.floor ++ below) (ip + 1) tower.base (tower.callers.length + 1) debug
        result) := by
  rcases result with ⟨_ | _, later⟩
  · refine .faults (@Ordinary.effect _ _ _ (tower.floor ++ below) _ _ ?_ (ordinary _ rfl))
      ⟨⟨below, rfl⟩, rfl⟩
    simp [Tower.machine, Tower.values, taken]
  · exact .drops holds stands taken matched (works later rfl) placed meets follows

/-- Entering a function of the program. -/
theorem Outcome.enters {taken : List Value} {path : List String} {name : String}
    {entry : FunctionEntry} (charted : surroundings.program.Charted chart)
    (found : surroundings.program.instructions[ip]? = some instruction)
    (target : surroundings.program.lookup? path name = some entry)
    (calls : instruction.Calls surroundings store taken args later entry)
    (holds : tower.Holds surroundings.program chart capacity ip store)
    (stands : tower.active.Stands (.running before iterators))
    (operands : tower.active.operands = below ++ taken) (matched : Matches Tag.Admits tags below)
    (placed : chart (ip + 1) = some (tower.active.shape, point))
    (meets : (Point.running (.any :: tags) iterators).Meets point)
    (follows : store.Follows surroundings.program later)
    (known : ∀ value ∈ args, value.Known later)
    (room : (tower.floor ++ below).length + args.length + 2 ≤ capacity) :
    Outcome surroundings chart capacity instruction tower
      (tower.machine capacity (ip + 1) debug store)
      (.ok .next, ⟨.ofList capacity (tower.floor ++ below ++ args ++ headerWords tower.base (ip + 1)),
        entry.offset, (tower.floor ++ below).length, tower.callers.length + 1 + 1, debug, later⟩) := by
  rcases charted.entries path name entry target with ⟨shape, same, atEntry⟩
  have call := calls.callOperands
  have arity := same.trans calls.arity
  let caller : Activation := { tower.active with operands := below }
  let next : Tower :=
    ⟨tower.globals, ⟨shape, args ++ headerWords tower.base (ip + 1), []⟩,
      caller :: tower.callers⟩
  have values : next.values =
      tower.floor ++ below ++ args ++ headerWords tower.base (ip + 1) := by
    simp [next, caller, Tower.values, Tower.floor, content]
  have base : next.base = (tower.floor ++ below).length := by
    simp [next, caller, Tower.base, Tower.floor, content]
  have waits : caller.Waits surroundings.program chart (ip + 1) :=
    ⟨⟨ip, instruction, rfl, found, by simp [call]⟩,
      ⟨tags, iterators, point, placed, meets, stands.1, matched, stands.2.2⟩⟩
  have header : next.active.Header (tower.globals.length + (content tower.callers).length)
      (ip + 1) := by
    rw [← List.length_append]
    exact Activation.header_entered arity
  have nextHolds : next.Holds surroundings.program chart capacity entry.offset later := by
    refine ⟨holds.globals, ⟨.entry, atEntry, ?_, rfl⟩, ⟨⟨ip + 1, header, waits⟩, ?_⟩, ?_,
      follows.sound, ?_⟩
    · simp [next, arity, frameHeader]
    · exact Tower.chained_slots holds.chained rfl rfl
    · rw [values]
      simp only [List.length_append, length_headerWords] at room ⊢
      exact room
    · intro value member
      rw [values] at member
      rcases List.mem_append.mp member with member | word
      · rcases List.mem_append.mp member with old | new
        · have present : value ∈ tower.values := by
            simp only [Tower.values, operands, ← List.append_assoc]
            exact List.mem_append_left _ old
          exact (holds.known value present).mono follows.grows
        · exact known value new
      · simp only [headerWords, List.mem_cons, List.not_mem_nil, or_false] at word
        rcases word with rfl | rfl <;> trivial
  have machine : next.machine capacity entry.offset debug later =
      ⟨.ofList capacity (tower.floor ++ below ++ args ++ headerWords tower.base (ip + 1)),
        entry.offset, (tower.floor ++ below).length, tower.callers.length + 1 + 1, debug, later⟩ := by
    rw [Tower.machine, values, base]
    rfl
  rw [← machine]
  exact .goes nextHolds follows (.call same operands calls)

theorem Tower.machine_of_frame (operands : tower.active.operands = below ++ [value]) :
    tower.machine capacity ip debug store =
      ⟨.ofList capacity (tower.globals ++ content tower.callers ++ (tower.active.slots ++ below) ++
          [value]),
        ip, (tower.globals ++ content tower.callers).length, tower.callers.length + 1, debug,
        store⟩ := by
  rw [machine_of_operands operands]
  simp [floor, base]

theorem Activation.Header.frame {activation : Activation} {base : Nat}
    (header : activation.Header base ip) :
    (activation.slots ++ below)[activation.shape.arity]? = some (.int (Int64.ofNat base)) ∧
      (activation.slots ++ below)[activation.shape.arity + 1]? = some (.int (Int64.ofNat ip)) := by
  rcases List.getElem?_eq_some_iff.mp header.saved with ⟨first, _⟩
  rcases List.getElem?_eq_some_iff.mp header.resumption with ⟨second, _⟩
  rw [List.getElem?_append_left first, List.getElem?_append_left second]
  exact ⟨header.saved, header.resumption⟩

/-- Returning to the caller, or completing. -/
theorem Outcome.returns (bounded : capacity ≤ twoTo 63)
    (small : surroundings.program.size < twoTo 63)
    (holds : tower.Holds surroundings.program chart capacity ip store)
    (taken : tower.active.operands = below ++ [value]) :
    Outcome surroundings chart capacity (.returnValue tower.active.shape.arity) tower
      (tower.machine capacity (ip + 1) debug store)
      ((step surroundings (.returnValue tower.active.shape.arity)).run
        (tower.machine capacity (ip + 1) debug store)) := by
  have room := holds.roomBelow taken
  have chained := holds.chained
  rw [Tower.machine_of_frame taken]
  cases callers : tower.callers with
  | nil =>
      rw [callers] at chained
      have header := @Activation.Header.frame _ below _ _ chained
      rw [step_returnValue (by decide) (by decide) ?room header.1 header.2]
      case room =>
        simp [Tower.floor, callers, content] at room ⊢
        omega
      simp only [List.length_nil, Nat.zero_add, Nat.sub_self, if_true]
      exact .completes callers (by simp [content]) rfl rfl rfl rfl ⟨below, taken⟩
  | cons caller rest =>
      rw [callers] at chained
      rcases chained with ⟨⟨there, header, waits⟩, chained⟩
      rcases waits with ⟨⟨call, _, rfl, called, _⟩, ⟨_, _, point, placed, meets, stands⟩⟩
      have frame := @Activation.Header.frame _ below _ _ header
      have height : (tower.globals ++ content (caller :: rest)).length < capacity := by
        simp [Tower.floor, callers] at room ⊢
        omega
      have baseSmall : tower.globals.length + (content rest).length < twoTo 63 := by
        simp [content] at height
        omega
      have ipSmall : call + 1 < twoTo 63 := by
        have inside := (Array.getElem?_eq_some_iff.mp called).1
        simp only [Program.size] at small
        omega
      rw [step_returnValue baseSmall ipSmall height frame.1 frame.2, if_neg (by simp)]
      let next : Tower :=
        ⟨tower.globals, { caller with operands := caller.operands ++ [value] }, rest⟩
      have values : next.values = tower.globals ++ content (caller :: rest) ++ [value] := by
        simp [next, Tower.values, Tower.floor, content]
      have nextHolds : next.Holds surroundings.program chart capacity (call + 1) store := by
        refine ⟨holds.globals, ⟨point, placed, ?_⟩, ?_, ?_, holds.sound, ?_⟩
        · have standsNext : next.active.Stands (.running (.any :: _) _) :=
            ⟨stands.1, stands.2.1.push trivial, stands.2.2⟩
          exact standsNext.meets meets
        · exact Tower.chained_slots chained rfl rfl
        · rw [values, List.length_append]
          exact height
        · intro other member
          rw [values] at member
          apply holds.known
          simp only [Tower.values, Tower.floor, taken, callers, List.mem_append] at member ⊢
          rcases member with (inGlobals | inFrames) | result
          · exact .inl (.inl (.inl inGlobals))
          · exact .inl (.inl (.inr inFrames))
          · exact .inr (.inr result)
      have machine : next.machine capacity (call + 1) debug store =
          ⟨.ofList capacity (tower.globals ++ content (caller :: rest) ++ [value]), call + 1,
            tower.globals.length + (content rest).length, (caller :: rest).length + 1 - 1, debug,
            store⟩ := by
        rw [Tower.machine, values]
        simp [next, Tower.base]
      rw [← machine]
      exact .goes nextHolds (.refl holds.sound) (.leave taken callers (by simpa using header))

/-- A program has the functions of its action literals. -/
theorem Program.Charted.linked {program : Program} (charted : program.Charted chart)
    {function : FunctionRef} (literal : .makeClosure function ∈ program.instructions) :
    (program.lookup? function.path function.name).isSome := by
  rcases Array.getElem?_of_mem literal with ⟨place, found⟩
  have inside := (Array.getElem?_eq_some_iff.mp found).1
  rcases Option.isSome_iff_exists.mp (charted.total place inside) with ⟨⟨shape, point⟩, known⟩
  rcases charted.checked place shape point known with ⟨instruction, next, here, checked, _⟩
  rw [found] at here
  cases here
  cases checked with
  | plain effect => cases effect
  | makeClosure linked => exact linked

/-- What finding the code of a known closure comes to. -/
theorem Program.Charted.resolveClosure {program : Program}
    (charted : program.Charted chart) (sound : store.Sound program) {id : ClosureId}
    (known : (Value.closure id).Known store) (argc : Nat) :
    ∃ entry later, program.lookup? (store.closure id).function.path
        (store.closure id).function.name = some entry ∧
      store.Follows program later ∧
      Effect.resolveClosure program id argc store =
        (Step.checkArity (store.closure id).function argc entry, later) := by
  rcases @Effect.resolveClosure_known program store id argc sound known with ⟨follows, resolves⟩
  rcases resolves (charted.linked (sound.closures id known).literal) with ⟨entry, found, same⟩
  exact ⟨entry, _, found, follows, Prod.ext same rfl⟩

section Calls

variable (charted : surroundings.program.Charted chart)
  (holds : tower.Holds surroundings.program chart capacity ip store)
  (stands : tower.active.Stands (.running before iterators)) (matched : Matches Tag.Admits tags below)
  (placed : chart (ip + 1) = some (tower.active.shape, point))
  (meets : (Point.running (.any :: tags) iterators).Meets point)

include charted holds stands matched placed meets

theorem Outcome.callsFunction {function : FunctionRef}
    (found : surroundings.program.instructions[ip]? = some (.callFunction function args.length))
    (linked : (surroundings.program.lookup? function.path function.name).isSome)
    (taken : tower.active.operands = below ++ args) :
    Outcome surroundings chart capacity (.callFunction function args.length) tower
      (tower.machine capacity (ip + 1) debug store)
      ((step surroundings (.callFunction function args.length)).run
        (tower.machine capacity (ip + 1) debug store)) := by
  rcases Option.isSome_iff_exists.mp linked with ⟨entry, target⟩
  rw [Tower.machine_of_operands taken]
  rcases Decidable.em (entry.arity = args.length) with arity | arity
  · rcases Nat.lt_or_ge capacity ((tower.floor ++ below).length + args.length + 2) with full | room
    · rcases @step_callFunction_full surroundings capacity (ip + 1) tower.base
        (tower.callers.length + 1) (tower.floor ++ below) args debug store entry function
        (holds.roomBelow taken) full target arity with ⟨more, fails⟩
      rw [fails]
      exact .faults .overflow ⟨⟨below ++ more, by rw [List.append_assoc]⟩, rfl⟩
    · rw [step_callFunction room target arity, ← Tower.machine_of_operands taken]
      exact .enters charted found target (.function target arity) holds stands taken matched placed
        meets (.refl holds.sound) (holds.knownArgs taken) room
  · rw [step_callFunction_arity target arity]
    exact .faults (.argumentCount rfl arity) ⟨⟨below ++ args, by rw [List.append_assoc]⟩, rfl⟩

theorem Outcome.invokesClosure {callee : Value}
    (found : surroundings.program.instructions[ip]? = some (.invokeClosure args.length))
    (taken : tower.active.operands = below ++ callee :: args) :
    Outcome surroundings chart capacity (.invokeClosure args.length) tower
      (tower.machine capacity (ip + 1) debug store)
      ((step surroundings (.invokeClosure args.length)).run
        (tower.machine capacity (ip + 1) debug store)) := by
  have room := holds.roomBelow taken
  rw [List.length_cons] at room
  rw [Tower.machine_of_operands taken]
  by_cases callable : ∃ id, callee = .closure id
  · rcases callable with ⟨id, rfl⟩
    have knownCallee := holds.knownArgs taken _ List.mem_cons_self
    rcases charted.resolveClosure holds.sound knownCallee (args.length + 1) with
      ⟨entry, later, target, follows, resolved⟩
    rcases Decidable.em (entry.arity = args.length + 1) with arity | arity
    · rw [Step.checkArity, if_pos arity] at resolved
      rcases Nat.lt_or_ge capacity ((tower.floor ++ below).length + args.length + 3) with full | free
      · rcases @step_invokeClosure_full surroundings capacity (ip + 1) tower.base
          (tower.callers.length + 1) (tower.floor ++ below) args debug store id entry.offset later
          (by omega) full resolved with ⟨more, fails⟩
        rw [fails]
        exact .faults .overflow ⟨⟨below ++ more, by rw [List.append_assoc]⟩, rfl⟩
      · rw [step_invokeClosure free resolved, ← Tower.machine_of_operands taken]
        refine .enters charted found target (.closure knownCallee target arity resolved) holds stands
          taken matched placed meets follows ?_ (by simpa [Nat.add_assoc] using free)
        intro value member
        rcases List.mem_cons.mp member with rfl | member
        · trivial
        · have known := holds.knownArgs taken value (List.mem_cons_of_mem _ member)
          exact known.mono follows.grows
    · rw [Step.checkArity, if_neg arity] at resolved
      rw [step_invokeClosure_fault resolved]
      exact .faults (.argumentCount rfl arity) ⟨⟨_, by rw [List.append_assoc]⟩, rfl⟩
  · rw [step_invokeClosure_notCallable fun id same => callable ⟨id, same⟩]
    exact .faults (.notCallable rfl) ⟨⟨_, by rw [List.append_assoc]⟩, rfl⟩

theorem Outcome.callsMethod {receiver : Value} {name : String}
    (hosts : surroundings.registry.Sound surroundings.program store)
    (found : surroundings.program.instructions[ip]? = some (.callMethod name args.length))
    (taken : tower.active.operands = below ++ receiver :: args) :
    Outcome surroundings chart capacity (.callMethod name args.length) tower
      (tower.machine capacity (ip + 1) debug store)
      ((step surroundings (.callMethod name args.length)).run
        (tower.machine capacity (ip + 1) debug store)) := by
  have known := holds.knownArgs taken
  have room := holds.roomBelow taken
  rw [List.length_cons] at room
  rcases @Discipline.Lawful.callMember _ _ _ surroundings.soundness_lawful ⟨holds.sound, hosts⟩
    args receiver name known with ⟨follows, result⟩
  rw [Tower.machine_of_operands taken, step_callMethod, ← Tower.machine_of_operands taken]
  rcases called : Effect.callMember surroundings.registry receiver name args store with
    ⟨fault | member, later⟩
  · refine .faults (@Ordinary.effect _ _ _ (tower.floor ++ below) (receiver :: args) _ ?_ ?_)
      ⟨⟨below, rfl⟩, rfl⟩
    · simp [Tower.machine, Tower.values, taken]
    · simp [Instruction.effectFault?, Tower.machine, called, Effect.fault?]
  · rw [called] at follows result
    have knownMember := result member rfl
    cases member with
    | value value =>
        dsimp only [Step.finishMember]
        rw [run_push_next]
        refine .delivers holds stands taken matched ?_ placed meets ⟨follows, ?_⟩
          (fun _ _ => trivial) Effect.no_fault
        · rintro _ _ ⟨rfl, rfl⟩
          exact .works taken (.callMethod called)
        · intro other same
          rw [← Except.ok.inj same]
          exact knownMember
    | closure id =>
        dsimp only [Step.finishMember]
        rcases charted.resolveClosure follows.sound knownMember (args.length + 1) with
          ⟨entry, latest, target, further, resolved⟩
        rcases Decidable.em (entry.arity = args.length + 1) with arity | arity
        · rw [Step.checkArity, if_pos arity] at resolved
          rcases Nat.lt_or_ge capacity ((tower.floor ++ below).length + args.length + 3) with
            full | free
          · rcases @run_callClosure_full capacity (ip + 1) tower.base (tower.callers.length + 1)
              (tower.floor ++ below) args debug later id entry.offset latest surroundings.program
              full resolved with ⟨more, fails⟩
            rw [Step.run_bind, fails]
            exact .faults .overflow ⟨⟨below ++ more, by rw [List.append_assoc]⟩, rfl⟩
          · rw [Step.run_bind, run_callClosure free resolved]
            refine .enters charted found target (.member called knownMember target arity resolved)
              holds stands taken matched placed meets (follows.trans further) ?_
              (by simpa [Nat.add_assoc] using free)
            intro value member
            rcases List.mem_cons.mp member with rfl | member
            · trivial
            · have knownValue := known value (List.mem_cons_of_mem _ member)
              exact knownValue.mono (follows.trans further).grows
        · rw [Step.checkArity, if_neg arity] at resolved
          rw [Step.run_bind, run_callClosure_fault resolved]
          exact .faults (.argumentCount rfl arity) ⟨⟨below, rfl⟩, rfl⟩

end Calls

/-! ## Slots -/

theorem Tower.getElem?_slot {slot : Nat} (inside : slot < tower.active.slots.length) :
    tower.values[tower.base + slot]? = tower.active.slots[slot]? := by
  rw [values, floor, List.append_assoc, List.getElem?_append_right (by simp [base])]
  simp [base, List.getElem?_append_left inside]

theorem Tower.getElem?_global {slot : Nat} (inside : slot < tower.globals.length) :
    tower.values[slot]? = tower.globals[slot]? := by
  simp only [values, floor, List.append_assoc]
  exact List.getElem?_append_left inside

/-- A slot of a frame that stands is on the stack, and is no word of the header. -/
theorem Shape.HasSlot.inside {activation : Activation} {slot : Nat}
    (valid : activation.shape.HasSlot slot) (stands : activation.Stands (.running before iterators)) :
    slot < activation.slots.length ∧ slot ≠ activation.shape.arity ∧
      slot ≠ activation.shape.arity + 1 := by
  have length := stands.1
  simp only [HasSlot, frameHeader] at valid length
  omega

/-- Reading a slot of the running frame. -/
theorem Outcome.loadsLocal {slot : Nat}
    (hosts : surroundings.registry.Sound surroundings.program store)
    (holds : tower.Holds surroundings.program chart capacity ip store)
    (stands : tower.active.Stands (.running tags iterators))
    (found : tower.active.slots[slot]? = some value)
    (placed : chart (ip + 1) = some (tower.active.shape, point))
    (meets : (Point.running (tag :: tags) iterators).Meets point) (admits : tag.Admits value) :
    Outcome surroundings chart capacity (.loadLocal slot) tower
      (tower.machine capacity (ip + 1) debug store)
      ((step surroundings (.loadLocal slot)).run (tower.machine capacity (ip + 1) debug store)) := by
  rcases List.getElem?_eq_some_iff.mp found with ⟨inside, _⟩
  have onStack := (Tower.getElem?_slot inside).trans found
  rw [Tower.machine, step_loadLocal onStack]
  refine .delivers holds stands (List.append_nil _).symm stands.2.1
    (Effect.gives (.loadLocal found)) placed meets
    (surroundings.soundness_lawful.value ⟨holds.sound, hosts⟩
      (holds.known value (List.mem_of_getElem? onStack))) ?_ Effect.no_fault
  intro _ same
  exact Except.ok.inj same ▸ admits

/-- Writing a slot of the running frame. -/
theorem Tower.Holds.setSlot {slot : Nat} {more : List Nat}
    (holds : tower.Holds surroundings.program chart capacity ip store)
    (stands : tower.active.Stands (.running before iterators))
    (valid : tower.active.shape.HasSlot slot) (taken : tower.active.operands = below ++ [value])
    (matched : Matches Tag.Admits tags below)
    (kept : ∀ other ∈ more, ∃ id, (tower.active.slots.set slot value)[other]? = some (.iterator id))
    (placed : chart there = some (tower.active.shape, point))
    (meets : (Point.running tags more).Meets point) :
    Tower.Holds ⟨tower.globals, ⟨tower.active.shape, tower.active.slots.set slot value, below⟩,
      tower.callers⟩ surroundings.program chart capacity there store := by
  rcases valid.inside stands with ⟨inside, notSaved, notResumption⟩
  have room := holds.roomBelow taken
  refine ⟨holds.globals, ⟨point, placed, ?_⟩, ?_, ?_, holds.sound, ?_⟩
  · have standsNext : Activation.Stands
        ⟨tower.active.shape, tower.active.slots.set slot value, below⟩ (.running tags more) :=
      ⟨by simpa using stands.1, matched, kept⟩
    exact standsNext.meets meets
  · exact Tower.chained_slots holds.chained (List.getElem?_set_ne notSaved)
      (List.getElem?_set_ne notResumption)
  · simp only [values, floor, List.length_append, List.length_set] at room ⊢
    omega
  · intro other member
    simp only [values, floor, List.mem_append] at member
    apply holds.known
    simp only [values, floor, taken, List.mem_append, List.mem_singleton]
    rcases member with ((inGlobals | inFrames) | inSlots) | operand
    · exact .inl (.inl (.inl inGlobals))
    · exact .inl (.inl (.inr inFrames))
    · rcases List.mem_or_eq_of_mem_set inSlots with old | new
      · exact .inl (.inr old)
      · exact .inr (.inr new)
    · exact .inr (.inl operand)

theorem Outcome.storesLocal {slot : Nat} {more : List Nat}
    (holds : tower.Holds surroundings.program chart capacity ip store)
    (stands : tower.active.Stands (.running before iterators))
    (valid : tower.active.shape.HasSlot slot) (taken : tower.active.operands = below ++ [value])
    (matched : Matches Tag.Admits tags below)
    (kept : ∀ other ∈ more, ∃ id, (tower.active.slots.set slot value)[other]? = some (.iterator id))
    (placed : chart (ip + 1) = some (tower.active.shape, point))
    (meets : (Point.running tags more).Meets point) :
    Outcome surroundings chart capacity (.storeLocal slot) tower
      (tower.machine capacity (ip + 1) debug store)
      ((step surroundings (.storeLocal slot)).run (tower.machine capacity (ip + 1) debug store)) := by
  have inside := (valid.inside stands).1
  have below_length : tower.base + slot < (tower.floor ++ below).length := by
    rw [List.length_append, Tower.length_floor]
    omega
  rw [Tower.machine_of_operands taken, step_storeLocal below_length,
    ← Tower.machine_of_operands taken]
  have values : (tower.floor ++ below).set (tower.base + slot) value =
      tower.globals ++ content tower.callers ++ tower.active.slots.set slot value ++ below := by
    rw [List.set_append_left _ _ (by rw [Tower.length_floor]; omega), Tower.floor,
      List.set_append_right _ _ (by simp [Tower.base])]
    simp [Tower.base]
  rw [values]
  exact .goes (holds.setSlot stands valid taken matched kept placed meets) (.refl holds.sound)
    (.storeLocal taken valid inside)

theorem Outcome.storesGlobal {slot : Nat}
    (hosts : surroundings.registry.Sound surroundings.program store)
    (holds : tower.Holds surroundings.program chart capacity ip store)
    (stands : tower.active.Stands (.running before iterators))
    (valid : slot < tower.globals.length) (taken : tower.active.operands = below ++ [value])
    (matched : Matches Tag.Admits tags below)
    (placed : chart (ip + 1) = some (tower.active.shape, point))
    (meets : (Point.running tags iterators).Meets point) :
    Outcome surroundings chart capacity (.storeGlobal slot) tower
      (tower.machine capacity (ip + 1) debug store)
      ((step surroundings (.storeGlobal slot)).run
        (tower.machine capacity (ip + 1) debug store)) := by
  have room := holds.roomBelow taken
  have known := holds.knownArgs taken value (List.mem_singleton_self value)
  have follows := @Discipline.Lawful.storeGlobal _ _ _ surroundings.soundness_lawful
    ⟨holds.sound, hosts⟩ surroundings.program.globals[slot]? value known
  have inside : slot < (tower.floor ++ below).length := by
    simp only [Tower.floor, List.length_append]
    omega
  rw [Tower.machine_of_operands taken, step_storeGlobal inside, ← Tower.machine_of_operands taken]
  let next : Tower :=
    ⟨tower.globals.set slot value, { tower.active with operands := below }, tower.callers⟩
  have values : (tower.floor ++ below).set slot value = next.values := by
    simp only [Tower.floor, Tower.values, next, List.append_assoc]
    exact List.set_append_left _ _ valid
  have nextHolds : next.Holds surroundings.program chart capacity (ip + 1)
      (Effect.storeGlobal surroundings.registry surroundings.program.globals[slot]? value
        store).2 := by
    refine ⟨by simpa [next] using holds.globals, ⟨point, placed, ?_⟩, ?_, ?_, follows.sound, ?_⟩
    · have standsNext : next.active.Stands (.running tags iterators) :=
        ⟨stands.1, matched, stands.2.2⟩
      exact standsNext.meets meets
    · rw [show next.globals.length = tower.globals.length by simp [next]]
      exact Tower.chained_slots holds.chained rfl rfl
    · rw [← values, List.length_set]
      omega
    · intro other member
      rw [← values] at member
      rcases List.mem_or_eq_of_mem_set member with old | rfl
      · have present : other ∈ tower.values := by
          simp only [Tower.values, taken, ← List.append_assoc]
          exact List.mem_append_left _ old
        exact (holds.known other present).mono follows.grows
      · exact known.mono follows.grows
  have machine : next.machine capacity (ip + 1) debug
      (Effect.storeGlobal surroundings.registry surroundings.program.globals[slot]? value store).2 =
      ⟨.ofList capacity ((tower.floor ++ below).set slot value), ip + 1, tower.base,
        tower.callers.length + 1, debug,
        (Effect.storeGlobal surroundings.registry surroundings.program.globals[slot]? value
          store).2⟩ := by
    rw [values]
    simp [next, Tower.machine, Tower.base]
  rw [← machine]
  exact .goes nextHolds follows (.storeGlobal taken valid)

/-! ## Instructions that only work on operands -/

theorem Effect.fault?_of_error {α : Type} {result : Except RuntimeFault α × Store}
    {fault : RuntimeFault} (fails : result.1 = .error fault) : Effect.fault? result = some fault := by
  rcases result with ⟨_ | _, _⟩
  · exact congrArg some (Except.error.inj fails)
  · cases fails

theorem Outcome.plain {taken left : Nat} {popped : List Tag}
    (charted : surroundings.program.Charted chart)
    (hosts : surroundings.registry.Sound surroundings.program store)
    (found : surroundings.program.instructions[ip]? = some instruction)
    (effect : instruction.plainEffect? = some (taken, left)) (enough : popped.length = taken)
    (holds : tower.Holds surroundings.program chart capacity ip store)
    (stands : tower.active.Stands (.running (popped ++ tags) iterators))
    (placed : chart (ip + 1) = some (tower.active.shape, point))
    (meets : (Point.running (List.replicate left .any ++ tags) iterators).Meets point) :
    Outcome surroundings chart capacity instruction tower
      (tower.machine capacity (ip + 1) debug store)
      ((step surroundings instruction).run (tower.machine capacity (ip + 1) debug store)) := by
  rcases stands.2.1.split with ⟨below, args, operands, length, matched⟩
  have sound := holds.sound
  have lawful := surroundings.soundness_lawful
  have obeys : surroundings.soundness.obeys store := ⟨sound, hosts⟩
  have known := holds.knownArgs operands
  have machine := @Tower.machine_of_operands tower capacity (ip + 1) store below args debug operands
  have room := holds.roomBelow operands
  rw [enough] at length
  cases instruction with
  | nop =>
      cases effect
      cases List.length_eq_zero_iff.mp length
      rw [List.append_nil] at operands
      exact .continues holds stands (operands ▸ matched) (.rests (List.append_nil _).symm .nop)
        placed meets (.refl sound) (holds.knownBelow (List.append_nil _).symm (.refl sound))
        holds.room
  | pushConst constant =>
      cases effect
      cases List.length_eq_zero_iff.mp length
      rw [List.append_nil] at machine
      rw [machine, step_pushConst, ← machine]
      exact .delivers holds stands operands matched (Effect.gives (.works operands .pushConst))
        placed meets (lawful.value obeys (by cases constant <;> trivial)) (fun _ _ => trivial)
        Effect.no_fault
  | loadStatic typeName name bound =>
      cases effect
      cases List.length_eq_zero_iff.mp length
      rw [List.append_nil] at machine
      rw [machine, step_loadStatic, ← machine]
      exact .delivers holds stands operands matched
        (fun _ _ gives => .works operands (.loadStatic gives)) placed meets
        (lawful.loadStatic obeys) (fun _ _ => trivial)
        (fun _ fails => Effect.fault?_of_error fails)
  | pop =>
      cases effect
      rcases List.length_eq_one_iff.mp length with ⟨value, rfl⟩
      rw [machine, step_pop, ← machine]
      exact .drops holds stands operands matched .pop placed meets (.refl sound)
  | yieldValue =>
      cases effect
      rcases List.length_eq_one_iff.mp length with ⟨value, rfl⟩
      rw [machine, step_yieldValue, ← machine]
      have next := holds.operands placed (Tower.stands_withOperands stands matched meets)
        (.refl sound) (holds.knownBelow operands (.refl sound)) (by omega)
      exact .yields next (.refl sound) (.takes operands .yieldValue) rfl ⟨below, operands⟩
  | unary operator =>
      cases effect
      rcases List.length_eq_one_iff.mp length with ⟨value, rfl⟩
      rw [machine, step_unary, ← machine]
      exact .delivers holds stands operands matched
        (fun _ _ gives => .works operands (.unary gives)) placed meets (lawful.unary obeys)
        (fun _ _ => trivial) (fun _ fails => Effect.fault?_of_error fails)
  | loadField name =>
      cases effect
      rcases List.length_eq_one_iff.mp length with ⟨value, rfl⟩
      rw [machine, step_loadField, ← machine]
      exact .delivers holds stands operands matched
        (fun _ _ gives => .works operands (.loadField gives)) placed meets
        (lawful.loadField obeys) (fun _ _ => trivial) (fun _ fails => Effect.fault?_of_error fails)
  | checkStep =>
      cases effect
      rcases List.length_eq_one_iff.mp length with ⟨value, rfl⟩
      rw [machine, step_checkStep, ← machine]
      cases value.isZeroStep with
      | true => exact .faults (.zeroStep rfl) ⟨⟨tower.active.operands, rfl⟩, rfl⟩
      | false =>
          have any : Tag.any.Admits value := trivial
          exact .continues holds stands (operands ▸ matched.push any) (.rests operands .checkStep)
            placed meets (.refl sound)
            (holds.knownBelow (List.append_nil _).symm (.refl sound)) holds.room
  | binary operator =>
      cases effect
      rcases List.exists_cons_of_length_eq_add_one length with ⟨left, rest, rfl⟩
      rcases List.length_eq_one_iff.mp (Nat.succ.inj length) with ⟨right, rfl⟩
      rw [machine, step_binary, ← machine]
      exact .delivers holds stands operands matched
        (fun _ _ gives => .works operands (.binary gives)) placed meets
        (lawful.binary obeys (known left (by simp)) (known right (by simp)))
        (fun _ _ => trivial) (fun _ fails => Effect.fault?_of_error fails)
  | loadIndex =>
      cases effect
      rcases List.exists_cons_of_length_eq_add_one length with ⟨target, rest, rfl⟩
      rcases List.length_eq_one_iff.mp (Nat.succ.inj length) with ⟨index, rfl⟩
      rw [machine, step_loadIndex, ← machine]
      exact .delivers holds stands operands matched
        (fun _ _ gives => .works operands (.loadIndex gives)) placed meets
        (lawful.loadIndex obeys (.inr (known target (by simp))) (known index (by simp)))
        (fun _ _ => trivial) (fun _ fails => Effect.fault?_of_error fails)
  | storeField name =>
      cases effect
      rcases List.exists_cons_of_length_eq_add_one length with ⟨target, rest, rfl⟩
      rcases List.length_eq_one_iff.mp (Nat.succ.inj length) with ⟨value, rfl⟩
      rw [machine, step_storeField, ← machine]
      exact .settles holds stands operands matched (fun _ gives => .storeField gives) placed meets
        (lawful.storeField obeys (known value (by simp)))
        (fun _ fails => Effect.fault?_of_error fails)
  | storeIndex =>
      cases effect
      rcases List.exists_cons_of_length_eq_add_one length with ⟨target, rest, rfl⟩
      rcases List.exists_cons_of_length_eq_add_one (Nat.succ.inj length) with ⟨index, last, rfl⟩
      rcases List.length_eq_one_iff.mp (Nat.succ.inj (Nat.succ.inj length)) with ⟨value, rfl⟩
      rw [machine, step_storeIndex, ← machine]
      exact .settles holds stands operands matched (fun _ gives => .storeIndex gives) placed meets
        (lawful.storeIndex obeys (known target (by simp)) (known index (by simp))
          (known value (by simp)))
        (fun _ fails => Effect.fault?_of_error fails)
  | callHost name argc binding =>
      cases effect
      subst length
      rw [machine, step_callHost, ← machine]
      exact .delivers holds stands operands matched
        (fun _ _ gives => .works operands (.callHost gives)) placed meets
        (lawful.callNamed obeys known) (fun _ _ => trivial)
        (fun _ fails => (if_pos rfl).trans (Effect.fault?_of_error fails))
  | callStatic typeName name argc bound =>
      cases effect
      subst length
      rw [machine, step_callStatic, ← machine]
      exact .delivers holds stands operands matched
        (fun _ _ gives => .works operands (.callStatic gives)) placed meets
        (lawful.callStatic obeys known) (fun _ _ => trivial)
        (fun _ fails => (if_pos rfl).trans (Effect.fault?_of_error fails))
  | makeArray count =>
      cases effect
      subst length
      rw [machine, step_makeArray, ← machine]
      have made := lawful.newArray obeys fun value present =>
        known value (List.mem_toArray.mp present)
      exact .delivers holds stands operands matched (Effect.gives (.works operands .makeArray))
        placed meets ⟨made.1, fun _ same => Except.ok.inj same ▸ made.2⟩ (fun _ _ => trivial)
        Effect.no_fault
  | callMethod name argc =>
      cases effect
      rcases List.exists_cons_of_length_eq_add_one length with ⟨receiver, args, rfl⟩
      cases Nat.succ.inj length
      exact .callsMethod charted holds stands matched placed meets hosts found operands
  | invokeClosure argc =>
      cases effect
      rcases List.exists_cons_of_length_eq_add_one length with ⟨callee, args, rfl⟩
      cases Nat.succ.inj length
      exact .invokesClosure charted holds stands matched placed meets found operands
  | _ => cases effect

/-! ## All instructions -/

/-- Going to another place. -/
theorem Tower.Holds.moved {here : Point}
    (holds : tower.Holds surroundings.program chart capacity ip store)
    (stands : tower.active.Stands here) (placed : chart there = some (tower.active.shape, point))
    (meets : here.Meets point) :
    tower.Holds surroundings.program chart capacity there store :=
  { holds with here := ⟨point, placed, stands.meets meets⟩ }

theorem Outcome.jumps {here : Point}
    (holds : tower.Holds surroundings.program chart capacity ip store)
    (stands : tower.active.Stands here) (taken : tower.active.operands = below ++ args)
    (works : instruction.Works surroundings (ip + 1) store args args store there)
    (placed : chart there = some (tower.active.shape, point)) (meets : here.Meets point) :
    Outcome surroundings chart capacity instruction tower
      (tower.machine capacity (ip + 1) debug store)
      (.ok .next, ⟨.ofList capacity (tower.floor ++ below ++ args), there, tower.base,
        tower.callers.length + 1, debug, store⟩) := by
  rw [← Tower.machine_of_operands taken]
  exact .goes (holds.moved stands placed meets) (.refl holds.sound) (.rests taken works)

/-- Making room for the locals. -/
theorem Outcome.allocates (holds : tower.Holds surroundings.program chart capacity ip store)
    (stands : tower.active.Stands .entry)
    (placed : chart (ip + 1) = some (tower.active.shape, point))
    (meets : Point.opening.Meets point) :
    Outcome surroundings chart capacity (.allocFrame tower.active.shape.locals) tower
      (tower.machine capacity (ip + 1) debug store)
      ((step surroundings (.allocFrame tower.active.shape.locals)).run
        (tower.machine capacity (ip + 1) debug store)) := by
  rcases stands with ⟨length, empty⟩
  have values : tower.values = tower.floor := by rw [Tower.values, empty, List.append_nil]
  have held := holds.room
  rw [values] at held
  rw [Tower.machine, values]
  rcases Nat.lt_or_ge capacity (tower.floor.length + tower.active.shape.locals) with full | room
  · rcases @step_allocFrame_full surroundings capacity (ip + 1) tower.base
      (tower.callers.length + 1) tower.floor debug store tower.active.shape.locals held full with
      ⟨more, fails⟩
    rw [fails]
    exact .faults .overflow ⟨⟨more, rfl⟩, rfl⟩
  · rw [step_allocFrame room]
    let slots := tower.active.slots ++ List.replicate tower.active.shape.locals .unit
    let next : Tower := ⟨tower.globals, ⟨tower.active.shape, slots, []⟩, tower.callers⟩
    have keeps : ∀ slot, slot < tower.active.shape.arity + 2 →
        slots[slot]? = tower.active.slots[slot]? :=
      fun slot inside => List.getElem?_append_left (by rw [length]; exact inside)
    have nextValues : next.values =
        tower.floor ++ List.replicate tower.active.shape.locals .unit := by
      simp [next, slots, Tower.values, Tower.floor]
    have nextHolds : next.Holds surroundings.program chart capacity (ip + 1) store := by
      refine ⟨holds.globals, ⟨point, placed, ?_⟩, ?_, ?_, holds.sound, ?_⟩
      · have standsNext : next.active.Stands .opening := ⟨by simp [next, slots, length], rfl⟩
        exact standsNext.meets meets
      · exact Tower.chained_slots holds.chained (keeps _ (by omega)) (keeps _ (by omega))
      · rw [nextValues, List.length_append, List.length_replicate]
        exact room
      · intro value member
        rw [nextValues] at member
        rcases List.mem_append.mp member with old | new
        · exact holds.known value (values ▸ old)
        · rw [List.eq_of_mem_replicate new]
          trivial
    rw [← nextValues]
    exact .goes nextHolds (.refl holds.sound) (.allocFrame empty)

/-- An iterator over a value is an iterator. -/
theorem Value.toIterator_ok {result : Value} (same : (value.toIterator store).1 = .ok result) :
    Tag.iterator.Admits result := by
  unfold toIterator at same
  cases value with
  | iterator id => exact ⟨id, (Except.ok.inj same).symm⟩
  | array id => exact ⟨_, (Except.ok.inj same).symm⟩
  | str text => exact ⟨_, (Except.ok.inj same).symm⟩
  | _ => cases same

/-- Advancing an iterator. -/
theorem Outcome.advances {id : IteratorId}
    (hosts : surroundings.registry.Sound surroundings.program store)
    (holds : tower.Holds surroundings.program chart capacity ip store)
    (stands : tower.active.Stands (.running before iterators))
    (operands : tower.active.operands = below ++ [.iterator id])
    (matched : Matches Tag.Admits tags below)
    (placed : chart (ip + 1) = some (tower.active.shape, point))
    (meets : (Point.running (.any :: tags) iterators).Meets point) :
    Outcome surroundings chart capacity .iterMoveNext tower
      (tower.machine capacity (ip + 1) debug store)
      ((step surroundings .iterMoveNext).run (tower.machine capacity (ip + 1) debug store)) := by
  have obeys : surroundings.soundness.obeys store := ⟨holds.sound, hosts⟩
  have follows := @Discipline.Lawful.moveNext _ _ _ surroundings.soundness_lawful obeys id
  rw [Tower.machine_of_operands operands, step_iterMoveNext, ← Tower.machine_of_operands operands]
  rcases moved : Effect.moveNext id store with ⟨fault | advanced, later⟩
  · refine .delivers holds stands operands matched (fun _ _ => nofun) placed meets ⟨?_, nofun⟩
      (fun _ => nofun) ?_
    · rwa [moved] at follows
    · intro _ fails
      cases fails
      exact Effect.fault?_of_error (congrArg Prod.fst moved)
  · refine .delivers holds stands operands matched (Effect.gives (.works operands (.iterMoveNext moved)))
      placed meets ⟨?_, ?_⟩ (fun _ _ => trivial) Effect.no_fault
    · rwa [moved] at follows
    · intro value same
      exact Except.ok.inj same ▸ trivial

/-- A machine with a tower that holds has a next instruction, and its step has an outcome. -/
theorem Tower.Holds.outcome (charted : surroundings.program.Charted chart)
    (bounded : capacity ≤ twoTo 63) (small : surroundings.program.size < twoTo 63)
    (hosts : surroundings.registry.Sound surroundings.program store)
    (holds : tower.Holds surroundings.program chart capacity ip store) :
    ∃ instruction, surroundings.program.instructions[ip]? = some instruction ∧
      Outcome surroundings chart capacity instruction tower
        (tower.machine capacity (ip + 1) debug store)
        ((step surroundings instruction).run (tower.machine capacity (ip + 1) debug store)) := by
  have sound := holds.sound
  have lawful := surroundings.soundness_lawful
  have obeys : surroundings.soundness.obeys store := ⟨sound, hosts⟩
  rcases holds.here with ⟨point, here, stands⟩
  rcases charted.checked ip _ point here with ⟨instruction, next, found, checked, falls⟩
  refine ⟨instruction, found, ?_⟩
  cases checked with
  | plain effect =>
      rcases falls _ rfl with ⟨there, placed, meets⟩
      exact .plain charted hosts found effect List.length_replicate holds stands placed meets
  | @pop tag =>
      rcases falls _ rfl with ⟨there, placed, meets⟩
      exact @Outcome.plain _ _ _ _ _ _ _ _ _ _ _ _ _ [tag] charted hosts found rfl rfl holds stands
        placed meets
  | loadKept =>
      rcases falls _ rfl with ⟨there, placed, meets⟩
      exact @Outcome.plain _ _ _ _ _ _ _ _ _ _ _ _ _ [.any, .carrier] charted hosts found rfl rfl
        holds stands placed meets
  | storeKept =>
      rcases falls _ rfl with ⟨there, placed, meets⟩
      exact @Outcome.plain _ _ _ _ _ _ _ _ _ _ _ _ _ [.any, .any, .carrier] charted hosts found rfl
        rfl holds stands placed meets
  | loadLocal valid =>
      rcases falls _ rfl with ⟨there, placed, meets⟩
      exact .loadsLocal hosts holds stands (List.getElem?_eq_getElem (valid.inside stands).1) placed
        meets trivial
  | loadCarrier keeps =>
      rcases falls _ rfl with ⟨there, placed, meets⟩
      have inside : 0 < tower.active.slots.length := by
        have length := stands.1
        simp only [Program.context, Shape.arity, FunctionSource.arity] at keeps length
        omega
      exact .loadsLocal hosts holds stands (List.getElem?_eq_getElem inside) placed meets trivial
  | loadIterator valid known =>
      rcases falls _ rfl with ⟨there, placed, meets⟩
      rcases stands.2.2 _ known with ⟨id, slotFound⟩
      exact .loadsLocal hosts holds stands slotFound placed meets ⟨id, rfl⟩
  | @storeLocal slot _ _ valid free =>
      rcases falls _ rfl with ⟨there, placed, meets⟩
      rcases stands.2.1 with ⟨below, value, operands, _, matched⟩
      refine .storesLocal holds stands valid operands matched ?_ placed meets
      intro other member
      have differ : slot ≠ other := by
        rintro rfl
        exact free member
      rw [List.getElem?_set_ne differ]
      exact stands.2.2 other member
  | @storeIterator slot _ _ valid =>
      rcases falls _ rfl with ⟨there, placed, meets⟩
      rcases stands.2.1 with ⟨below, value, operands, ⟨id, rfl⟩, matched⟩
      refine .storesLocal holds stands valid operands matched ?_ placed meets
      intro other member
      rcases Decidable.em (other = slot) with rfl | differ
      · exact ⟨id, List.getElem?_set_self (valid.inside stands).1⟩
      · rw [List.getElem?_set_ne (Ne.symm differ)]
        exact stands.2.2 other ((List.mem_cons.mp member).resolve_left differ)
  | @loadGlobal slot _ _ valid =>
      rcases falls _ rfl with ⟨there, placed, meets⟩
      have inside : slot < tower.globals.length := Nat.lt_of_lt_of_eq valid holds.globals.symm
      have found := (Tower.getElem?_global inside).trans (List.getElem?_eq_getElem inside)
      rw [Tower.machine, step_loadGlobal found]
      exact .delivers holds stands (List.append_nil _).symm stands.2.1
        (Effect.gives (.loadGlobal (List.getElem?_eq_getElem inside))) placed meets
        (lawful.value obeys (holds.known _ (List.mem_of_getElem? found))) (fun _ _ => trivial)
        Effect.no_fault
  | storeGlobal valid =>
      rcases falls _ rfl with ⟨there, placed, meets⟩
      rcases stands.2.1 with ⟨below, value, operands, _, matched⟩
      exact .storesGlobal hosts holds stands (Nat.lt_of_lt_of_eq valid holds.globals.symm) operands
        matched placed meets
  | callFunction linked =>
      rcases falls _ rfl with ⟨there, placed, meets⟩
      rcases stands.2.1.split with ⟨below, args, operands, length, matched⟩
      rw [List.length_replicate] at length
      rw [← length] at found ⊢
      exact .callsFunction charted holds stands matched placed meets found linked operands
  | makeCarrier =>
      rcases falls _ rfl with ⟨there, placed, meets⟩
      rcases stands.2.1.split with ⟨below, args, operands, length, matched⟩
      have known := holds.knownArgs operands
      have made := lawful.newArray obeys fun value present =>
        known value (List.mem_toArray.mp present)
      rw [List.length_replicate] at length
      rw [← length, Tower.machine_of_operands operands, step_makeArray,
        ← Tower.machine_of_operands operands]
      cases meets
      refine .pushes holds operands (Effect.gives (.works operands .makeArray)) placed ?_
        ⟨made.1, fun _ same => Except.ok.inj same ▸ made.2⟩ Effect.no_fault
      intro value same
      cases same
      exact ⟨stands.1, ⟨below, _, rfl, matched⟩, stands.2.2⟩
  | makeClosure linked =>
      rcases falls _ rfl with ⟨there, placed, meets⟩
      rcases stands.2.1 with ⟨below, id, operands, matched⟩
      rw [Tower.machine_of_operands operands, step_makeClosure, ← Tower.machine_of_operands operands]
      refine .pushes holds operands (Effect.gives (.works operands .makeClosure)) placed ?_
        (Surroundings.soundness_makeClosure sound (Array.mem_of_getElem? found)) Effect.no_fault
      intro value _
      have standsNext : (tower.withOperands (below ++ [value])).active.Stands
          (.running (.any :: _) _) := ⟨stands.1, matched.push trivial, stands.2.2⟩
      exact standsNext.meets meets
  | getIterator =>
      rcases falls _ rfl with ⟨there, placed, meets⟩
      rcases stands.2.1 with ⟨below, value, operands, _, matched⟩
      rw [Tower.machine_of_operands operands, step_getIterator, ← Tower.machine_of_operands operands]
      exact .delivers holds stands operands matched
        (fun _ _ gives => .works operands (.getIterator gives)) placed meets
        (lawful.toIterator obeys
          (holds.knownArgs operands value (List.mem_singleton_self value)))
        (fun _ same => Value.toIterator_ok same) (fun _ fails => Effect.fault?_of_error fails)
  | iterMoveNext =>
      rcases falls _ rfl with ⟨there, placed, meets⟩
      rcases stands.2.1 with ⟨below, value, operands, ⟨id, rfl⟩, matched⟩
      exact .advances hosts holds stands operands matched placed meets
  | iterCurrent =>
      rcases falls _ rfl with ⟨there, placed, meets⟩
      rcases stands.2.1 with ⟨below, value, operands, ⟨id, rfl⟩, matched⟩
      rw [Tower.machine_of_operands operands, step_iterCurrent, ← Tower.machine_of_operands operands]
      exact .delivers holds stands operands matched
        (Effect.gives (.works operands .iterCurrent)) placed meets
        (lawful.value obeys (sound.iterators id).1) (fun _ _ => trivial) Effect.no_fault
  | jump there meets =>
      exact .goes (holds.moved stands there meets) (.refl sound)
        (.rests (List.append_nil _).symm .jump)
  | jumpIfFalse there meets =>
      rcases falls _ rfl with ⟨behind, placed, meetsBehind⟩
      rcases stands.2.1 with ⟨below, value, operands, _, matched⟩
      rw [Tower.machine_of_operands operands, step_jumpIfFalse, ← Tower.machine_of_operands operands]
      cases truth : value.isTruthy with
      | true =>
          exact .drops holds stands operands matched (.falseStays truth) placed meetsBehind
            (.refl sound)
      | false =>
          exact .drops holds stands operands matched (.falseJumps truth) there meets (.refl sound)
  | jumpIfFalseKeep there meets =>
      rcases falls _ rfl with ⟨behind, placed, meetsBehind⟩
      rcases stands.2.1 with ⟨below, value, operands, _, matched⟩
      rw [Tower.machine_of_operands operands, step_jumpIfFalseKeep,
        ← Tower.machine_of_operands operands]
      cases truth : value.isTruthy with
      | true =>
          exact .drops holds stands operands matched (.falseDrops truth) placed meetsBehind
            (.refl sound)
      | false => exact .jumps holds stands operands (.falseKeeps truth) there meets
  | jumpIfTrueKeep there meets =>
      rcases falls _ rfl with ⟨behind, placed, meetsBehind⟩
      rcases stands.2.1 with ⟨below, value, operands, _, matched⟩
      rw [Tower.machine_of_operands operands, step_jumpIfTrueKeep,
        ← Tower.machine_of_operands operands]
      cases truth : value.isTruthy with
      | true => exact .jumps holds stands operands (.trueKeeps truth) there meets
      | false =>
          exact .drops holds stands operands matched (.trueDrops truth) placed meetsBehind
            (.refl sound)
  | allocFrame =>
      rcases falls _ rfl with ⟨there, placed, meets⟩
      exact .allocates holds stands placed meets
  | pushDebug =>
      rcases falls _ rfl with ⟨there, placed, meets⟩
      have standsNext : tower.active.Stands (.running [] []) :=
        ⟨stands.1, stands.2, List.forall_mem_nil _⟩
      exact .goes (holds.moved standsNext placed meets) (.refl sound) .pushDebug
  | popDebug =>
      rcases falls _ rfl with ⟨there, placed, meets⟩
      have standsNext : tower.active.Stands (.leaving (.any :: _)) := ⟨stands.1, stands.2.1⟩
      exact .goes (holds.moved standsNext placed meets) (.refl sound) .popDebug
  | returnValue =>
      rcases stands.2 with ⟨below, value, operands, _, matched⟩
      exact .returns bounded small holds operands

end Operands

end ScriptMachine
