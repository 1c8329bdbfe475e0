import ScriptMachine.Proofs.Balance.Passages
import ScriptMachine.Proofs.Balance.Returns

/-!
# What fault reports list

A function is noted for fault reports by its second instruction, and is not noted any more from the
instruction before its return on. That is code like any other, apart from the calls themselves. All
the same the functions noted are always those whose frames are on the stack, except that the running
function is missing while its frame is opened and when it is about to return. Neither the
instruction that notes a function nor those behind its last one but the return raise a fault, so what
a report lists is the chain of calls at the fault, and on completion nothing is noted any more.
-/

namespace ScriptMachine

/-! ## The chain of calls -/

/-- The function whose code a place is in. -/
def sourceAt? (placed : List Placement) (ip : Nat) : Option FunctionSource :=
  (placed.find? fun placement =>
    decide (placement.offset ≤ ip ∧ ip < placement.offset + placement.code.length)).map
      Placement.source

/-- The functions of so many frames, from the one that starts at `base` and is at `ip` outwards. The
header of each says where the frame of its caller starts and where the caller goes on. -/
def chainFrom (placed : List Placement) (values : List Value) : Nat → Nat → Nat → List FunctionSource
  | 0, _, _ => []
  | depth + 1, base, ip =>
      match sourceAt? placed ip with
      | none => []
      | some source =>
          source :: match readHeader values (base + source.arity) with
            | .ok (savedBase, returnIp) => chainFrom placed values depth savedBase returnIp
            | .error _ => []

namespace Machine

/-- The functions whose frames are on the stack, the innermost first. -/
def chain (placed : List Placement) (machine : Machine) : List FunctionSource :=
  chainFrom placed machine.stack.items.toList machine.depth machine.base machine.ip

/-- The functions that are active where an instruction faults: those of all frames. A function whose
frame cannot be completed is not active yet. -/
def activeAt (placed : List Placement) (machine : Machine) : Instruction → List FunctionSource
  | .allocFrame _ => (machine.chain placed).tail
  | _ => machine.chain placed

/-- The report of a fault of the next instruction: it names the fault, the instruction, its place
and the active functions. -/
def report (placed : List Placement) (machine : Machine) (instruction : Instruction)
    (fault : RuntimeFault) : FaultReport :=
  ⟨fault, some instruction, machine.ip,
    (machine.activeAt placed instruction).map FunctionSource.context⟩

end Machine

/-- Whether the running function is not noted before an instruction: its frame is being opened, or it
is about to return. -/
def Instruction.isUnnoted : Instruction → Bool
  | .allocFrame _ | .pushDebug _ | .returnValue _ => true
  | _ => false

/-! ## The functions of places -/

theorem LaidOut.exists_placement {linkage : Linkage} {offset ip : Nat} {placed : List Placement}
    (laidOut : LaidOut linkage offset placed) (lower : offset ≤ ip)
    (upper : ip < offset + (placed.flatMap Placement.code).length) :
    ∃ placement ∈ placed, placement.offset ≤ ip ∧
      ip < placement.offset + placement.code.length := by
  induction laidOut with
  | nil =>
      rw [List.flatMap_nil, List.length_nil] at upper
      omega
  | @cons offset source code actions rest lowered restLaidOut ih =>
      rcases Nat.lt_or_ge ip (offset + code.length) with early | late
      · exact ⟨_, List.mem_cons_self, lower, early⟩
      · simp only [List.flatMap_cons, List.length_append] at upper
        rcases ih late (by omega) with ⟨placement, member, inside⟩
        exact ⟨placement, List.mem_cons_of_mem _ member, inside⟩

section Chains

variable {units : List ProgramUnit} {globals : List String} {program : Program}
  {placed : List Placement} {chart : Chart} {capacity ip there : Nat} {tower next : Tower}
  {machine : Machine} {shape : Shape} {point : Point} {debug after : List DebugContext}
  {store later : Store} {instruction : Instruction}

/-- The function that a chart gives to a place is the one whose code the place is in. -/
theorem Chart.Homes.sourceAt? (homes : chart.Homes placed)
    (compiled : program.Compiled units globals placed) (charted : program.Charted chart)
    (here : chart ip = some (shape, point)) :
    ScriptMachine.sourceAt? placed ip = some shape.source := by
  rcases charted.checked ip shape point here with ⟨_, _, found, _⟩
  have inside := (Array.getElem?_eq_some_iff.mp found).1
  rw [← Array.length_toList, compiled.instructions] at inside
  rcases compiled.laidOut.exists_placement (Nat.zero_le ip) (by omega) with
    ⟨witness, witnessMem, around⟩
  unfold ScriptMachine.sourceAt?
  cases first : placed.find? fun placement =>
      decide (placement.offset ≤ ip ∧ ip < placement.offset + placement.code.length) with
  | none => exact absurd (by simpa using around) (List.find?_eq_none.mp first witness witnessMem)
  | some placement =>
      have covers := List.find?_some first
      simp only [decide_eq_true_eq] at covers
      rcases homes placement (List.mem_of_find?_eq_some first) with ⟨locals, _, places⟩
      rcases places (ip - placement.offset) (by omega) with ⟨known, same⟩
      rw [Nat.add_sub_cancel' covers.1, here] at same
      cases same
      rfl

/-- The functions of frames. -/
def Tower.sources (tower : Tower) : List FunctionSource :=
  (tower.active :: tower.callers).map fun activation => activation.shape.source

/-- The chain of calls, read off a stack of frames that are chained. -/
theorem Chained.chainFrom_eq (homes : chart.Homes placed)
    (compiled : program.Compiled units globals placed) (charted : program.Charted chart)
    (small : program.size < twoTo 63) {below above : List Value} {activation : Activation}
    {callers : List Activation} (chained : Chained program chart below.length (activation :: callers))
    (here : chart ip = some (activation.shape, point))
    (room : (below ++ content (activation :: callers)).length ≤ twoTo 63) :
    chainFrom placed (below ++ content (activation :: callers) ++ above) (callers.length + 1)
        (below ++ content callers).length ip =
      (activation :: callers).map fun activation => activation.shape.source := by
  have split : below ++ content (activation :: callers) ++ above =
      below ++ content callers ++ activation.slots ++ (activation.operands ++ above) := by
    simp [content]
  induction callers generalizing activation ip point above with
  | nil =>
      have words := @Activation.Header.read _ 0 0 (below ++ content [])
        (activation.operands ++ above) chained (by decide) (by decide)
      simp only [Shape.arity, ← split] at words
      rw [List.length_nil, chainFrom, homes.sourceAt? compiled charted here]
      simp only [words]
      rfl
  | cons caller rest ih =>
      rcases chained with ⟨⟨back, header, waits⟩, chained⟩
      have room' : (below ++ content (caller :: rest)).length + activation.slots.length ≤
          twoTo 63 := by
        simp only [content, List.length_append] at room ⊢
        omega
      rcases waits.there with ⟨_, _, _, there, _⟩
      rcases waits.call with ⟨call, _, rfl, called, _⟩
      have ipSmall : call + 1 < twoTo 63 := by
        have inside := (Array.getElem?_eq_some_iff.mp called).1
        simp only [Program.size] at small
        omega
      have baseSmall : below.length + (content rest).length < twoTo 63 := by
        have inside := (List.getElem?_eq_some_iff.mp header.saved).1
        simp only [content, List.length_append] at room'
        omega
      have words := @Activation.Header.read _ _ _ (below ++ content (caller :: rest))
        (activation.operands ++ above) header baseSmall ipSmall
      simp only [Shape.arity, ← split] at words
      rw [List.length_cons, chainFrom, homes.sourceAt? compiled charted here]
      simp only [words]
      have outer := @ih _ _ (activation.slots ++ (activation.operands ++ above)) _ chained there
        (by omega) (by simp [content])
      rw [← List.length_append, split, List.append_assoc, outer]
      rfl

/-- The functions of the frames of a machine with a tower that holds. -/
theorem Machine.Tall.chain_eq (homes : chart.Homes placed)
    (compiled : program.Compiled units globals placed) (charted : program.Charted chart)
    (bounded : capacity ≤ twoTo 63) (small : program.size < twoTo 63)
    (tall : machine.Tall program chart capacity tower) : machine.chain placed = tower.sources := by
  rcases tall with ⟨same, holds⟩
  rcases holds.here with ⟨point, here, _⟩
  have values : tower.values = tower.globals ++ content (tower.active :: tower.callers) ++ [] := by
    simp [Tower.values, Tower.floor, content]
  have room := holds.room
  rw [values, List.append_nil] at room
  rw [Machine.chain, same]
  simp only [Tower.machine, ValueStack.toList_items_ofList, values, Tower.base]
  exact holds.chained.chainFrom_eq homes compiled charted small here (Nat.le_trans room bounded)

/-! ## What is noted -/

/-- Whether the running function is noted for fault reports at a point. -/
def Point.noted : Point → Bool
  | .running _ _ | .closing _ _ => true
  | _ => false

/-- The functions noted are those of all frames, with the running one only where it is noted. -/
def Tower.Notes (tower : Tower) (chart : Chart) (ip : Nat) (debug : List DebugContext) : Prop :=
  ∃ point, chart ip = some (tower.active.shape, point) ∧
    debug = (if point.noted then tower.sources else tower.sources.tail).map FunctionSource.context

theorem Point.Meets.noted {before after : Point} (meets : before.Meets after) :
    after.noted = before.noted := by
  cases meets <;> rfl

/-- What the chart says of a point shows in the instruction there. -/
theorem Program.Charted.noted (charted : program.Charted chart)
    (here : chart ip = some (shape, point)) (found : program.instructions[ip]? = some instruction) :
    point.noted = !instruction.isUnnoted := by
  rcases charted.checked ip shape point here with ⟨_, _, same, checked, _⟩
  cases found.symm.trans same
  cases checked with
  | plain effect => cases instruction <;> first | rfl | cases effect
  | _ => rfl

theorem Passage.noted {taken left : Nat}
    (passage : Passage chart shape there instruction point taken left) :
    ∃ target, chart there = some (shape, target) ∧ target.noted = point.noted := by
  cases passage with
  | handles _ placed meets => exact ⟨_, placed, meets.noted⟩
  | makeCarrier placed => exact ⟨_, placed, rfl⟩
  | makeClosure placed meets => exact ⟨_, placed, meets.noted⟩

namespace Tower.Notes

/-- Going on inside a function. -/
theorem within {target : Point} (notes : tower.Notes chart ip debug)
    (here : chart ip = some (tower.active.shape, point)) (sources : next.sources = tower.sources)
    (shape : next.active.shape = tower.active.shape)
    (placed : chart there = some (tower.active.shape, target)) (noted : target.noted = point.noted) :
    next.Notes chart there debug := by
  rcases notes with ⟨point, same, rfl⟩
  cases here.symm.trans same
  exact ⟨target, shape ▸ placed, by rw [noted, sources]⟩

theorem step {surroundings : Surroundings} (charted : surroundings.program.Charted chart)
    (small : surroundings.program.size < twoTo 63)
    (found : surroundings.program.instructions[ip]? = some instruction)
    (change : Change surroundings tower (ip + 1) debug store instruction next there after later)
    (holds : tower.Holds surroundings.program chart capacity ip store)
    {final : Store} (holdsNext : next.Holds surroundings.program chart capacity there final)
    (notes : tower.Notes chart ip debug) : next.Notes chart there after := by
  rcases holds.here with ⟨point, here, _⟩
  rcases charted.checked ip _ point here with ⟨_, _, same, checked, falls⟩
  cases found.symm.trans same
  cases change with
  | works operands works =>
      rcases (charted.works here found works).noted with ⟨target, placed, noted⟩
      exact notes.within here rfl rfl placed noted
  | loadLocal =>
      cases checked with
      | plain effect => cases effect
      | loadLocal | loadIterator | loadCarrier =>
          rcases falls _ rfl with ⟨target, placed, meets⟩
          exact notes.within here rfl rfl placed meets.noted
  | storeLocal =>
      cases checked with
      | plain effect => cases effect
      | storeLocal | storeIterator =>
          rcases falls _ rfl with ⟨target, placed, meets⟩
          exact notes.within here rfl rfl placed meets.noted
  | loadGlobal =>
      cases checked with
      | plain effect => cases effect
      | loadGlobal =>
          rcases falls _ rfl with ⟨target, placed, meets⟩
          exact notes.within here rfl rfl placed meets.noted
  | storeGlobal =>
      cases checked with
      | plain effect => cases effect
      | storeGlobal =>
          rcases falls _ rfl with ⟨target, placed, meets⟩
          exact notes.within here rfl rfl placed meets.noted
  | allocFrame =>
      rcases notes with ⟨point, known, rfl⟩
      cases here.symm.trans known
      cases checked with
      | plain effect => cases effect
      | allocFrame =>
          rcases falls _ rfl with ⟨target, placed, meets⟩
          exact ⟨target, placed, by rw [meets.noted]; rfl⟩
  | pushDebug =>
      rcases notes with ⟨point, known, rfl⟩
      cases here.symm.trans known
      cases checked with
      | plain effect => cases effect
      | pushDebug =>
          rcases falls _ rfl with ⟨target, placed, meets⟩
          exact ⟨target, placed, by rw [meets.noted]; rfl⟩
  | popDebug =>
      rcases notes with ⟨point, known, rfl⟩
      cases here.symm.trans known
      cases checked with
      | plain effect => cases effect
      | popDebug =>
          rcases falls _ rfl with ⟨target, placed, meets⟩
          exact ⟨target, placed, by rw [meets.noted]; rfl⟩
  | call arity operands calls =>
      rcases notes with ⟨point, known, rfl⟩
      rcases charted.calls here found calls with ⟨⟨_, _, _, rfl, _⟩, shape, _, entry⟩
      cases here.symm.trans known
      rcases holdsNext.here with ⟨target, atEntry, _⟩
      cases entry.symm.trans atEntry
      exact ⟨.entry, entry, rfl⟩
  | leave operands callers header =>
      rcases notes with ⟨point, known, rfl⟩
      cases here.symm.trans known
      cases checked with
      | plain effect => cases effect
      | returnValue =>
          rcases holdsNext.here with ⟨target, placed, _⟩
          have waits := holds.waits small callers header
            (Nat.lt_trans (charted.place_lt placed) small)
          rcases waits.there with ⟨_, _, behind, there, meets, _⟩
          exact ⟨behind, there, by rw [meets.noted]; simp [Point.noted, Tower.sources, callers]⟩

end Tower.Notes

/-- Of the instructions at which the running function is not noted, only the one that makes room for
the locals can fault. -/
theorem Tower.Holds.allocates_of_fault {surroundings : Surroundings}
    (charted : surroundings.program.Charted chart) (bounded : capacity ≤ twoTo 63)
    (small : surroundings.program.size < twoTo 63)
    (holds : tower.Holds surroundings.program chart capacity ip store)
    (found : surroundings.program.instructions[ip]? = some instruction)
    (unnoted : instruction.isUnnoted = true) {fault : RuntimeFault} {stopped : Machine}
    (faults : (step surroundings instruction).run (tower.machine capacity there debug store) =
      (.error fault, stopped)) : ∃ locals, instruction = .allocFrame locals := by
  cases instruction with
  | allocFrame locals => exact ⟨locals, rfl⟩
  | pushDebug context => cases faults
  | returnValue params =>
      rcases holds.here with ⟨point, here, stands⟩
      rcases charted.checked ip _ point here with ⟨_, _, same, checked, _⟩
      cases found.symm.trans same
      cases checked with
      | plain effect => cases effect
      | returnValue =>
          rcases stands.2 with ⟨below, value, operands, _, _⟩
          rcases holds.header bounded small with ⟨savedBase, returnIp, header, baseSmall, ipSmall⟩
          have frame := @Activation.Header.frame _ below _ _ header
          have room := holds.roomBelow operands
          have height : (tower.globals ++ content tower.callers).length < capacity := by
            simp only [Tower.floor, List.length_append, List.length_singleton] at room ⊢
            omega
          simp only [Program.context] at faults
          rw [Tower.machine_of_frame operands, step_returnValue baseSmall ipSmall height frame.1
            frame.2] at faults
          split at faults <;> cases faults
  | _ => cases unnoted

/-! ## Runs -/

/-- A machine that is deep in as many functions as it has frames, all of them noted but the running
one while its frame is opened or left. -/
def Machine.Traced (program : Program) (placed : List Placement) (machine : Machine) : Prop :=
  ∃ instruction, program.instructions[machine.ip]? = some instruction ∧
    (machine.chain placed).length = machine.depth ∧
    machine.debugStack.length + (if instruction.isUnnoted then 1 else 0) = machine.depth ∧
    machine.debugStack =
      (if instruction.isUnnoted then (machine.chain placed).tail else machine.chain placed).map
        FunctionSource.context

theorem Machine.Tall.traced (homes : chart.Homes placed)
    (compiled : program.Compiled units globals placed) (charted : program.Charted chart)
    (bounded : capacity ≤ twoTo 63) (small : program.size < twoTo 63)
    (tall : machine.Tall program chart capacity tower)
    (notes : tower.Notes chart machine.ip machine.debugStack) : machine.Traced program placed := by
  rcases notes with ⟨point, here, noted⟩
  rcases charted.checked _ _ _ here with ⟨instruction, _, found, _⟩
  have same := charted.noted here found
  have depth : machine.depth = tower.sources.length := by
    rw [tall.1]
    simp [Tower.machine, Tower.sources]
  rw [Machine.Traced, tall.chain_eq homes compiled charted bounded small]
  refine ⟨instruction, found, depth.symm, ?_, ?_⟩
  · rw [noted, depth, same]
    cases instruction.isUnnoted <;> simp [Tower.sources]
  · rw [noted, same]
    cases instruction.isUnnoted <;> rfl

theorem Started.notes (charted : program.Charted chart)
    (tall : machine.Tall program chart capacity tower)
    (started : Started program capacity machine) :
    tower.Notes chart machine.ip machine.debugStack := by
  rcases started with ⟨_, _, _, entered⟩
  rcases enter_ok entered with ⟨function, globals, found, arity, named, room, rfl⟩
  rcases charted.entries _ _ _ found with ⟨shape, _, entry⟩
  rcases tall.2.here with ⟨point, here, _⟩
  cases entry.symm.trans here
  have outermost := congrArg Machine.depth tall.1
  simp only [Tower.machine] at outermost
  have alone : tower.callers = [] := List.length_eq_zero_iff.mp (by omega)
  exact ⟨.entry, entry, by simp [Point.noted, Tower.sources, alone]⟩

/-- Every machine of a run has its functions noted. -/
theorem Reached.notes (charted : program.Charted chart) (bounded : capacity ≤ twoTo 63)
    (small : program.size < twoTo 63) (reached : Reached program capacity machine) :
    ∃ tower, machine.Tall program chart capacity tower ∧
      tower.Notes chart machine.ip machine.debugStack := by
  induction reached with
  | start started =>
      rcases started.tall charted with ⟨tower, tall⟩
      exact ⟨tower, tall, started.notes charted tall⟩
  | proceed reached proceeds ih =>
      rcases ih with ⟨tower, tall, notes⟩
      rcases proceeds.change charted bounded small tall with
        ⟨registry, instruction, next, store, found, change, tallNext⟩
      exact ⟨next, tallNext, @Tower.Notes.step _ _ _ _ _ _ _ _ _ _ _ ⟨program, registry⟩ charted small
        found change tall.2 _ tallNext.2 notes⟩

/-- A call puts a function in front of the chain, a return takes it off, and nothing else changes
the chain. -/
def Machine.ChainFollows (placed : List Placement) (before later : Machine) : Prop :=
  (later.depth = before.depth ∧ later.chain placed = before.chain placed) ∨
    (later.depth = before.depth + 1 ∧
      ∃ called, sourceAt? placed later.ip = some called ∧
        later.chain placed = called :: before.chain placed) ∨
    (later.depth + 1 = before.depth ∧ later.chain placed = (before.chain placed).tail)

theorem Proceeds.chainFollows (homes : chart.Homes placed)
    (compiled : program.Compiled units globals placed) (charted : program.Charted chart)
    (bounded : capacity ≤ twoTo 63) (small : program.size < twoTo 63)
    (tall : machine.Tall program chart capacity tower) {following : Machine}
    (proceeds : Proceeds program machine following) : machine.ChainFollows placed following := by
  rcases proceeds.change charted bounded small tall with
    ⟨registry, instruction, next, store, found, change, tallNext⟩
  have here := tall.chain_eq homes compiled charted bounded small
  have there := tallNext.chain_eq homes compiled charted bounded small
  rw [Machine.ChainFollows, here, there, tall.depth, tallNext.depth]
  rcases tallNext.2.here with ⟨point, entry, _⟩
  have called := homes.sourceAt? compiled charted entry
  generalize following.ip = ip at change called
  generalize following.debugStack = debug at change
  cases change with
  | call => exact .inr (.inl ⟨rfl, _, called, rfl⟩)
  | leave operands callers header =>
      refine .inr (.inr ⟨?_, ?_⟩)
      · rw [callers]
        rfl
      · simp [Tower.sources, callers]
  | _ => exact .inl ⟨rfl, rfl⟩

/-! ## Reports -/

/-- Whatever fault the next instruction raises, an engine that carries it out reports it. -/
def Machine.ReportsFaults (program : Program) (placed : List Placement) (machine : Machine) : Prop :=
  ∀ (registry : Registry) (instruction : Instruction) (fault : RuntimeFault) (later : Machine),
    registry.Sound program machine.store →
    program.instructions[machine.ip]? = some instruction →
    (step ⟨program, registry⟩ instruction).run { machine with ip := machine.ip + 1 } =
      (.error fault, later) →
    ∀ traced bound trace,
      (Engine.execute ⟨program, registry⟩ traced (bound + 1) machine trace).1 =
        .faulted (machine.report placed instruction fault)

/-- The reports of faults that an instruction has raised somewhere in a run. -/
inductive Raised (program : Program) (capacity : Nat) (placed : List Placement) :
    FaultReport → Prop
  | instruction {registry : Registry} {machine later : Machine} {instruction : Instruction}
      {fault : RuntimeFault} (reached : Reached program capacity machine)
      (hosts : registry.Sound program machine.store)
      (found : program.instructions[machine.ip]? = some instruction)
      (stepped : (step ⟨program, registry⟩ instruction).run { machine with ip := machine.ip + 1 } =
        (.error fault, later)) :
      Raised program capacity placed (machine.report placed instruction fault)

section Reports

variable {options : RunOptions} {turn : Turn}

/-- At a fault of an instruction the functions noted are the active ones. -/
theorem Reached.noted_at_fault (homes : chart.Homes placed)
    (compiled : program.Compiled units globals placed) (charted : program.Charted chart)
    (bounded : capacity ≤ twoTo 63) (small : program.size < twoTo 63) {registry : Registry}
    {stopped : Machine} {fault : RuntimeFault} (reached : Reached program capacity machine)
    (hosts : registry.Sound program machine.store)
    (found : program.instructions[machine.ip]? = some instruction)
    (stepped : (step ⟨program, registry⟩ instruction).run { machine with ip := machine.ip + 1 } =
      (.error fault, stopped)) :
    stopped.debugStack = (machine.activeAt placed instruction).map FunctionSource.context := by
  rcases reached.notes charted bounded small with ⟨tower, tall, notes⟩
  rcases tall.traced homes compiled charted bounded small notes with ⟨_, same, _, _, debug⟩
  cases found.symm.trans same
  have kept : stopped.debugStack = machine.debugStack := by
    rcases tall.outcome charted bounded small hosts with ⟨_, again, outcome⟩
    cases found.symm.trans again
    rw [stepped] at outcome
    cases outcome with
    | faults ordinary stops => exact stops.debug
  rw [kept, debug]
  cases unnoted : instruction.isUnnoted with
  | false =>
      cases instruction with
      | allocFrame locals => cases unnoted
      | _ => rfl
  | true =>
      rw [show { machine with ip := machine.ip + 1 } = tower.machine capacity (machine.ip + 1)
        machine.debugStack machine.store by rw [tall.1]; rfl] at stepped
      rcases @Tower.Holds.allocates_of_fault _ _ _ _ _ _ _ _ ⟨program, registry⟩ charted bounded
        small tall.2 found unnoted _ _ stepped with ⟨locals, rfl⟩
      rfl

theorem Reached.reportsFaults (homes : chart.Homes placed)
    (compiled : program.Compiled units globals placed) (charted : program.Charted chart)
    (bounded : capacity ≤ twoTo 63) (small : program.size < twoTo 63)
    (reached : Reached program capacity machine) : machine.ReportsFaults program placed := by
  intro registry instruction fault later hosts found stepped traced bound trace
  have debug := reached.noted_at_fault homes compiled charted bounded small hosts found stepped
  rw [Engine.execute]
  simp only [found, stepped, debug]
  rfl

/-- What an engine reports that got to an instruction was raised by an instruction. -/
theorem Engine.Begun.raised (homes : chart.Homes placed)
    (compiled : program.Compiled units globals placed) (charted : program.Charted chart)
    (bounded : options.stackCapacity ≤ twoTo 63) (small : program.size < twoTo 63)
    (begun : Begun program options turn) {report : FaultReport}
    (faulted : turn.outcome = .faulted report) :
    Raised program options.stackCapacity placed report := by
  rcases begun.ends charted bounded small faulted with ⟨registry, stopped, ends⟩
  cases ends with
  | faulted reached hosts found stepped =>
      rw [reached.noted_at_fault homes compiled charted bounded small hosts found stepped]
      exact .instruction reached hosts found stepped

theorem Turn.Explained.nothing_noted (charted : program.Charted chart)
    (bounded : options.stackCapacity ≤ twoTo 63) (small : program.size < twoTo 63)
    (explained : turn.Explained program options) {value : Value}
    (completed : turn.outcome = .completed value) : turn.engine.debugStack = [] := by
  rcases explained.completed value completed with ⟨registry, ends⟩
  generalize last : turn.engine.machine turn.store = machine at ends
  have same : machine.debugStack = turn.engine.debugStack := by
    rw [← last]
    rfl
  rw [← same]
  cases ends with
  | @completed before _ instruction _ reached hosts found stepped =>
      rcases reached.notes charted bounded small with ⟨tower, tall, point, here, noted⟩
      rcases tall.outcome charted bounded small hosts with ⟨_, again, outcome⟩
      cases found.symm.trans again
      rw [stepped] at outcome
      cases outcome with
      | completes outermost _ _ returns debug =>
          subst returns
          rw [debug, noted, charted.noted here found]
          simp [Instruction.isUnnoted, Tower.sources, outermost]

end Reports

/-- Fault reports name the chain of calls. The functions noted are those whose frames are on the
stack, the innermost first, of which the running one is missing before the instructions that open
its frame and before its return. A fault of an instruction is reported with the instruction, its
place and the chain of calls there, without the running function where the instruction was to make
room for its locals. Only a turn that is refused before its first instruction has a report without
an instruction, and on completion nothing is noted. -/
theorem debug_stack_names_calls {options : RunOptions}
    (accepted : compileUnits units globals = .ok program) (small : program.size < twoTo 63)
    (bounded : options.stackCapacity ≤ twoTo 63) :
    ∃ placed, program.Compiled units globals placed ∧
      (∀ machine, Reached program options.stackCapacity machine →
        machine.Traced program placed ∧ machine.ReportsFaults program placed) ∧
      (∀ machine later, Reached program options.stackCapacity machine →
        Proceeds program machine later → machine.ChainFollows placed later) ∧
      (∀ turn, Engine.Begun program options turn → ∀ report, turn.outcome = .faulted report →
        Raised program options.stackCapacity placed report) ∧
      ∀ turn, Engine.Session program options turn →
        (Engine.Begun program options turn ∨ Engine.Refused program options turn ∧
          ∃ fault, turn.outcome = .faulted (.ofFault fault)) ∧
        (turn.engine.state = .suspended → ∀ store, turn.store.Follows program store →
          (turn.engine.machine store).Traced program placed) ∧
        ∀ value, turn.outcome = .completed value → turn.engine.debugStack = [] := by
  rcases compileUnits_ok accepted with ⟨placed, compiled⟩
  rcases compiled.charted_homes with ⟨chart, charted, homes⟩
  have traced : ∀ machine, Reached program options.stackCapacity machine →
      machine.Traced program placed := by
    intro machine reached
    rcases reached.notes charted bounded small with ⟨tower, tall, notes⟩
    exact tall.traced homes compiled charted bounded small notes
  refine ⟨placed, compiled, ?_, ?_, ?_, ?_⟩
  · intro machine reached
    exact ⟨traced machine reached, reached.reportsFaults homes compiled charted bounded small⟩
  · intro machine later reached proceeds
    rcases reached.tall charted bounded small with ⟨tower, tall⟩
    exact proceeds.chainFollows homes compiled charted bounded small tall
  · intro turn begun report faulted
    exact begun.raised homes compiled charted bounded small faulted
  · intro turn session
    have explained := session.explained charted bounded small
    refine ⟨?_, ?_, ?_⟩
    · exact session.begun_or_refused.imp_right fun refused => ⟨refused, refused.report⟩
    · intro suspended store follows
      exact traced _ (explained.suspended suspended store follows)
    · intro value completed
      exact explained.nothing_noted charted bounded small completed

end Chains

/-- With room for five values the stack is full where the called function reads its argument. -/
def Sample.overflow : FaultReport :=
  ⟨.stackOverflow 5, some (.loadLocal 0), 11, [Sample.sameContext, Sample.mainContext]⟩

theorem debug_stack_names_calls_sample :
    ((Engine.create Sample.program ⟨5, false⟩).start 20 .empty .empty [] "main" []).outcome =
        .faulted Sample.overflow ∧
      ∃ placed, Sample.program.Compiled Sample.units [] placed ∧
        Raised Sample.program 5 placed Sample.overflow := by
  have entered : (Engine.enter ⟨Sample.program, .empty⟩ (qualifiedName [] "main") [] "main" []).run
      ((Engine.create Sample.program ⟨5, false⟩).machine .empty) =
        (.ok (), ⟨.ofList 5 [.int 0, .int 0], 0, 0, 1, [], .empty⟩) := rfl
  have overflows : ((Engine.create Sample.program ⟨5, false⟩).start 20 .empty .empty [] "main"
      []).outcome = .faulted Sample.overflow := by decide +kernel
  have begun : Engine.Begun Sample.program ⟨5, false⟩
      ((Engine.create Sample.program ⟨5, false⟩).start 20 .empty .empty [] "main" []) :=
    .start (Sample.emptyRegistry _) Sample.emptyStore nofun entered
  rcases @debug_stack_names_calls Sample.units [] Sample.program ⟨5, false⟩ Sample.accepted
    (by decide) (by decide) with ⟨placed, compiled, _, _, raised, _⟩
  exact ⟨overflows, placed, compiled, raised _ begun _ overflows⟩

end ScriptMachine
