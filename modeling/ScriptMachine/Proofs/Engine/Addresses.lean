import ScriptMachine.Proofs.Balance.Internal
import ScriptMachine.Proofs.Engine.Anatomy
import ScriptMachine.Proofs.Engine.Turns
import ScriptMachine.Proofs.Image.Instructions

/-!
# Places that fit 64 bits

An engine computes places from the base of the running frame and from the operands of instructions.
A program can overwrite the headers of its frames, so what a return makes the base is up to the
program, as far as a header can say it. Still every action of a machine keeps the base below the
half of 64 bits, whatever the program is: a call takes it from the size of the stack, and a return
from a word that has a sign. The operands have 32 bits, so no sum leaves 64 bits, and a place that
is not there is found out when it is looked at.
-/

namespace ScriptMachine

/-- A machine on a stack of so many places whose base fits a word with a sign. -/
structure Machine.Bounded (capacity : Nat) (machine : Machine) : Prop where
  room : machine.stack.capacity = capacity
  size : machine.stack.size ≤ capacity
  base : machine.base < twoTo 63

/-! ## Actions -/

namespace Step

/-- An action that keeps a machine bounded, also if it fails. -/
def KeepsBounded (capacity : Nat) {α : Type} (action : Step α) : Prop :=
  ∀ machine, machine.Bounded capacity → (action.run machine).2.Bounded capacity

namespace KeepsBounded

variable {capacity : Nat} {α β : Type}

theorem pure (value : α) : (pure value : Step α).KeepsBounded capacity := fun _ bounded => bounded

theorem throw (fault : RuntimeFault) : (throw fault : Step α).KeepsBounded capacity :=
  fun _ bounded => bounded

/-- Two actions, the second of which may rely on what the value of the first one is. -/
theorem bindOf {first : Step α} {next : α → Step β} {tells : α → Prop}
    (keeps : first.KeepsBounded capacity)
    (told : ∀ machine value later, machine.Bounded capacity →
      first.run machine = (.ok value, later) → tells value)
    (keepsNext : ∀ value, tells value → (next value).KeepsBounded capacity) :
    (first >>= next).KeepsBounded capacity := by
  intro machine bounded
  have middle := keeps machine bounded
  rw [run_bind]
  rcases ran : first.run machine with ⟨fault | value, later⟩
  · rwa [ran] at middle
  · rw [ran] at middle
    exact keepsNext value (told machine value later bounded ran) later middle

theorem bind {first : Step α} {next : α → Step β} (keeps : first.KeepsBounded capacity)
    (keepsNext : ∀ value, (next value).KeepsBounded capacity) :
    (first >>= next).KeepsBounded capacity :=
  keeps.bindOf (fun _ _ _ _ _ => trivial) fun value _ => keepsNext value

theorem onStore (effect : Effect α) : (Step.onStore effect).KeepsBounded capacity :=
  fun _ bounded => ⟨bounded.room, bounded.size, bounded.base⟩

theorem onStack {operation : ValueStack → StackResult α}
    (keeps : ∀ stack, stack.size ≤ stack.capacity →
      (operation stack).2.capacity = stack.capacity ∧ (operation stack).2.size ≤ stack.capacity) :
    (Step.onStack operation).KeepsBounded capacity := by
  intro machine bounded
  have fits := bounded.size
  rw [← bounded.room] at fits
  rcases keeps machine.stack fits with ⟨same, size⟩
  rw [bounded.room] at same size
  exact ⟨same, size, bounded.base⟩

theorem modify {change : Machine → Machine}
    (keeps : ∀ machine, machine.Bounded capacity → (change machine).Bounded capacity) :
    (modify change : Step Unit).KeepsBounded capacity := keeps

/-- An action that only looks at the machine. -/
theorem looks {action : Step α} (same : ∀ machine, (action.run machine).2 = machine) :
    action.KeepsBounded capacity := by
  intro machine bounded
  rwa [same]

/-! ## The stack -/

theorem push (value : Value) : (Step.push value).KeepsBounded capacity := by
  apply onStack
  intro stack fits
  simp only [ValueStack.push]
  split
  · exact ⟨rfl, fits⟩
  · rename_i more
    refine ⟨rfl, ?_⟩
    simp only [ValueStack.size, Array.size_push]
    omega

theorem pop : Step.pop.KeepsBounded capacity := by
  apply onStack
  intro stack fits
  simp only [ValueStack.pop]
  split
  · refine ⟨rfl, ?_⟩
    simp only [ValueStack.size, Array.size_pop] at fits ⊢
    omega
  · exact ⟨rfl, fits⟩

theorem popMany (count : Nat) : (Step.popMany count).KeepsBounded capacity := by
  apply onStack
  intro stack fits
  simp only [ValueStack.popMany]
  split
  · exact ⟨rfl, fits⟩
  · refine ⟨rfl, ?_⟩
    simp only [ValueStack.size, Array.size_shrink] at fits ⊢
    omega

theorem peek : Step.peek.KeepsBounded capacity := by
  apply onStack
  intro stack fits
  simp only [ValueStack.peek]
  split <;> exact ⟨rfl, fits⟩

theorem slot (index : Nat) : (Step.slot index).KeepsBounded capacity := by
  apply onStack
  intro stack fits
  simp only [ValueStack.get]
  split <;> exact ⟨rfl, fits⟩

theorem setSlot (index : Nat) (value : Value) :
    (Step.setSlot index value).KeepsBounded capacity := by
  apply onStack
  intro stack fits
  simp only [ValueStack.set]
  split
  · refine ⟨rfl, ?_⟩
    simpa only [ValueStack.size, Array.size_setIfInBounds] using fits
  · exact ⟨rfl, fits⟩

/-! ## Calls and returns -/

/-- A base is put in place that fits. -/
theorem setBase {base : Nat} (small : base < twoTo 63) {change : Machine → Machine}
    (sets : ∀ machine, (change machine).base = base)
    (keeps : ∀ machine, (change machine).stack = machine.stack) :
    (MonadState.modifyGet fun machine => ((), change machine) :
      Step Unit).KeepsBounded capacity := by
  intro machine bounded
  have stack := keeps machine
  constructor
  · exact (congrArg ValueStack.capacity stack).trans bounded.room
  · exact Nat.le_trans (Nat.le_of_eq (congrArg ValueStack.size stack)) bounded.size
  · exact Nat.lt_of_le_of_lt (Nat.le_of_eq (sets machine)) small

/-- A word of a header has a sign, and is not negative. -/
theorem frameWord_lt {value : Value} {word : Nat} (read : frameWord value = .ok word) :
    word < twoTo 63 := by
  unfold frameWord at read
  split at read
  · rename_i number
    split at read
    · cases read
      have below := number.toInt_lt
      have half : twoTo 63 = 9223372036854775808 := rfl
      omega
    · cases read
  · cases read

theorem returnFrom (params : Nat) : (Step.returnFrom params).KeepsBounded capacity := by
  have word {value : Value} : ∀ machine word later, machine.Bounded capacity →
      (liftM (frameWord value) : Step Nat).run machine = (.ok word, later) → word < twoTo 63 := by
    intro machine word later _ read
    exact frameWord_lt (congrArg Prod.fst read)
  apply pop.bind
  intro value
  apply bind (looks fun _ => rfl)
  intro base
  apply (slot _).bind
  intro saved
  apply bindOf (looks fun _ => rfl) word
  intro savedBase fits
  apply (slot _).bind
  intro resumption
  apply bind (looks fun _ => rfl)
  intro returnIp
  apply bind
  · apply modify
    intro machine bounded
    have size := bounded.size
    refine ⟨bounded.room, ?_, bounded.base⟩
    simp only [ValueStack.truncate, ValueStack.size, Array.size_shrink] at size ⊢
    omega
  intro _
  apply (push _).bind
  intro _
  apply bind (looks fun _ => rfl)
  intro machine
  apply Rules.ite (pure _)
  exact bind (setBase fits (fun _ => rfl) fun _ => rfl) fun _ => pure _

variable (small : capacity < twoTo 63)

include small

theorem enterCall (offset argc : Nat) : (Step.enterCall offset argc).KeepsBounded capacity := by
  have sized : ∀ machine size later, machine.Bounded capacity →
      stackSize.run machine = (.ok size, later) → size < twoTo 63 := by
    rintro machine _ _ bounded ⟨⟩
    exact Nat.lt_of_le_of_lt bounded.size small
  apply bindOf (looks fun _ => rfl) sized
  intro size fits
  have enters : (do
      let machine ← get
      Step.push (.int (Int64.ofNat machine.base))
      Step.push (.int (Int64.ofNat machine.ip))
      MonadState.modifyGet fun machine => ((), { machine with
        base := size - argc, depth := machine.depth + 1, ip := offset }) :
      Step Unit).KeepsBounded capacity := by
    apply bind (looks fun _ => rfl)
    intro machine
    apply (push _).bind
    intro _
    apply (push _).bind
    intro _
    exact setBase (Nat.lt_of_le_of_lt (Nat.sub_le _ _) fits) (fun _ => rfl) fun _ => rfl
  exact Rules.ite ((throw _).bind fun _ => enters) enters

theorem rules (surroundings : Surroundings) : Rules surroundings (KeepsBounded capacity) where
  pure := pure
  throw := throw
  bind := bind
  push := push
  pop := pop
  popMany := popMany
  peek := peek
  slot := slot
  setSlot := setSlot
  stackSize := looks fun _ => rfl
  base := looks fun _ => rfl
  jumpTo _ _ bounded := ⟨bounded.room, bounded.size, bounded.base⟩
  enterCall := enterCall small
  returnFrom := returnFrom
  pushDebug _ _ bounded := ⟨bounded.room, bounded.size, bounded.base⟩
  popDebug _ bounded := ⟨bounded.room, bounded.size, bounded.base⟩
  openFrame _ bounded :=
    ⟨bounded.room, bounded.size, Nat.lt_of_le_of_lt bounded.size small⟩
  beginRun _ _ bounded := ⟨bounded.room, bounded.size, bounded.base⟩
  onStore _ := onStore _

end KeepsBounded

end Step

/-! ## Engines -/

namespace Engine

/-- An engine whose machine is bounded, whichever store it is given. -/
def Bounded (capacity : Nat) (engine : Engine) : Prop :=
  ∀ store, (engine.machine store).Bounded capacity

variable {engine : Engine} {surroundings : Surroundings} {capacity : Nat} {machine : Machine}

theorem bounded_turnOf {events : List TelemetryEvent} {result : TurnOutcome × Machine × List String}
    (bounded : result.2.1.Bounded capacity) :
    (engine.turnOf events result).engine.Bounded capacity := by
  rcases result with ⟨outcome, machine, trace⟩
  cases outcome <;> exact fun _ => ⟨bounded.room, bounded.size, bounded.base⟩

theorem bounded_create (program : Program) (options : RunOptions) :
    (create program options).Bounded options.stackCapacity :=
  fun _ => ⟨rfl, Nat.zero_le _, Nat.two_pow_pos 63⟩

section Turns

variable (small : capacity < twoTo 63)

include small

theorem bounded_execute (bounded : machine.Bounded capacity) (traced : Option String) (bound : Nat)
    (trace : List String) :
    (execute surroundings traced bound machine trace).2.1.Bounded capacity := by
  have kept {before later : Machine} {instruction : Instruction}
      {result : Except RuntimeFault Control} (bounded : before.Bounded capacity)
      (stepped : (step surroundings instruction).run { before with ip := before.ip + 1 } =
        (result, later)) : later.Bounded capacity := by
    have bounded := (Step.KeepsBounded.rules small surroundings).step instruction
      { before with ip := before.ip + 1 } ⟨bounded.room, bounded.size, bounded.base⟩
    rwa [stepped] at bounded
  have ends := @execute_ends surroundings (Machine.Bounded capacity) traced
    (fun _ _ _ bounded _ stepped => kept bounded stepped) bound machine trace bounded
  generalize execute surroundings traced bound machine trace = result at ends
  rcases result with ⟨outcome, last, lines⟩
  dsimp only at ends ⊢
  cases ends with
  | unfinished bounded => exact bounded
  | lost bounded => exact bounded
  | yielded bounded _ stepped => exact kept bounded stepped
  | completed bounded _ stepped => exact kept bounded stepped
  | faulted bounded _ stepped => exact kept bounded stepped

theorem bounded_firstTurn {bound : Nat} {registry : Registry}
    {entered : Except RuntimeFault Unit × Machine} (bounded : entered.2.Bounded capacity) :
    (engine.firstTurn bound registry entered).engine.Bounded capacity := by
  rcases entered with ⟨fault | _, machine⟩
  · exact fun _ => ⟨bounded.room, bounded.size, bounded.base⟩
  · exact bounded_turnOf (bounded_execute small bounded _ _ _)

theorem Bounded.turn (bounded : engine.Bounded capacity) (call : EngineCall) :
    (call.turn engine).engine.Bounded capacity := by
  by_cases permitted : call.Permitted engine.state
  · cases call with
    | start bound registry store path name args =>
        rw [EngineCall.turn, start_of_ready permitted]
        apply bounded_firstTurn small
        exact (Step.KeepsBounded.rules small ⟨engine.program, registry⟩).enter _ path name args _
          (bounded store)
    | resume bound registry store =>
        rw [EngineCall.turn, resume_of_suspended permitted, run_eq_turnOf]
        exact bounded_turnOf (bounded_execute small (bounded store) _ _ _)
  · rw [turn_of_not_permitted permitted]
    exact bounded

theorem Bounded.after (bounded : engine.Bounded capacity) (calls : List EngineCall) :
    (engine.after calls).Bounded capacity := by
  induction calls generalizing engine with
  | nil => exact bounded
  | cons call rest ih => exact ih (bounded.turn small call)

end Turns

theorem program_after (engine : Engine) (calls : List EngineCall) :
    (engine.after calls).program = engine.program := by
  induction calls generalizing engine with
  | nil => rfl
  | cons call rest ih => exact (ih _).trans (program_turn engine call)

/-! ## Machines on the way -/

/-- A machine that an engine comes to when it is called, with the bound on instructions as it is
then. An instruction is carried out if the bound is not used up. -/
inductive Visits (engine : Engine) : EngineCall → Nat → Machine → Prop
  | start {bound : Nat} {registry : Registry} {store : Store} {path : List String} {name : String}
      {args : List Value} {machine : Machine} (ready : engine.state = .ready)
      (entered : (enter ⟨engine.program, registry⟩ (qualifiedName path name) path name args).run
        (engine.machine store) = (.ok (), machine)) :
      Visits engine (.start bound registry store path name args) bound machine
  | resume {bound : Nat} {registry : Registry} {store : Store}
      (suspended : engine.state = .suspended) :
      Visits engine (.resume bound registry store) bound (engine.machine store)
  | next {call : EngineCall} {left : Nat} {before later : Machine} {instruction : Instruction}
      (visits : Visits engine call (left + 1) before)
      (found : engine.program.instructions[before.ip]? = some instruction)
      (stepped : (step ⟨engine.program, call.registry⟩ instruction).run
        { before with ip := before.ip + 1 } = (.ok .next, later)) :
      Visits engine call left later

namespace Visits

variable {call : EngineCall} {left : Nat}

theorem bounded (small : capacity < twoTo 63) (holds : engine.Bounded capacity)
    (visits : engine.Visits call left machine) : machine.Bounded capacity := by
  induction visits with
  | @start _ registry store path name args _ _ entered =>
      have bounded := (Step.KeepsBounded.rules small ⟨engine.program, registry⟩).enter
        (qualifiedName path name) path name args _ (holds store)
      rwa [entered] at bounded
  | resume => exact holds _
  | @next call _ before _ instruction _ _ stepped ih =>
      have bounded := (Step.KeepsBounded.rules small ⟨engine.program, call.registry⟩).step
        instruction { before with ip := before.ip + 1 } ⟨ih.room, ih.size, ih.base⟩
      rwa [stepped] at bounded

/-- A call goes on from a machine that the engine comes to. -/
theorem turn (visits : engine.Visits call left machine) :
    ∃ (later : Engine) (events : _) (traced : _) (trace : _),
      call.turn engine = later.turnOf events
        (execute ⟨engine.program, call.registry⟩ traced left machine trace) := by
  induction visits with
  | start ready entered =>
      rw [EngineCall.turn, start_of_ready ready, entered]
      exact ⟨_, _, _, _, rfl⟩
  | resume suspended =>
      rw [EngineCall.turn, resume_of_suspended suspended]
      exact ⟨_, _, _, _, rfl⟩
  | next _ found stepped ih =>
      rcases ih with ⟨later, events, traced, trace, same⟩
      rw [execute] at same
      simp only [found, stepped] at same
      exact ⟨later, events, traced, _, same⟩

end Visits

end Engine

/-! ## Places that are not there -/

open Step in
/-- The fault of a machine that would look at something that is not there, or is not what it has to
be: an instruction, an operand, a slot, a header, something to call, or an element. -/
inductive IllFormed (surroundings : Surroundings) (machine : Machine) : RuntimeFault → Prop
  | beyond (outside : surroundings.program.size ≤ machine.ip) :
      IllFormed surroundings machine
        (.unknown ("instruction pointer " ++ toString machine.ip ++ " out of range"))
  | branch {instruction : Instruction} {fault : RuntimeFault}
      (found : surroundings.program.instructions[machine.ip]? = some instruction)
      (branch : InternalBranch surroundings machine instruction fault) :
      IllFormed surroundings machine fault
  | callee {below args : List Value} {value : Value}
      (found : surroundings.program.instructions[machine.ip]? = some (.invokeClosure args.length))
      (top : machine.stack.items.toList = below ++ value :: args)
      (other : ∀ id, value ≠ .closure id) :
      IllFormed surroundings machine (.notCallable (value.typeName machine.store))
  | element {below : List Value} {array : ArrayId} {index : Value} {fault : RuntimeFault}
      (found : surroundings.program.instructions[machine.ip]? = some .loadIndex)
      (top : machine.stack.items.toList = below ++ [.array array, index])
      (outside : elementIndex machine.store index (machine.store.array array).size = .error fault) :
      IllFormed surroundings machine fault
  | character {below : List Value} {text : String} {index : Value} {fault : RuntimeFault}
      (found : surroundings.program.instructions[machine.ip]? = some .loadIndex)
      (top : machine.stack.items.toList = below ++ [.str text, index])
      (outside : elementIndex machine.store index text.toList.length = .error fault) :
      IllFormed surroundings machine fault
  | storedElement {below : List Value} {array : ArrayId} {index value : Value}
      {fault : RuntimeFault}
      (found : surroundings.program.instructions[machine.ip]? = some .storeIndex)
      (top : machine.stack.items.toList = below ++ [.array array, index, value])
      (outside : elementIndex machine.store index (machine.store.array array).size = .error fault) :
      IllFormed surroundings machine fault

section Faults

variable {surroundings : Surroundings} {machine : Machine} {fault : RuntimeFault}

theorem faults_loadIndex {capacity ip base depth : Nat} {below : List Value} {target index : Value}
    {debug : List DebugContext} {store : Store}
    (failed : Effect.loadIndex surroundings.registry target index store = (.error fault, store)) :
    ∃ later, (step surroundings .loadIndex).run
        ⟨.ofList capacity (below ++ [target, index]), ip, base, depth, debug, store⟩ =
      (.error fault, later) := by
  rw [step_loadIndex, failed]
  exact ⟨_, rfl⟩

theorem faults_storeIndex {capacity ip base depth : Nat} {below : List Value}
    {target index value : Value} {debug : List DebugContext} {store : Store}
    (failed : Effect.storeIndex surroundings.registry target index value store =
      (.error fault, store)) :
    ∃ later, (step surroundings .storeIndex).run
        ⟨.ofList capacity (below ++ [target, index, value]), ip, base, depth, debug, store⟩ =
      (.error fault, later) := by
  rw [step_storeIndex, failed]
  exact ⟨_, rfl⟩

/-- The instruction that would look at it is not there, or faults. -/
theorem IllFormed.faults (illFormed : IllFormed surroundings machine fault) :
    (surroundings.program.instructions[machine.ip]? = none ∧
      fault = .unknown ("instruction pointer " ++ toString machine.ip ++ " out of range")) ∨
    ∃ instruction, surroundings.program.instructions[machine.ip]? = some instruction ∧
      ∃ later, (step surroundings instruction).run { machine with ip := machine.ip + 1 } =
        (.error fault, later) := by
  rcases machine with ⟨⟨⟨values⟩, capacity⟩, ip, base, depth, debug, store⟩
  cases illFormed with
  | beyond outside => exact .inl ⟨Array.getElem?_eq_none_iff.mpr outside, rfl⟩
  | branch found branch => exact .inr ⟨_, found, branch.faults⟩
  | callee found top other =>
      dsimp only at top
      subst top
      exact .inr ⟨_, found, _, step_invokeClosure_notCallable other⟩
  | element found top outside | character found top outside =>
      dsimp only at top outside
      subst top
      exact .inr ⟨_, found, faults_loadIndex (by simp only [Effect.loadIndex, outside])⟩
  | storedElement found top outside =>
      dsimp only at top outside
      subst top
      exact .inr ⟨_, found, faults_storeIndex (by simp only [Effect.storeIndex, outside])⟩

/-- An engine that comes to a place that is not there faults. -/
theorem Engine.Visits.faulted {engine : Engine} {call : EngineCall} {left : Nat}
    (visits : engine.Visits call (left + 1) machine)
    (illFormed : IllFormed ⟨engine.program, call.registry⟩ machine fault) :
    ∃ report, (call.turn engine).outcome = .faulted report ∧ report.fault = fault ∧
      (call.turn engine).engine.state = .faulted := by
  rcases visits.turn with ⟨later, events, traced, trace, same⟩
  rw [same, execute]
  rcases illFormed.faults with ⟨none, rfl⟩ | ⟨instruction, found, behind, faults⟩
  · simp only [none]
    exact ⟨_, rfl, rfl, rfl⟩
  · simp only [found, faults]
    exact ⟨_, rfl, rfl, rfl⟩

end Faults

/-! ## Sums -/

/-- What a machine computes for an instruction that it is about to carry out. -/
structure Machine.Addresses (program : Program) (machine : Machine) (instruction : Instruction) :
    Prop where
  ip : machine.ip < program.size
  next : machine.ip + 1 < twoTo 64
  slot : ∀ slot, instruction = .loadLocal slot ∨ instruction = .storeLocal slot →
    machine.base + slot < twoTo 64
  header : ∀ params, instruction = .returnValue params → machine.base + params + 1 < twoTo 64
  callee : ∀ argc, instruction = .invokeClosure argc → argc + 1 < twoTo 64
  /-- The words of a header are the base and the place to return to, whatever their size. -/
  saved : (Int64.ofNat machine.base).toInt = machine.base ∧
    (Int64.ofNat (machine.ip + 1)).toInt = (machine.ip + 1 : Nat)

theorem Machine.Bounded.addresses {program : Program} {machine : Machine} {capacity : Nat}
    (fits : ∀ instruction ∈ program.instructions.toList, instruction.Fits)
    (small : program.size < twoTo 63) (bounded : machine.Bounded capacity)
    {instruction : Instruction}
    (found : program.instructions[machine.ip]? = some instruction) :
    machine.Addresses program instruction := by
  have inside : machine.ip < program.size := (Array.getElem?_eq_some_iff.mp found).1
  have operands : instruction.Fits :=
    fits instruction (Array.mem_toList_iff.mpr (Array.mem_of_getElem? found))
  have base := bounded.base
  have half : twoTo 63 = 9223372036854775808 := rfl
  have whole : twoTo 64 = 18446744073709551616 := rfl
  have word : twoTo 32 = 4294967296 := rfl
  constructor
  · exact inside
  · omega
  · rintro slot (rfl | rfl)
    · have operand : slot < twoTo 32 := operands
      omega
    · have operand : slot < twoTo 32 := operands
      omega
  · rintro params rfl
    have operand : params < twoTo 32 := operands
    omega
  · rintro argc rfl
    have operand : argc < twoTo 32 := operands
    omega
  · exact ⟨Int64.toInt_ofNat_of_lt base, Int64.toInt_ofNat_of_lt (by omega)⟩

/-- No program makes an engine compute a place that does not fit 64 bits. The base of a frame is
always less than half of that, and a place that is not there is a fault. -/
theorem addresses_fit {program : Program} {options : RunOptions}
    (fits : ∀ instruction ∈ program.instructions.toList, instruction.Fits)
    (small : program.size < twoTo 63) (room : options.stackCapacity < twoTo 63)
    (calls : List EngineCall) :
    ((Engine.create program options).after calls).base < twoTo 63 ∧
      ∀ call left machine,
        ((Engine.create program options).after calls).Visits call (left + 1) machine →
        machine.base < twoTo 63 ∧
        (∀ instruction, program.instructions[machine.ip]? = some instruction →
          machine.Addresses program instruction) ∧
        ∀ fault, IllFormed ⟨program, call.registry⟩ machine fault →
          ∃ report, (call.turn ((Engine.create program options).after calls)).outcome =
              .faulted report ∧ report.fault = fault ∧
            (call.turn ((Engine.create program options).after calls)).engine.state = .faulted := by
  have bounded := (Engine.bounded_create program options).after room calls
  refine ⟨(bounded .empty).base, ?_⟩
  intro call left machine visits
  have here := visits.bounded room bounded
  refine ⟨here.base, fun instruction found => here.addresses fits small found, ?_⟩
  intro fault illFormed
  apply visits.faulted
  rw [Engine.program_after]
  exact illFormed

namespace Sample

/-- A function that puts the largest base into its header. What calls it goes on in a frame that
starts there. -/
def hostile : Program where
  instructions := #[
    .callFunction ⟨[], "forge"⟩ 0, .loadLocal 4294967295,
    .pushConst (.int 9223372036854775807), .storeLocal 0, .pushConst .unit, .returnValue 0]
  namespaces := .mk [("forge", ⟨2, 0⟩), ("main", ⟨0, 0⟩)] []
  globals := []
  metadata := []

/-- A call of the function that calls the forging one. -/
def hostileCall : EngineCall := .start 10 .empty .empty [] "main" []

/-- The machine behind the return, with the forged base. -/
def misled : Machine where
  stack := .ofList 8 [.int 0, .int 0, .unit]
  ip := 1
  base := 9223372036854775807
  depth := 1
  debugStack := []
  store := .empty

theorem misled_visited : (Engine.create hostile ⟨8, false⟩).Visits hostileCall 5 misled := by
  have started : (Engine.create hostile ⟨8, false⟩).Visits hostileCall 10
      ⟨.ofList 8 [.int 0, .int 0], 0, 0, 1, [], .empty⟩ := .start rfl rfl
  have called := started.next rfl rfl
  have pushed := called.next rfl rfl
  have stored := pushed.next rfl rfl
  have readied := stored.next rfl rfl
  exact readied.next rfl rfl

theorem hostile_fits : ∀ instruction ∈ hostile.instructions.toList, instruction.Fits := by
  simp only [hostile, List.forall_mem_cons, Instruction.Fits, FunctionRef.Fits, Constant.Fits,
    Text.Fits, List.not_mem_nil, false_implies, implies_true]
  decide

end Sample

/-- A slot behind the largest base is a place like any other that is not there. -/
theorem addresses_fit_hostile :
    (∀ instruction ∈ Sample.hostile.instructions.toList, instruction.Fits) ∧
      Sample.hostile.size < twoTo 63 ∧ 8 < twoTo 63 ∧
      Sample.misled.base + 4294967295 < twoTo 64 ∧
      ∃ report, (Sample.hostileCall.turn (Engine.create Sample.hostile ⟨8, false⟩)).outcome =
          .faulted report ∧
        report.fault = ValueStack.outside (9223372036854775807 + 4294967295) ∧
        (Sample.hostileCall.turn (Engine.create Sample.hostile ⟨8, false⟩)).engine.state =
          .faulted := by
  rcases @addresses_fit Sample.hostile ⟨8, false⟩ Sample.hostile_fits (by decide) (by decide) []
    with ⟨_, visited⟩
  rcases visited _ _ _ Sample.misled_visited with ⟨_, addresses, faulted⟩
  refine ⟨Sample.hostile_fits, by decide, by decide, ?_, ?_⟩
  · exact (addresses (.loadLocal 4294967295) rfl).slot _ (.inl rfl)
  · exact faulted _ (.branch rfl (.loadLocal (by decide)))

end ScriptMachine
