import ScriptMachine.Proofs.Balance.Steps

/-!
# Internal faults

Some faults are no concern of a program: they are there in case the engine itself has gone wrong. An
instruction finds too few operands, a slot that is not on the stack, a header that is none, an
operand of a kind that the compiler never leaves there, or the name of a function that the program
does not have. `InternalBranch` says when an instruction gets to such a fault. On a tower that holds
it never does.
-/

namespace ScriptMachine

/-- How many operands an instruction takes off the stack or looks at. -/
def Instruction.operandCount : Instruction → Nat
  | .nop | .pushConst _ | .loadLocal _ | .loadGlobal _ | .jump _ | .loadStatic _ _ _
  | .allocFrame _ | .pushDebug _ | .popDebug => 0
  | .pop | .storeLocal _ | .storeGlobal _ | .unary _ | .jumpIfFalse _ | .jumpIfFalseKeep _
  | .jumpIfTrueKeep _ | .makeClosure _ | .loadField _ | .getIterator | .iterMoveNext | .iterCurrent
  | .yieldValue | .returnValue _ | .checkStep => 1
  | .binary _ | .storeField _ | .loadIndex => 2
  | .storeIndex => 3
  | .callFunction _ argc | .callHost _ argc _ | .callStatic _ _ argc _ | .makeArray argc => argc
  | .callMethod _ argc | .invokeClosure argc => argc + 1

/-- A word of a header that is read off the stack. -/
def headerWord (values : List Value) (slot : Nat) : Except RuntimeFault Nat :=
  match values[slot]? with
  | some value => Step.frameWord value
  | none => .error (ValueStack.outside slot)

/-- Both words of a header. -/
def readHeader (values : List Value) (slot : Nat) : Except RuntimeFault (Nat × Nat) :=
  match headerWord values slot, headerWord values (slot + 1) with
  | .ok savedBase, .ok returnIp => .ok (savedBase, returnIp)
  | .error fault, _ => .error fault
  | .ok _, .error fault => .error fault

/-- A closure whose function the program does not have. -/
def Closure.Lost (program : Program) (closure : Closure) : Prop :=
  closure.resolved = none ∧ program.lookup? closure.function.path closure.function.name = none

/-- The internal fault that an instruction raises on a machine. -/
inductive InternalBranch (surroundings : Surroundings) (machine : Machine) :
    Instruction → RuntimeFault → Prop
  /-- A call looks for its function before it looks at the stack. -/
  | underflow {instruction : Instruction} (short : machine.stack.size < instruction.operandCount)
      (resolved : ∀ function argc, instruction = .callFunction function argc →
        ∃ entry, surroundings.program.lookup? function.path function.name = some entry ∧
          entry.arity = argc) :
      InternalBranch surroundings machine instruction ValueStack.underflow
  | loadLocal {slot : Nat} (outside : machine.stack.size ≤ machine.base + slot) :
      InternalBranch surroundings machine (.loadLocal slot)
        (ValueStack.outside (machine.base + slot))
  | storeLocal {slot : Nat} {below : List Value} {value : Value}
      (top : machine.stack.items.toList = below ++ [value])
      (outside : below.length ≤ machine.base + slot) :
      InternalBranch surroundings machine (.storeLocal slot)
        (ValueStack.outside (machine.base + slot))
  | loadGlobal {slot : Nat} (outside : machine.stack.size ≤ slot) :
      InternalBranch surroundings machine (.loadGlobal slot) (ValueStack.outside slot)
  | storeGlobal {slot : Nat} {below : List Value} {value : Value}
      (top : machine.stack.items.toList = below ++ [value]) (outside : below.length ≤ slot) :
      InternalBranch surroundings machine (.storeGlobal slot) (ValueStack.outside slot)
  | header {params : Nat} {below : List Value} {value : Value} {fault : RuntimeFault}
      (top : machine.stack.items.toList = below ++ [value])
      (unreadable : readHeader below (machine.base + params) = .error fault) :
      InternalBranch surroundings machine (.returnValue params) fault
  | iterMoveNext {below : List Value} {value : Value}
      (top : machine.stack.items.toList = below ++ [value]) (other : ∀ id, value ≠ .iterator id) :
      InternalBranch surroundings machine .iterMoveNext (.unknown "ITER_NEXT on a non-iterator")
  | iterCurrent {below : List Value} {value : Value}
      (top : machine.stack.items.toList = below ++ [value]) (other : ∀ id, value ≠ .iterator id) :
      InternalBranch surroundings machine .iterCurrent (.unknown "ITER_CURRENT on a non-iterator")
  | makeClosure {function : FunctionRef} {below : List Value} {value : Value}
      (top : machine.stack.items.toList = below ++ [value]) (other : ∀ id, value ≠ .array id) :
      InternalBranch surroundings machine (.makeClosure function)
        (.typeMismatch "array" (value.typeName machine.store))
  | callFunction {function : FunctionRef} {argc : Nat}
      (lost : surroundings.program.lookup? function.path function.name = none) :
      InternalBranch surroundings machine (.callFunction function argc)
        (.functionNotFound function.render)
  | invokeClosure {below args : List Value} {id : ClosureId}
      (top : machine.stack.items.toList = below ++ .closure id :: args)
      (lost : (machine.store.closure id).Lost surroundings.program) :
      InternalBranch surroundings machine (.invokeClosure args.length)
        (.functionNotFound (machine.store.closure id).function.render)
  | callMethod {name : String} {below args : List Value} {receiver : Value} {id : ClosureId}
      {later : Store} (top : machine.stack.items.toList = below ++ receiver :: args)
      (member : Effect.callMember surroundings.registry receiver name args machine.store =
        (.ok (.closure id), later))
      (lost : (later.closure id).Lost surroundings.program) :
      InternalBranch surroundings machine (.callMethod name args.length)
        (.functionNotFound (later.closure id).function.render)

/-! ## The branches of a step -/

section Branches

variable {surroundings : Surroundings} {capacity ip base depth slot count : Nat}
  {values args : List Value} {value : Value} {debug : List DebugContext} {store : Store}
  {instruction : Instruction} {fault : RuntimeFault}

open Step

@[simp]
theorem run_pop_nil :
    pop.run ⟨.ofList capacity [], ip, base, depth, debug, store⟩ =
      (.error ValueStack.underflow, ⟨.ofList capacity [], ip, base, depth, debug, store⟩) := by
  rw [pop, run_onStack, ValueStack.pop_ofList_nil]

@[simp]
theorem run_peek_nil :
    peek.run ⟨.ofList capacity [], ip, base, depth, debug, store⟩ =
      (.error ValueStack.underflow, ⟨.ofList capacity [], ip, base, depth, debug, store⟩) := by
  simp [peek, ValueStack.peek, ValueStack.ofList]

theorem run_popMany_short (short : values.length < count) :
    (popMany count).run ⟨.ofList capacity values, ip, base, depth, debug, store⟩ =
      (.error ValueStack.underflow, ⟨.ofList capacity values, ip, base, depth, debug, store⟩) := by
  simp [popMany, ValueStack.popMany, ValueStack.ofList, short]

theorem run_slot_outside (outside : values.length ≤ slot) :
    (Step.slot slot).run ⟨.ofList capacity values, ip, base, depth, debug, store⟩ =
      (.error (ValueStack.outside slot),
        ⟨.ofList capacity values, ip, base, depth, debug, store⟩) := by
  simp [Step.slot, ValueStack.get, ValueStack.ofList, outside]

theorem run_setSlot_outside (outside : values.length ≤ slot) :
    (setSlot slot value).run ⟨.ofList capacity values, ip, base, depth, debug, store⟩ =
      (.error (ValueStack.outside slot),
        ⟨.ofList capacity values, ip, base, depth, debug, store⟩) := by
  simp [setSlot, ValueStack.set, ValueStack.ofList, Nat.not_lt.mpr outside]

/-- A list that is too short is empty or has a last value and is too short without it. -/
theorem short_cases (short : values.length < count + 1) :
    values = [] ∨ ∃ front last, values = front ++ [last] ∧ front.length < count := by
  rcases List.eq_nil_or_concat values with rfl | ⟨front, last, rfl⟩
  · exact .inl rfl
  · exact .inr ⟨front, last, by simp, by simpa using short⟩

theorem faults_underflow (short : values.length < instruction.operandCount)
    (resolved : ∀ function argc, instruction = .callFunction function argc →
      ∃ entry, surroundings.program.lookup? function.path function.name = some entry ∧
        entry.arity = argc) :
    ∃ later, (step surroundings instruction).run
        ⟨.ofList capacity values, ip, base, depth, debug, store⟩ =
      (.error ValueStack.underflow, later) := by
  cases instruction <;> simp only [Instruction.operandCount, Nat.not_lt_zero, Nat.lt_one_iff,
    List.length_eq_zero_iff] at short
  case pop | storeLocal | storeGlobal | unary | jumpIfFalse | jumpIfFalseKeep | jumpIfTrueKeep |
      makeClosure | loadField | getIterator | iterMoveNext | iterCurrent | yieldValue |
      returnValue | checkStep =>
    subst short
    exact ⟨_, by unfold step; simp [popIterator, returnFrom]; rfl⟩
  case binary | storeField | loadIndex =>
    rcases short_cases short with rfl | ⟨front, last, rfl, fewer⟩
    · exact ⟨_, by unfold step; simp; rfl⟩
    · simp only [Nat.lt_one_iff, List.length_eq_zero_iff] at fewer
      subst fewer
      exact ⟨_, by unfold step; simp only [run_bind, run_pop, run_pop_nil]; rfl⟩
  case storeIndex =>
    rcases short_cases short with rfl | ⟨front, last, rfl, fewer⟩
    · exact ⟨_, by unfold step; simp; rfl⟩
    · rcases short_cases fewer with rfl | ⟨front, middle, rfl, fewest⟩
      · exact ⟨_, by unfold step; simp only [run_bind, run_pop, run_pop_nil]; rfl⟩
      · simp only [Nat.lt_one_iff, List.length_eq_zero_iff] at fewest
        subst fewest
        exact ⟨_, by unfold step; simp only [run_bind, run_pop, run_pop_nil]; rfl⟩
  case callHost | callStatic | makeArray =>
    exact ⟨_, by unfold step; simp [run_popMany_short short]; rfl⟩
  case callFunction function argc =>
    rcases resolved function argc rfl with ⟨entry, found, arity⟩
    exact ⟨_, by unfold step; simp [resolveFunction, found, checkArity, arity, enterCall, short]; rfl⟩
  case invokeClosure argc =>
    unfold step
    exact ⟨_, by simp only [run_bind, run_stackSize, ValueStack.size_ofList, short, if_true]; rfl⟩
  case callMethod name argc =>
    rcases Nat.lt_or_ge values.length argc with few | enough
    · exact ⟨_, by unfold step; simp [run_popMany_short few]; rfl⟩
    · have same : values.length = argc := by omega
      subst same
      have popped := @run_popMany capacity ip base depth [] debug store values
      rw [List.nil_append] at popped
      exact ⟨_, by unfold step; simp [popped]; rfl⟩

theorem headerWord_ok {word : Nat} (read : headerWord values slot = .ok word) :
    ∃ value, values[slot]? = some value ∧ frameWord value = .ok word := by
  unfold headerWord at read
  cases found : values[slot]? with
  | none =>
      rw [found] at read
      cases read
  | some value =>
      rw [found] at read
      exact ⟨value, rfl, read⟩

theorem headerWord_error (unreadable : headerWord values slot = .error fault) :
    (values.length ≤ slot ∧ fault = ValueStack.outside slot) ∨
      ∃ value, values[slot]? = some value ∧ frameWord value = .error fault := by
  unfold headerWord at unreadable
  cases found : values[slot]? with
  | none =>
      rw [found] at unreadable
      exact .inl ⟨List.getElem?_eq_none_iff.mp found, (Except.error.inj unreadable).symm⟩
  | some value =>
      rw [found] at unreadable
      exact .inr ⟨value, rfl, unreadable⟩

theorem faults_header {below : List Value} {params : Nat}
    (unreadable : readHeader below (base + params) = .error fault) :
    ∃ later, (step surroundings (.returnValue params)).run
        ⟨.ofList capacity (below ++ [value]), ip, base, depth, debug, store⟩ =
      (.error fault, later) := by
  unfold readHeader at unreadable
  rcases first : headerWord below (base + params) with raised | savedBase
  · simp only [first, Except.error.injEq] at unreadable
    subst unreadable
    rcases headerWord_error first with ⟨outside, rfl⟩ | ⟨word, found, fails⟩
    · exact ⟨_, by unfold step; simp [returnFrom, run_slot_outside outside]; rfl⟩
    · exact ⟨_, by unfold step; simp [returnFrom, run_slot found, fails]; rfl⟩
  · rcases second : headerWord below (base + params + 1) with raised | returnIp
    · simp only [first, second, Except.error.injEq] at unreadable
      subst unreadable
      rcases headerWord_ok first with ⟨word, found, fine⟩
      rcases headerWord_error second with ⟨outside, rfl⟩ | ⟨next, foundNext, fails⟩
      · exact ⟨_, by unfold step; simp [returnFrom, run_slot found, fine, run_slot_outside outside]; rfl⟩
      · exact ⟨_, by unfold step; simp [returnFrom, run_slot found, fine, run_slot foundNext, fails]; rfl⟩
    · simp [first, second] at unreadable

/-- An internal branch is a fault of the step. -/
theorem InternalBranch.faults {machine : Machine}
    (branch : InternalBranch surroundings machine instruction fault) :
    ∃ later, (step surroundings instruction).run { machine with ip := machine.ip + 1 } =
      (.error fault, later) := by
  rcases machine with ⟨⟨⟨values⟩, capacity⟩, ip, base, depth, debug, store⟩
  change ∃ later, (step surroundings instruction).run
    ⟨.ofList capacity values, ip + 1, base, depth, debug, store⟩ = (.error fault, later)
  cases branch with
  | underflow short resolved => exact faults_underflow short resolved
  | loadLocal outside => exact ⟨_, by unfold step; simp [run_slot_outside outside]; rfl⟩
  | storeLocal top outside =>
      dsimp only at top outside
      subst top
      exact ⟨_, by unfold step; simp [run_setSlot_outside outside]; rfl⟩
  | loadGlobal outside => exact ⟨_, by unfold step; simp [run_slot_outside outside]; rfl⟩
  | @storeGlobal slot _ _ top outside =>
      dsimp only at top outside
      subst top
      cases named : surroundings.program.globals[slot]? with
      | none => exact ⟨_, by unfold step; simp [named, run_setSlot_outside outside]; rfl⟩
      | some name => exact ⟨_, by unfold step; simp [named, run_setSlot_outside outside]; rfl⟩
  | header top unreadable =>
      dsimp only at top unreadable
      subst top
      exact faults_header unreadable
  | @iterMoveNext _ value top other =>
      dsimp only at top
      subst top
      cases value with
      | iterator id => exact absurd rfl (other id)
      | _ => exact ⟨_, by unfold step; simp [popIterator]; rfl⟩
  | @iterCurrent _ value top other =>
      dsimp only at top
      subst top
      cases value with
      | iterator id => exact absurd rfl (other id)
      | _ => exact ⟨_, by unfold step; simp [popIterator]; rfl⟩
  | @makeClosure _ _ value top other =>
      dsimp only at top
      subst top
      cases value with
      | array id => exact absurd rfl (other id)
      | _ => exact ⟨_, by unfold step; simp; rfl⟩
  | callFunction lost => exact ⟨_, by unfold step; simp [resolveFunction, lost]; rfl⟩
  | @invokeClosure below args id top lost =>
      dsimp only at top lost
      subst top
      have resolved : Effect.resolveClosure surroundings.program id (args.length + 1) store =
          (.error (.functionNotFound (store.closure id).function.render), store) := by
        simp [Effect.resolveClosure, lost.1, lost.2]
      exact ⟨_, step_invokeClosure_fault resolved⟩
  | @callMethod name below args receiver id later top member lost =>
      dsimp only at top member lost
      subst top
      have resolved : Effect.resolveClosure surroundings.program id (args.length + 1) later =
          (.error (.functionNotFound (later.closure id).function.render), later) := by
        simp [Effect.resolveClosure, lost.1, lost.2]
      rw [step_callMethod, member]
      dsimp only [finishMember]
      rw [run_bind, run_callClosure_fault resolved]
      exact ⟨_, rfl⟩

end Branches

/-! ## Towers that hold -/

theorem Instruction.operandCount_of_plainEffect? {instruction : Instruction} {taken left : Nat}
    (effect : instruction.plainEffect? = some (taken, left)) : instruction.operandCount = taken := by
  cases instruction <;> cases effect <;> rfl

/-- A frame has the operands that a checked instruction takes. -/
theorem Checked.operandCount_le {context : CodeContext} {label : Nat → Point → Prop}
    {instruction : Instruction} {before : Point} {next : Option Point}
    (checked : Checked context label instruction before next) {activation : Activation}
    (stands : activation.Stands before) :
    instruction.operandCount ≤ activation.operands.length := by
  cases checked with
  | plain effect =>
      rw [Instruction.operandCount_of_plainEffect? effect, stands.2.1.length]
      simp
  | callFunction | makeCarrier =>
      rw [stands.2.1.length]
      simp [Instruction.operandCount]
  | loadLocal | loadIterator | loadCarrier | loadGlobal | jump | allocFrame | pushDebug | popDebug =>
      exact Nat.zero_le _
  | makeClosure =>
      rcases stands.2.1 with ⟨below, id, operands, _⟩
      simp [operands, Instruction.operandCount]
  | pop | loadKept | storeKept | storeLocal | storeIterator | storeGlobal | getIterator
  | iterMoveNext | iterCurrent | jumpIfFalse | jumpIfFalseKeep | jumpIfTrueKeep =>
      rw [stands.2.1.length]
      simp [Instruction.operandCount]
  | returnValue =>
      rw [stands.2.length]
      simp [Instruction.operandCount]

section Towers

variable {surroundings : Surroundings} {chart : Chart} {capacity ip there : Nat}
  {instruction : Instruction} {tower : Tower} {store : Store} {debug : List DebugContext}
  {fault : RuntimeFault} {below args : List Value} {value : Value} {tag : Tag} {tags : List Tag}
  {iterators : List Nat}

theorem Matches.last (matched : Matches Tag.Admits (tag :: tags) tower.active.operands)
    (top : tower.values = below ++ [value]) : tag.Admits value := by
  rcases matched with ⟨rest, last, operands, admits, _⟩
  rw [Tower.values, operands, ← List.append_assoc] at top
  rcases List.append_inj' top rfl with ⟨_, same⟩
  cases same
  exact admits

theorem Tower.Holds.globals_le (holds : tower.Holds surroundings.program chart capacity ip store) :
    surroundings.program.globals.length ≤ tower.base := by
  rw [← holds.globals, Tower.base, List.length_append]
  omega

/-- The words of the running frame's header are small enough for a slot. -/
theorem Tower.Holds.header (bounded : capacity ≤ twoTo 63)
    (small : surroundings.program.size < twoTo 63)
    (holds : tower.Holds surroundings.program chart capacity ip store) :
    ∃ savedBase returnIp, tower.active.Header savedBase returnIp ∧ savedBase < twoTo 63 ∧
      returnIp < twoTo 63 := by
  have chained := holds.chained
  have room := holds.room
  cases callers : tower.callers with
  | nil =>
      rw [callers] at chained
      exact ⟨0, 0, chained, by decide, by decide⟩
  | cons caller rest =>
      rw [callers] at chained
      rcases chained with ⟨⟨back, header, ⟨⟨call, _, rfl, called, _⟩, _⟩⟩, _⟩
      refine ⟨_, call + 1, header, ?_, ?_⟩
      · have some := (List.getElem?_eq_some_iff.mp header.saved).1
        simp only [Tower.values, Tower.floor, callers, content, List.length_append] at room
        omega
      · have inside := (Array.getElem?_eq_some_iff.mp called).1
        simp only [Program.size] at small
        omega

/-- A header is read off the stack as it was written. -/
theorem Activation.Header.read {activation : Activation} {savedBase returnIp : Nat}
    {front behind : List Value} (header : activation.Header savedBase returnIp)
    (baseSmall : savedBase < twoTo 63) (ipSmall : returnIp < twoTo 63) :
    readHeader (front ++ activation.slots ++ behind) (front.length + activation.shape.arity) =
      .ok (savedBase, returnIp) := by
  have inFrame : ∀ slot word, activation.slots[slot]? = some word →
      (front ++ activation.slots ++ behind)[front.length + slot]? = some word := by
    intro slot word there
    have inside := (List.getElem?_eq_some_iff.mp there).1
    rw [List.getElem?_append_left (by rw [List.length_append]; omega),
      List.getElem?_append_right (Nat.le_add_right _ _), Nat.add_sub_cancel_left]
    exact there
  have first := inFrame _ _ header.saved
  have second := inFrame _ _ header.resumption
  rw [← Nat.add_assoc] at second
  simp only [readHeader, headerWord, first, second, frameWord_ofNat baseSmall,
    frameWord_ofNat ipSmall]

theorem Tower.Holds.readHeader (bounded : capacity ≤ twoTo 63)
    (small : surroundings.program.size < twoTo 63)
    (holds : tower.Holds surroundings.program chart capacity ip store) (rest : List Value) :
    ∃ words, ScriptMachine.readHeader (tower.floor ++ rest)
      (tower.base + tower.active.shape.arity) = .ok words := by
  rcases holds.header bounded small with ⟨savedBase, returnIp, header, baseSmall, ipSmall⟩
  exact ⟨_, header.read baseSmall ipSmall⟩

theorem Program.Charted.not_lost {program : Program} (charted : program.Charted chart)
    (sound : store.Sound program) {id : ClosureId} (known : (Value.closure id).Known store) :
    ¬(store.closure id).Lost program := by
  intro lost
  have linked := charted.linked (sound.closures id known).literal
  rw [lost.2] at linked
  cases linked

/-- On a tower that holds, no instruction gets to an internal fault. -/
theorem Tower.Holds.not_internal (charted : surroundings.program.Charted chart)
    (bounded : capacity ≤ twoTo 63) (small : surroundings.program.size < twoTo 63)
    (hosts : surroundings.registry.Sound surroundings.program store)
    (holds : tower.Holds surroundings.program chart capacity ip store)
    (found : surroundings.program.instructions[ip]? = some instruction) :
    ¬InternalBranch surroundings (tower.machine capacity there debug store) instruction fault := by
  intro branch
  rcases holds.here with ⟨point, here, stands⟩
  rcases charted.checked ip _ point here with ⟨_, next, same, checked, falls⟩
  cases found.symm.trans same
  have length : tower.values.length = tower.base + tower.active.slots.length +
      tower.active.operands.length := by
    rw [Tower.values, List.length_append, Tower.length_floor]
  have size : (tower.machine capacity there debug store).stack.size = tower.values.length :=
    ValueStack.size_ofList
  cases branch with
  | underflow short resolved =>
      have enough := checked.operandCount_le stands
      omega
  | loadLocal outside =>
      cases checked with
      | plain effect => cases effect
      | loadLocal valid =>
          have inside := (valid.inside stands).1
          simp only [Tower.machine, ValueStack.size_ofList] at outside
          omega
      | loadIterator valid =>
          have inside := (valid.inside stands).1
          simp only [Tower.machine, ValueStack.size_ofList] at outside
          omega
      | loadCarrier keeps =>
          have height := stands.1
          simp only [Program.context, Shape.arity, FunctionSource.arity] at keeps height
          simp only [Tower.machine, ValueStack.size_ofList] at outside
          omega
  | @storeLocal slot below value top outside =>
      have height := congrArg List.length (show tower.values = below ++ [value] from top)
      have enough := checked.operandCount_le stands
      simp only [Instruction.operandCount, Tower.machine, List.length_append, List.length_singleton]
        at enough outside height
      cases checked with
      | plain effect => cases effect
      | storeLocal valid =>
          have inside := (valid.inside stands).1
          omega
      | storeIterator valid =>
          have inside := (valid.inside stands).1
          omega
  | loadGlobal outside =>
      cases checked with
      | plain effect => cases effect
      | loadGlobal valid =>
          have inside := Nat.lt_of_lt_of_le valid holds.globals_le
          rw [size] at outside
          omega
  | @storeGlobal slot below value top outside =>
      have height := congrArg List.length (show tower.values = below ++ [value] from top)
      have enough := checked.operandCount_le stands
      simp only [Instruction.operandCount, List.length_append, List.length_singleton]
        at enough height
      cases checked with
      | plain effect => cases effect
      | storeGlobal valid =>
          have inside := Nat.lt_of_lt_of_le valid holds.globals_le
          omega
  | header top unreadable =>
      cases checked with
      | plain effect => cases effect
      | returnValue =>
          rcases stands.2 with ⟨rest, last, operands, _, _⟩
          rw [show (tower.machine capacity there debug store).stack.items.toList =
            tower.floor ++ rest ++ [last] by simp [Tower.machine, Tower.values, operands]] at top
          cases (List.append_inj' top rfl).1
          rcases holds.readHeader bounded small rest with ⟨words, read⟩
          cases unreadable.symm.trans read
  | iterMoveNext top other =>
      cases checked with
      | plain effect => cases effect
      | iterMoveNext =>
          rcases stands.2.1.last top with ⟨id, rfl⟩
          exact other id rfl
  | iterCurrent top other =>
      cases checked with
      | plain effect => cases effect
      | iterCurrent =>
          rcases stands.2.1.last top with ⟨id, rfl⟩
          exact other id rfl
  | makeClosure top other =>
      cases checked with
      | plain effect => cases effect
      | makeClosure =>
          rcases stands.2.1 with ⟨rest, id, operands, _⟩
          rw [show (tower.machine capacity there debug store).stack.items.toList =
            tower.floor ++ rest ++ [.array id] by simp [Tower.machine, Tower.values, operands]] at top
          cases List.append_inj_right' top rfl
          exact other id rfl
  | callFunction lost =>
      cases checked with
      | plain effect => cases effect
      | callFunction linked =>
          simp [Program.context, lost] at linked
  | @invokeClosure below args id top lost =>
      have present : Value.closure id ∈ tower.values := by
        rw [show tower.values = below ++ .closure id :: args from top]
        simp
      exact charted.not_lost holds.sound (holds.known _ present) lost
  | @callMethod name below args receiver id later top member lost =>
      have known : ∀ value ∈ receiver :: args, value.Known store := by
        intro value present
        apply holds.known
        rw [show tower.values = below ++ receiver :: args from top]
        exact List.mem_append_right _ present
      have kept := @Discipline.Lawful.callMember _ _ _ surroundings.soundness_lawful
        ⟨holds.sound, hosts⟩ args receiver name known
      rw [show Effect.callMember surroundings.registry receiver name args store =
        (.ok (.closure id), later) from member] at kept
      exact charted.not_lost kept.1.sound (kept.2 _ rfl) lost

end Towers

end ScriptMachine
