import ScriptMachine.Proofs.Engine.Stacks

/-!
# The step of each instruction

For a machine whose stack is a known list, each instruction takes its operands from the end of the
list, has an effect on the store, and delivers a value or none. Calls and returns are the
instructions that change the frame; their steps are at the end.
-/

namespace ScriptMachine

namespace Step

section Equations

variable {machine : Machine} {registry : Registry}

theorem run_invokeHost (choose : Store → Except RuntimeFault Resolved) :
    (invokeHost (choose machine.store)).run machine =
      (onStore (Effect.invoke choose) >>= push).run machine := by
  simp only [invokeHost, run_bind, run_lift, run_onStore, Effect.invoke]
  cases choose machine.store <;> rfl

theorem run_callHost (name : String) (candidates : List HostFunction) (args : List Value) :
    (callHost registry name candidates args).run machine =
      (onStore (Effect.callHost registry name candidates args) >>= push).run machine := by
  rw [Effect.callHost, ← run_invokeHost]
  rfl

theorem run_binary (operator : BinaryOp) (left right : Value) :
    (Step.binary registry operator left right).run machine =
      (onStore (Effect.binary registry operator left right) >>= push).run machine := by
  simp only [Step.binary, run_bind, run_store]
  unfold Effect.binary
  cases found : registry.operators machine.store operator [left, right] with
  | nil =>
      cases meaning : left.binary machine.store operator right with
      | none => simp [found, meaning]
      | some result => cases result <;> simp [found, meaning]
  | cons first rest =>
      simp only [run_callHost, run_bind, run_onStore, found]

theorem run_unary (operator : UnaryOp) (operand : Value) :
    (Step.unary operator operand).run machine =
      (onStore (Effect.unary operator operand) >>= push).run machine := by
  unfold Step.unary Effect.unary
  cases meaning : operand.unary operator with
  | none => cases operator <;> simp
  | some result => cases result <;> simp

theorem run_loadField (target : Value) (name : String) :
    (Step.loadField registry target name).run machine =
      (onStore (Effect.loadField registry target name)).run machine := by
  simp only [Step.loadField, run_bind, run_store, run_onStore]
  cases target with
  | object id =>
      simp only [Effect.loadField]
      split
      · rfl
      · cases (machine.store.object id).fields.find? name <;> rfl
  | array id => simp only [Effect.loadField]; split <;> rfl
  | str text => simp only [Effect.loadField]; split <;> rfl
  | _ => rfl

theorem run_storeField (target : Value) (name : String) (value : Value) :
    (Step.storeField registry target name value).run machine =
      (onStore (Effect.storeField registry target name value)).run machine := by
  cases target with
  | object id =>
      simp only [Step.storeField, Effect.storeField, run_bind, run_store, run_onStore]
      split
      · rfl
      · split <;> rfl
  | _ => rfl

theorem run_loadIndex (target index : Value) :
    (Step.loadIndex registry target index).run machine =
      (onStore (Effect.loadIndex registry target index) >>= push).run machine := by
  simp only [Step.loadIndex, run_bind, run_store, run_onStore]
  cases target with
  | array id =>
      simp only [Effect.loadIndex, run_bind, run_lift]
      cases elementIndex machine.store index (machine.store.array id).size <;> rfl
  | str text =>
      simp only [Effect.loadIndex, run_bind, run_lift]
      cases elementIndex machine.store index text.toList.length <;> rfl
  | object id =>
      simp only [Effect.loadIndex]
      cases registry.indexerGet? (machine.store.object id).typeName with
      | none => rfl
      | some getter => simp only [run_callHost, run_bind, run_onStore]
  | _ => rfl

theorem run_storeIndex (target index value : Value) :
    (Step.storeIndex registry target index value).run machine =
      (onStore (Effect.storeIndex registry target index value)).run machine := by
  cases target with
  | array id =>
      simp only [Step.storeIndex, Effect.storeIndex, run_bind, run_onStore]
      cases elementIndex machine.store index (machine.store.array id).size <;> rfl
  | object id =>
      simp only [Step.storeIndex, Effect.storeIndex, run_bind, run_store, run_onStore]
      cases registry.indexerSet? (machine.store.object id).typeName with
      | none => rfl
      | some setter =>
          simp only [run_bind, run_store, run_lift, Effect.callHost, Effect.invoke]
          cases registry.resolve machine.store ((machine.store.object id).typeName ++ "[]=")
            [setter] [.object id, index, value] with
          | error fault => rfl
          | ok resolved =>
              simp only [run_discard, run_onStore]
              rcases resolved.invoke machine.store with ⟨_ | _, _⟩ <;> rfl
  | _ => rfl

theorem run_resolveClosure (program : Program) (id : ClosureId) (argc : Nat) :
    (resolveClosure program id argc).run machine =
      (onStore (Effect.resolveClosure program id argc)).run machine := by
  simp only [resolveClosure, Effect.resolveClosure, run_bind, run_store, run_onStore]
  cases (machine.store.closure id).resolved with
  | some entry => rfl
  | none =>
      cases program.lookup? (machine.store.closure id).function.path
        (machine.store.closure id).function.name <;> rfl

/-- What is left to do once a member is known. -/
def finishMember (program : Program) (args : List Value) : Effect.Member → Step Unit
  | .value value => push value
  | .closure id => callClosure program id args

theorem run_callHostMember (program : Program) (name : String) (candidates : List HostFunction)
    (receiver : Value) (args : List Value) :
    (callHost registry name candidates (receiver :: args)).run machine =
      (onStore (Effect.callHostMember registry name candidates (receiver :: args)) >>=
        finishMember program args).run machine := by
  simp only [run_callHost, run_bind, run_onStore, Effect.callHostMember]
  rcases Effect.callHost registry name candidates (receiver :: args) machine.store with
    ⟨_ | _, _⟩ <;> rfl

/-- Calling a member is a host call whose value is pushed, or the call of a closure. -/
theorem run_callMethod (surroundings : Surroundings) (receiver : Value) (name : String)
    (args : List Value) :
    (Step.callMethod surroundings receiver name args).run machine =
      (onStore (Effect.callMember surroundings.registry receiver name args) >>=
        finishMember surroundings.program args).run machine := by
  have free (candidates : List HostFunction) :=
    @run_callHostMember machine surroundings.registry surroundings.program name candidates
      receiver args
  cases receiver with
  | object id =>
      have method (methods : List HostFunction) :=
        @run_callHostMember machine surroundings.registry surroundings.program
          ((machine.store.object id).typeName ++ "." ++ name) methods (.object id) args
      simp only [Step.callMethod, Effect.callMember, run_bind, run_store, run_onStore]
      split
      · rfl
      · cases surroundings.registry.methods (machine.store.object id).typeName name with
        | nil =>
            cases (machine.store.object id).fields.find? name with
            | none => rfl
            | some field => cases field <;> rfl
        | cons first rest => simpa only [run_bind, run_onStore] using method (first :: rest)
  | _ =>
      simp only [Step.callMethod, Effect.callMember, run_bind, run_onStore]
      cases surroundings.registry.overloads name with
      | nil => rfl
      | cons first rest => simpa only [run_bind, run_onStore] using free (first :: rest)

end Equations

end Step

/-- The outcome of an instruction, and the machine after it. -/
abbrev StepResult := Except RuntimeFault Control × Machine

section Instructions

variable {surroundings : Surroundings} {capacity ip base depth slot argc target : Nat}
  {values args : List Value} {value left right : Value} {debug : List DebugContext} {store : Store}

/-- An instruction that leaves the value of an effect on the stack, if there is room for it. -/
def deliver (capacity : Nat) (values : List Value) (ip base depth : Nat)
    (debug : List DebugContext) : Except RuntimeFault Value × Store → StepResult
  | (.ok value, store) =>
      if values.length < capacity then
        (.ok .next, ⟨.ofList capacity (values ++ [value]), ip, base, depth, debug, store⟩)
      else
        (.error (.stackOverflow capacity),
          ⟨.ofList capacity values, ip, base, depth, debug, store⟩)
  | (.error fault, store) =>
      (.error fault, ⟨.ofList capacity values, ip, base, depth, debug, store⟩)

/-- An instruction that leaves nothing on the stack. -/
def settle (capacity : Nat) (values : List Value) (ip base depth : Nat)
    (debug : List DebugContext) : Except RuntimeFault Unit × Store → StepResult
  | (.ok _, store) => (.ok .next, ⟨.ofList capacity values, ip, base, depth, debug, store⟩)
  | (.error fault, store) =>
      (.error fault, ⟨.ofList capacity values, ip, base, depth, debug, store⟩)

theorem deliver_room (room : values.length < capacity) :
    deliver capacity values ip base depth debug (.ok value, store) =
      (.ok .next, ⟨.ofList capacity (values ++ [value]), ip, base, depth, debug, store⟩) :=
  if_pos room

open Step

theorem run_push_next :
    (push value >>= fun _ => pure Control.next).run
        ⟨.ofList capacity values, ip, base, depth, debug, store⟩ =
      deliver capacity values ip base depth debug (.ok value, store) := by
  rcases Nat.lt_or_ge values.length capacity with room | full
  · simp [run_push room, deliver, room]
  · simp [run_push_full full, deliver, Nat.not_lt.mpr full]

theorem run_next_of_deliver {first : Step Unit} {effect : Effect Value}
    (same : first.run ⟨.ofList capacity values, ip, base, depth, debug, store⟩ =
      (onStore effect >>= push).run ⟨.ofList capacity values, ip, base, depth, debug, store⟩) :
    (first >>= fun _ => pure Control.next).run
        ⟨.ofList capacity values, ip, base, depth, debug, store⟩ =
      deliver capacity values ip base depth debug (effect store) := by
  simp only [run_bind, same, run_onStore]
  rcases effect store with ⟨_ | value, later⟩
  · rfl
  · simpa only [run_bind] using run_push_next

theorem run_next_of_settle {first : Step Unit} {effect : Effect Unit}
    (same : first.run ⟨.ofList capacity values, ip, base, depth, debug, store⟩ =
      (onStore effect).run ⟨.ofList capacity values, ip, base, depth, debug, store⟩) :
    (first >>= fun _ => pure Control.next).run
        ⟨.ofList capacity values, ip, base, depth, debug, store⟩ =
      settle capacity values ip base depth debug (effect store) := by
  simp only [run_bind, same, run_onStore]
  rcases effect store with ⟨_ | value, later⟩ <;> rfl

theorem step_pushConst (constant : Constant) :
    (step surroundings (.pushConst constant)).run
        ⟨.ofList capacity values, ip, base, depth, debug, store⟩ =
      deliver capacity values ip base depth debug (.ok (.ofConstant constant), store) := by
  unfold step
  exact run_push_next

theorem step_loadLocal (found : values[base + slot]? = some value) :
    (step surroundings (.loadLocal slot)).run
        ⟨.ofList capacity values, ip, base, depth, debug, store⟩ =
      deliver capacity values ip base depth debug (.ok value, store) := by
  unfold step
  simpa only [run_bind, run_base, run_slot found] using run_push_next

theorem step_storeLocal (inside : base + slot < values.length) :
    (step surroundings (.storeLocal slot)).run
        ⟨.ofList capacity (values ++ [value]), ip, base, depth, debug, store⟩ =
      (.ok .next, ⟨.ofList capacity (values.set (base + slot) value),
        ip, base, depth, debug, store⟩) := by
  unfold step
  simp [run_setSlot inside]

theorem step_loadGlobal (found : values[slot]? = some value) :
    (step surroundings (.loadGlobal slot)).run
        ⟨.ofList capacity values, ip, base, depth, debug, store⟩ =
      deliver capacity values ip base depth debug (.ok value, store) := by
  unfold step
  simpa only [run_bind, run_slot found] using run_push_next

theorem step_storeGlobal (inside : slot < values.length) :
    (step surroundings (.storeGlobal slot)).run
        ⟨.ofList capacity (values ++ [value]), ip, base, depth, debug, store⟩ =
      (.ok .next, ⟨.ofList capacity (values.set slot value), ip, base, depth, debug,
        (Effect.storeGlobal surroundings.registry surroundings.program.globals[slot]? value
          store).2⟩) := by
  cases named : surroundings.program.globals[slot]? with
  | none =>
      unfold step
      simp [named, run_setSlot inside, Effect.storeGlobal]
  | some name =>
      unfold step
      simp [named, run_setSlot inside, Effect.storeGlobal]

theorem step_pop :
    (step surroundings .pop).run
        ⟨.ofList capacity (values ++ [value]), ip, base, depth, debug, store⟩ =
      (.ok .next, ⟨.ofList capacity values, ip, base, depth, debug, store⟩) := by
  unfold step
  simp

theorem step_binary (operator : BinaryOp) :
    (step surroundings (.binary operator)).run
        ⟨.ofList capacity (values ++ [left, right]), ip, base, depth, debug, store⟩ =
      deliver capacity values ip base depth debug
        (Effect.binary surroundings.registry operator left right store) := by
  rw [List.append_cons]
  unfold step
  simp only [run_bind, run_pop]
  simpa only [run_bind] using run_next_of_deliver (run_binary operator left right)

theorem step_unary (operator : UnaryOp) :
    (step surroundings (.unary operator)).run
        ⟨.ofList capacity (values ++ [value]), ip, base, depth, debug, store⟩ =
      deliver capacity values ip base depth debug (Effect.unary operator value store) := by
  unfold step
  simp only [run_bind, run_pop]
  simpa only [run_bind] using run_next_of_deliver (run_unary operator value)

theorem step_jump :
    (step surroundings (.jump target)).run
        ⟨.ofList capacity values, ip, base, depth, debug, store⟩ =
      (.ok .next, ⟨.ofList capacity values, target, base, depth, debug, store⟩) := rfl

theorem step_jumpIfFalse :
    (step surroundings (.jumpIfFalse target)).run
        ⟨.ofList capacity (values ++ [value]), ip, base, depth, debug, store⟩ =
      (.ok .next, ⟨.ofList capacity values, if value.isTruthy then ip else target,
        base, depth, debug, store⟩) := by
  unfold step
  cases truth : value.isTruthy <;> simp [truth]

theorem step_jumpIfFalseKeep :
    (step surroundings (.jumpIfFalseKeep target)).run
        ⟨.ofList capacity (values ++ [value]), ip, base, depth, debug, store⟩ =
      (.ok .next,
        if value.isTruthy then ⟨.ofList capacity values, ip, base, depth, debug, store⟩
        else ⟨.ofList capacity (values ++ [value]), target, base, depth, debug, store⟩) := by
  unfold step
  cases truth : value.isTruthy <;> simp [truth]

theorem step_jumpIfTrueKeep :
    (step surroundings (.jumpIfTrueKeep target)).run
        ⟨.ofList capacity (values ++ [value]), ip, base, depth, debug, store⟩ =
      (.ok .next,
        if value.isTruthy then
          ⟨.ofList capacity (values ++ [value]), target, base, depth, debug, store⟩
        else ⟨.ofList capacity values, ip, base, depth, debug, store⟩) := by
  unfold step
  cases truth : value.isTruthy <;> simp [truth]

theorem step_callHost (name : String)
    (binding : Option HostFunctionRef) :
    (step surroundings (.callHost name args.length binding)).run
        ⟨.ofList capacity (values ++ args), ip, base, depth, debug, store⟩ =
      deliver capacity values ip base depth debug
        (Effect.callNamed surroundings.registry name binding args store) := by
  unfold step
  simp only [run_bind, run_popMany, Effect.callNamed]
  cases binding.bind fun reference =>
    surroundings.registry.soleFunction? reference.name reference.signature with
  | some function =>
      simpa only [run_bind] using run_next_of_deliver (run_callHost name [function] args)
  | none =>
      simpa only [run_bind, run_store] using run_next_of_deliver
        (run_invokeHost fun store => surroundings.registry.resolveFunction store name args)

theorem step_callStatic (typeName name : String) (bound : Bool) :
    (step surroundings (.callStatic typeName name args.length bound)).run
        ⟨.ofList capacity (values ++ args), ip, base, depth, debug, store⟩ =
      deliver capacity values ip base depth debug
        (Effect.callStatic surroundings.registry typeName name args store) := by
  unfold step
  simp only [run_bind, run_popMany, run_lift, Effect.callStatic]
  cases accessibleType surroundings.registry typeName name with
  | error fault => rfl
  | ok type =>
      dsimp only
      cases type.staticOverloads name with
      | nil => rfl
      | cons first rest =>
          simpa only [run_bind] using
            run_next_of_deliver (run_callHost (typeName ++ "." ++ name) (first :: rest) args)

theorem step_loadStatic (typeName name : String) (bound : Bool) :
    (step surroundings (.loadStatic typeName name bound)).run
        ⟨.ofList capacity values, ip, base, depth, debug, store⟩ =
      deliver capacity values ip base depth debug
        (Effect.loadStatic surroundings.registry typeName name store) := by
  unfold step
  simp only [run_bind, run_lift, Effect.loadStatic]
  cases accessibleType surroundings.registry typeName name with
  | error fault => rfl
  | ok type =>
      dsimp only
      cases type.staticFields.find? name with
      | none => rfl
      | some value => simpa only [run_bind] using run_push_next

theorem step_loadField (name : String) :
    (step surroundings (.loadField name)).run
        ⟨.ofList capacity (values ++ [value]), ip, base, depth, debug, store⟩ =
      deliver capacity values ip base depth debug
        (Effect.loadField surroundings.registry value name store) := by
  unfold step
  simp only [run_bind, run_pop, run_loadField, run_onStore]
  rcases Effect.loadField surroundings.registry value name store with ⟨_ | field, later⟩
  · rfl
  · simpa only [run_bind] using run_push_next

theorem step_storeField (name : String) :
    (step surroundings (.storeField name)).run
        ⟨.ofList capacity (values ++ [left, right]), ip, base, depth, debug, store⟩ =
      settle capacity values ip base depth debug
        (Effect.storeField surroundings.registry left name right store) := by
  rw [List.append_cons]
  unfold step
  simp only [run_bind, run_pop]
  simpa only [run_bind] using run_next_of_settle (run_storeField left name right)

theorem step_loadIndex :
    (step surroundings .loadIndex).run
        ⟨.ofList capacity (values ++ [left, right]), ip, base, depth, debug, store⟩ =
      deliver capacity values ip base depth debug
        (Effect.loadIndex surroundings.registry left right store) := by
  rw [List.append_cons]
  unfold step
  simp only [run_bind, run_pop]
  simpa only [run_bind] using run_next_of_deliver (run_loadIndex left right)

theorem step_storeIndex :
    (step surroundings .storeIndex).run
        ⟨.ofList capacity (values ++ [left, right, value]), ip, base, depth, debug, store⟩ =
      settle capacity values ip base depth debug
        (Effect.storeIndex surroundings.registry left right value store) := by
  rw [List.append_cons, List.append_cons]
  unfold step
  simp only [run_bind, run_pop]
  simpa only [run_bind] using run_next_of_settle (run_storeIndex left right value)

theorem step_makeArray :
    (step surroundings (.makeArray args.length)).run
        ⟨.ofList capacity (values ++ args), ip, base, depth, debug, store⟩ =
      deliver capacity values ip base depth debug
        (.ok (.array (store.allocArray args.toArray).1), (store.allocArray args.toArray).2) := by
  unfold step
  simpa only [run_bind, run_popMany, run_onStore] using run_push_next

theorem step_makeClosure (function : FunctionRef) (captures : ArrayId) :
    (step surroundings (.makeClosure function)).run
        ⟨.ofList capacity (values ++ [.array captures]), ip, base, depth, debug, store⟩ =
      deliver capacity values ip base depth debug
        (.ok (.closure (store.allocClosure ⟨function, captures, none⟩).1),
          (store.allocClosure ⟨function, captures, none⟩).2) := by
  unfold step
  simpa only [run_bind, run_pop, run_onStore] using run_push_next

theorem step_getIterator :
    (step surroundings .getIterator).run
        ⟨.ofList capacity (values ++ [value]), ip, base, depth, debug, store⟩ =
      deliver capacity values ip base depth debug (value.toIterator store) := by
  unfold step
  simp only [run_bind, run_pop, run_onStore]
  rcases value.toIterator store with ⟨_ | iterator, later⟩
  · rfl
  · simpa only [run_bind] using run_push_next

theorem step_iterMoveNext (id : IteratorId) :
    (step surroundings .iterMoveNext).run
        ⟨.ofList capacity (values ++ [.iterator id]), ip, base, depth, debug, store⟩ =
      deliver capacity values ip base depth debug
        (((Effect.moveNext id store).1.map .bool, (Effect.moveNext id store).2)) := by
  unfold step
  simp only [popIterator, run_bind, run_pop, run_pure, run_onStore, Effect.moveNext]
  rcases store.advance id with ⟨_ | advanced, later⟩
  · rfl
  · have advances : Except.mapError HostError.toFault (.ok advanced) = .ok advanced := rfl
    simpa only [advances, Except.map, run_bind, run_pure] using run_push_next

theorem step_iterCurrent (id : IteratorId) :
    (step surroundings .iterCurrent).run
        ⟨.ofList capacity (values ++ [.iterator id]), ip, base, depth, debug, store⟩ =
      deliver capacity values ip base depth debug (.ok (store.iterator id).current, store) := by
  unfold step
  simpa only [popIterator, run_bind, run_pop, run_pure, run_store] using run_push_next

theorem step_yieldValue :
    (step surroundings .yieldValue).run
        ⟨.ofList capacity (values ++ [value]), ip, base, depth, debug, store⟩ =
      (.ok (.yielded value), ⟨.ofList capacity values, ip, base, depth, debug, store⟩) := by
  unfold step
  simp

theorem step_allocFrame {count : Nat} (room : values.length + count ≤ capacity) :
    (step surroundings (.allocFrame count)).run
        ⟨.ofList capacity values, ip, base, depth, debug, store⟩ =
      (.ok .next, ⟨.ofList capacity (values ++ List.replicate count .unit),
        ip, base, depth, debug, store⟩) := by
  unfold step
  simp [run_pushUnits room]

/-- Whether a value is a step that a numeric loop cannot take. -/
def Value.isZeroStep : Value → Bool
  | .int value => value = 0
  | .float value => value.isZero
  | _ => false

theorem step_checkStep :
    (step surroundings .checkStep).run
        ⟨.ofList capacity (values ++ [value]), ip, base, depth, debug, store⟩ =
      (if value.isZeroStep then .error .zeroForStep else .ok .next,
        ⟨.ofList capacity (values ++ [value]), ip, base, depth, debug, store⟩) := by
  unfold step
  cases value with
  | int number => by_cases zero : number = 0 <;> simp [Value.isZeroStep, zero]
  | float number => cases zero : number.isZero <;> simp [Value.isZeroStep, zero]
  | _ => simp [Value.isZeroStep]

theorem step_pushDebug (context : DebugContext) :
    (step surroundings (.pushDebug context)).run
        ⟨.ofList capacity values, ip, base, depth, debug, store⟩ =
      (.ok .next, ⟨.ofList capacity values, ip, base, depth, context :: debug, store⟩) := rfl

theorem step_popDebug :
    (step surroundings .popDebug).run
        ⟨.ofList capacity values, ip, base, depth, debug, store⟩ =
      (.ok .next, ⟨.ofList capacity values, ip, base, depth, debug.tail, store⟩) := rfl

/-! ## Calls and returns -/

/-- The words of a frame header: the caller's base and where it goes on. -/
def headerWords (base ip : Nat) : List Value :=
  [.int (Int64.ofNat base), .int (Int64.ofNat ip)]

@[simp]
theorem length_headerWords : (headerWords base ip).length = 2 := rfl

theorem run_enterCall {offset : Nat} (room : values.length + args.length + 2 ≤ capacity) :
    (enterCall offset args.length).run
        ⟨.ofList capacity (values ++ args), ip, base, depth, debug, store⟩ =
      (.ok (), ⟨.ofList capacity (values ++ args ++ headerWords base ip),
        offset, values.length, depth + 1, debug, store⟩) := by
  have first : (values ++ args).length < capacity := by simp; omega
  have second : (values ++ (args ++ [Value.int (Int64.ofNat base)])).length < capacity := by
    simp; omega
  have enough : ¬values.length + args.length < args.length := by omega
  simp [enterCall, enough, run_push first, run_push second, headerWords]

theorem step_callFunction {entry : FunctionEntry} {function : FunctionRef}
    (room : values.length + args.length + 2 ≤ capacity)
    (found : surroundings.program.lookup? function.path function.name = some entry)
    (arity : entry.arity = args.length) :
    (step surroundings (.callFunction function args.length)).run
        ⟨.ofList capacity (values ++ args), ip, base, depth, debug, store⟩ =
      (.ok .next, ⟨.ofList capacity (values ++ args ++ headerWords base ip),
        entry.offset, values.length, depth + 1, debug, store⟩) := by
  unfold step
  simp [resolveFunction, found, checkArity, arity, run_enterCall room]

theorem step_callFunction_arity {entry : FunctionEntry} {function : FunctionRef}
    (found : surroundings.program.lookup? function.path function.name = some entry)
    (arity : entry.arity ≠ args.length) :
    (step surroundings (.callFunction function args.length)).run
        ⟨.ofList capacity (values ++ args), ip, base, depth, debug, store⟩ =
      (.error (.argumentCount function.render entry.arity args.length),
        ⟨.ofList capacity (values ++ args), ip, base, depth, debug, store⟩) := by
  unfold step
  simp [resolveFunction, found, checkArity, arity]

theorem getElem?_callee {rest : List Value} : (values ++ value :: rest)[values.length]? = some value := by
  simp

/-- A called closure gives its place to the values that it keeps. -/
theorem step_invokeClosure_callee (id : ClosureId) :
    (step surroundings (.invokeClosure args.length)).run
        ⟨.ofList capacity (values ++ .closure id :: args), ip, base, depth, debug, store⟩ =
      (resolveClosure surroundings.program id (args.length + 1) >>= fun offset =>
        enterCall offset (args.length + 1) >>= fun _ => pure Control.next).run
        ⟨.ofList capacity (values ++ .array (store.closure id).captures :: args),
          ip, base, depth, debug, store⟩ := by
  have inside : values.length < (values ++ Value.closure id :: args).length := by simp
  have enough : ¬values.length + (args.length + 1) < args.length + 1 := by omega
  unfold step
  simp only [bind_pure_comp, ExceptT.map_throw, ExceptT.bind_throw, run_bind, run_stackSize,
    ValueStack.size_ofList, List.length_append, List.length_cons, enough, if_false,
    Nat.add_sub_cancel, run_slot getElem?_callee, run_store, run_setSlot inside, Nat.le_refl,
    List.set_append_right, Nat.sub_self, List.set_cons_zero]

theorem step_invokeClosure {id : ClosureId} {offset : Nat} {later : Store}
    (room : values.length + args.length + 3 ≤ capacity)
    (resolved : Effect.resolveClosure surroundings.program id (args.length + 1) store =
      (.ok offset, later)) :
    (step surroundings (.invokeClosure args.length)).run
        ⟨.ofList capacity (values ++ .closure id :: args), ip, base, depth, debug, store⟩ =
      (.ok .next, ⟨.ofList capacity
          (values ++ .array (store.closure id).captures :: args ++ headerWords base ip),
        offset, values.length, depth + 1, debug, later⟩) := by
  have entered := @run_enterCall capacity ip base depth values
    (.array (store.closure id).captures :: args) debug later offset (by simp; omega)
  rw [List.length_cons] at entered
  rw [step_invokeClosure_callee, run_bind, run_resolveClosure, run_onStore, resolved]
  dsimp only
  rw [run_bind, entered]
  rfl

theorem step_invokeClosure_fault {id : ClosureId} {fault : RuntimeFault} {later : Store}
    (resolved : Effect.resolveClosure surroundings.program id (args.length + 1) store =
      (.error fault, later)) :
    (step surroundings (.invokeClosure args.length)).run
        ⟨.ofList capacity (values ++ .closure id :: args), ip, base, depth, debug, store⟩ =
      (.error fault, ⟨.ofList capacity
          (values ++ .array (store.closure id).captures :: args),
        ip, base, depth, debug, later⟩) := by
  rw [step_invokeClosure_callee, run_bind, run_resolveClosure, run_onStore, resolved]

theorem step_invokeClosure_notCallable (other : ∀ id, value ≠ .closure id) :
    (step surroundings (.invokeClosure args.length)).run
        ⟨.ofList capacity (values ++ value :: args), ip, base, depth, debug, store⟩ =
      (.error (.notCallable (value.typeName store)),
        ⟨.ofList capacity (values ++ value :: args), ip, base, depth, debug, store⟩) := by
  have enough : ¬values.length + (args.length + 1) < args.length + 1 := by omega
  unfold step
  simp only [bind_pure_comp, ExceptT.map_throw, ExceptT.bind_throw, run_bind, run_stackSize,
    ValueStack.size_ofList, List.length_append, List.length_cons, enough, if_false,
    Nat.add_sub_cancel, run_slot getElem?_callee]
  cases value with
  | closure id => exact absurd rfl (other id)
  | _ => rfl

theorem run_callClosure {id : ClosureId} {offset : Nat} {later : Store} {program : Program}
    (room : values.length + args.length + 3 ≤ capacity)
    (resolved : Effect.resolveClosure program id (args.length + 1) store = (.ok offset, later)) :
    (callClosure program id args).run
        ⟨.ofList capacity values, ip, base, depth, debug, store⟩ =
      (.ok (), ⟨.ofList capacity
          (values ++ .array (later.closure id).captures :: args ++ headerWords base ip),
        offset, values.length, depth + 1, debug, later⟩) := by
  have first : values.length < capacity := by omega
  have entered := @run_enterCall capacity ip base depth values
    (.array (later.closure id).captures :: args) debug later offset (by simp; omega)
  have pushed := @run_pushAll capacity ip base depth
    (values ++ [.array (later.closure id).captures]) args debug later (by simp; omega)
  simp only [List.length_cons, List.append_assoc, List.cons_append, List.nil_append] at entered pushed
  simp [callClosure, run_resolveClosure, resolved, run_push first, pushed, entered]

theorem step_callMethod (name : String) :
    (step surroundings (.callMethod name args.length)).run
        ⟨.ofList capacity (values ++ value :: args), ip, base, depth, debug, store⟩ =
      match Effect.callMember surroundings.registry value name args store with
      | (.error fault, later) =>
          (.error fault, ⟨.ofList capacity values, ip, base, depth, debug, later⟩)
      | (.ok member, later) =>
          (finishMember surroundings.program args member >>= fun _ => pure Control.next).run
            ⟨.ofList capacity values, ip, base, depth, debug, later⟩ := by
  rw [List.append_cons]
  unfold step
  simp only [run_bind, run_popMany, run_pop, run_callMethod, run_onStore]
  rcases Effect.callMember surroundings.registry value name args store with ⟨_ | member, later⟩ <;>
    rfl

theorem frameWord_ofNat {word : Nat} (small : word < twoTo 63) :
    frameWord (.int (Int64.ofNat word)) = .ok word := by
  have same : (Int64.ofNat word).toInt = word := Int64.toInt_ofNat_of_lt small
  simp [frameWord, same]

/-- A return puts its value in the place of the frame. -/
theorem step_returnValue {frame : List Value} {savedBase returnIp params : Nat}
    (baseSmall : savedBase < twoTo 63) (ipSmall : returnIp < twoTo 63)
    (room : values.length < capacity)
    (saved : frame[params]? = some (.int (Int64.ofNat savedBase)))
    (resumption : frame[params + 1]? = some (.int (Int64.ofNat returnIp))) :
    (step surroundings (.returnValue params)).run
        ⟨.ofList capacity (values ++ frame ++ [value]), ip, values.length, depth, debug, store⟩ =
      if depth - 1 = 0 then
        (.ok (.completed value),
          ⟨.ofList capacity (values ++ [value]), ip, values.length, depth - 1, debug, store⟩)
      else
        (.ok .next,
          ⟨.ofList capacity (values ++ [value]), returnIp, savedBase, depth - 1, debug, store⟩) := by
  have first : (values ++ frame)[values.length + params]? =
      some (.int (Int64.ofNat savedBase)) := by
    rw [List.getElem?_append_right (by omega), Nat.add_sub_cancel_left, saved]
  have second : (values ++ frame)[values.length + params + 1]? =
      some (.int (Int64.ofNat returnIp)) := by
    rw [Nat.add_assoc, List.getElem?_append_right (by omega), Nat.add_sub_cancel_left, resumption]
  unfold step
  simp only [returnFrom, run_bind, run_pop, run_base, run_slot first, run_slot second,
    run_lift, frameWord_ofNat baseSmall, frameWord_ofNat ipSmall, run_modify,
    ValueStack.truncate_ofList, run_push room, run_get]
  split <;> rfl

/-! ## Full stacks -/

theorem run_pushAll_full (held : values.length ≤ capacity)
    (full : capacity < values.length + args.length) :
    ∃ more, (pushAll args).run ⟨.ofList capacity values, ip, base, depth, debug, store⟩ =
      (.error (.stackOverflow capacity),
        ⟨.ofList capacity (values ++ more), ip, base, depth, debug, store⟩) := by
  induction args generalizing values with
  | nil => simp only [List.length_nil] at full; omega
  | cons first rest ih =>
      rw [List.length_cons] at full
      rcases Nat.lt_or_ge values.length capacity with room | full
      · rcases @ih (values ++ [first]) (by simp; omega) (by simp; omega) with ⟨more, fails⟩
        rw [List.append_assoc] at fails
        refine ⟨first :: more, ?_⟩
        rw [pushAll, run_bind, run_push room]
        exact fails
      · refine ⟨[], ?_⟩
        rw [pushAll, run_bind, run_push_full full, List.append_nil]

theorem pushUnits_eq_pushAll (count : Nat) : pushUnits count = pushAll (.replicate count .unit) := by
  induction count with
  | zero => rfl
  | succ count ih => rw [pushUnits, List.replicate_succ, pushAll, ih]

theorem step_allocFrame_full {count : Nat} (held : values.length ≤ capacity)
    (full : capacity < values.length + count) :
    ∃ more, (step surroundings (.allocFrame count)).run
        ⟨.ofList capacity values, ip, base, depth, debug, store⟩ =
      (.error (.stackOverflow capacity),
        ⟨.ofList capacity (values ++ more), ip, base, depth, debug, store⟩) := by
  rcases @run_pushAll_full capacity ip base depth values (.replicate count .unit) debug store held
    (by simpa using full) with ⟨more, fails⟩
  exact ⟨more, by unfold step; simp [pushUnits_eq_pushAll, fails]⟩

theorem run_enterCall_full {offset : Nat} (held : values.length + args.length ≤ capacity)
    (full : capacity < values.length + args.length + 2) :
    ∃ more, (enterCall offset args.length).run
        ⟨.ofList capacity (values ++ args), ip, base, depth, debug, store⟩ =
      (.error (.stackOverflow capacity),
        ⟨.ofList capacity (values ++ more), ip, base, depth, debug, store⟩) := by
  have enough : ¬values.length + args.length < args.length := by omega
  rcases Nat.lt_or_ge (values ++ args).length capacity with room | full
  · have second : capacity ≤ (values ++ (args ++ [Value.int (Int64.ofNat base)])).length := by
      simp; omega
    exact ⟨args ++ [.int (Int64.ofNat base)], by
      simp [enterCall, enough, run_push room, run_push_full second]⟩
  · exact ⟨args, by simp [enterCall, enough, run_push_full full]⟩

theorem step_callFunction_full {entry : FunctionEntry} {function : FunctionRef}
    (held : values.length + args.length ≤ capacity)
    (full : capacity < values.length + args.length + 2)
    (found : surroundings.program.lookup? function.path function.name = some entry)
    (arity : entry.arity = args.length) :
    ∃ more, (step surroundings (.callFunction function args.length)).run
        ⟨.ofList capacity (values ++ args), ip, base, depth, debug, store⟩ =
      (.error (.stackOverflow capacity),
        ⟨.ofList capacity (values ++ more), ip, base, depth, debug, store⟩) := by
  rcases @run_enterCall_full capacity ip base depth values args debug store entry.offset held full
    with ⟨more, fails⟩
  exact ⟨more, by unfold step; simp [resolveFunction, found, checkArity, arity, fails]⟩

theorem step_invokeClosure_full {id : ClosureId} {offset : Nat} {later : Store}
    (held : values.length + args.length + 1 ≤ capacity)
    (full : capacity < values.length + args.length + 3)
    (resolved : Effect.resolveClosure surroundings.program id (args.length + 1) store =
      (.ok offset, later)) :
    ∃ more, (step surroundings (.invokeClosure args.length)).run
        ⟨.ofList capacity (values ++ .closure id :: args), ip, base, depth, debug, store⟩ =
      (.error (.stackOverflow capacity),
        ⟨.ofList capacity (values ++ more), ip, base, depth, debug, later⟩) := by
  rcases @run_enterCall_full capacity ip base depth values
    (.array (store.closure id).captures :: args) debug later offset (by simp; omega)
    (by simp; omega) with ⟨more, fails⟩
  rw [List.length_cons] at fails
  refine ⟨more, ?_⟩
  rw [step_invokeClosure_callee, run_bind, run_resolveClosure, run_onStore, resolved]
  dsimp only
  rw [run_bind, fails]

theorem run_callClosure_full {id : ClosureId} {offset : Nat} {later : Store} {program : Program}
    (full : capacity < values.length + args.length + 3)
    (resolved : Effect.resolveClosure program id (args.length + 1) store = (.ok offset, later)) :
    ∃ more, (callClosure program id args).run
        ⟨.ofList capacity values, ip, base, depth, debug, store⟩ =
      (.error (.stackOverflow capacity),
        ⟨.ofList capacity (values ++ more), ip, base, depth, debug, later⟩) := by
  rcases Nat.lt_or_ge values.length capacity with room | full
  · rcases Nat.lt_or_ge capacity (values.length + args.length + 1) with short | enough
    · rcases @run_pushAll_full capacity ip base depth
        (values ++ [.array (later.closure id).captures]) args debug later (by simp; omega)
        (by simp; omega) with ⟨more, fails⟩
      exact ⟨.array (later.closure id).captures :: more, by
        simp [callClosure, run_resolveClosure, resolved, run_push room, fails]⟩
    · have pushed := @run_pushAll capacity ip base depth
        (values ++ [.array (later.closure id).captures]) args debug later (by simp; omega)
      rcases @run_enterCall_full capacity ip base depth values
        (.array (later.closure id).captures :: args) debug later offset (by simp; omega)
        (by simp; omega) with ⟨more, fails⟩
      simp only [List.length_cons, List.append_assoc, List.cons_append, List.nil_append] at pushed fails
      exact ⟨more, by
        simp [callClosure, run_resolveClosure, resolved, run_push room, pushed, fails]⟩
  · exact ⟨[], by simp [callClosure, run_resolveClosure, resolved, run_push_full full]⟩

theorem run_callClosure_fault {id : ClosureId} {fault : RuntimeFault} {later : Store}
    {program : Program}
    (resolved : Effect.resolveClosure program id (args.length + 1) store = (.error fault, later)) :
    (callClosure program id args).run
        ⟨.ofList capacity values, ip, base, depth, debug, store⟩ =
      (.error fault, ⟨.ofList capacity values, ip, base, depth, debug, later⟩) := by
  simp [callClosure, run_resolveClosure, resolved]

end Instructions

end ScriptMachine
