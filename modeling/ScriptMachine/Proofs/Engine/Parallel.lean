import ScriptMachine.Proofs.Engine.Pairs
import ScriptMachine.Proofs.Engine.Turns

/-!
# Two machines in step

Two machines that are the same up to what their values refer to carry out an instruction alike: with
the same fault, or with the same way to go on, and they are the same up to what their values refer to
again. So whole turns are alike, as long as the host is pure and the program has no globals.
-/

namespace ScriptMachine

/-! ## Stacks -/

/-- Stacks that are the same up to what their values refer to. -/
structure ValueStack.Twins (pairs : Pairing) (first second : ValueStack) : Prop where
  items : List.Forall₂ (Value.Twins pairs) first.items.toList second.items.toList
  capacity : first.capacity = second.capacity

/-- What has come of one operation on two stacks. -/
def ValueStack.Agree {α : Type} (pairs : Pairing) (same : Pairing → α → α → Prop)
    (result twin : StackResult α) : Prop :=
  SameResult (same pairs) result.1 twin.1 ∧ result.2.Twins pairs twin.2

namespace ValueStack.Twins

variable {pairs : Pairing} {first second : ValueStack} {value twin : Value}
  (twins : first.Twins pairs second)

include twins

theorem size : first.items.size = second.items.size := twins.items.length_eq

/-- The topmost values are there or not, and are twins. -/
theorem back? : (first.items.back? = none ∧ second.items.back? = none) ∨
    ∃ value twin, first.items.back? = some value ∧ second.items.back? = some twin ∧
      value.Twins pairs twin := by
  simp only [Array.back?, twins.size, ← Array.getElem?_toList]
  exact Value.Twins.getElem? twins.items _

/-- The values below a height. -/
theorem shrink (height : Nat) :
    Twins pairs { first with items := first.items.shrink height }
      { second with items := second.items.shrink height } := by
  refine ⟨?_, twins.capacity⟩
  simpa using List.forall₂_take height twins.items

theorem push (values : value.Twins pairs twin) :
    Agree pairs (fun _ => Eq) (first.push value) (second.push twin) := by
  unfold ValueStack.push
  rw [twins.size, twins.capacity]
  split
  · exact ⟨.error, twins⟩
  · refine ⟨.ok rfl, ?_, rfl⟩
    simpa using List.rel_append twins.items (.cons values .nil)

theorem pop : Agree pairs Value.Twins first.pop second.pop := by
  unfold ValueStack.pop
  rcases twins.back? with ⟨here, there⟩ | ⟨value, twin, here, there, values⟩
  · rw [here, there]
    exact ⟨.error, twins⟩
  · rw [here, there]
    refine ⟨.ok values, ?_, twins.capacity⟩
    simpa [List.dropLast_eq_take, twins.size] using
      List.forall₂_take (second.items.size - 1) twins.items

theorem popMany (count : Nat) :
    Agree pairs (fun later => List.Forall₂ (Value.Twins later)) (first.popMany count)
      (second.popMany count) := by
  unfold ValueStack.popMany
  rw [twins.size]
  split
  · exact ⟨.error, twins⟩
  · refine ⟨.ok ?_, twins.shrink _⟩
    simpa using List.forall₂_take _ (List.forall₂_drop (second.items.size - count) twins.items)

theorem peek : Agree pairs Value.Twins first.peek second.peek := by
  unfold ValueStack.peek
  rcases twins.back? with ⟨here, there⟩ | ⟨value, twin, here, there, values⟩
  · rw [here, there]
    exact ⟨.error, twins⟩
  · rw [here, there]
    exact ⟨.ok values, twins⟩

theorem get (slot : Nat) : Agree pairs Value.Twins (first.get slot) (second.get slot) := by
  unfold ValueStack.get
  rw [← Array.getElem?_toList, ← Array.getElem?_toList]
  rcases Value.Twins.getElem? twins.items slot with
    ⟨here, there⟩ | ⟨value, twin, here, there, values⟩
  · rw [here, there]
    exact ⟨.error, twins⟩
  · rw [here, there]
    exact ⟨.ok values, twins⟩

theorem set (slot : Nat) (values : value.Twins pairs twin) :
    Agree pairs (fun _ => Eq) (first.set slot value) (second.set slot twin) := by
  unfold ValueStack.set
  rw [twins.size]
  split
  · exact ⟨.ok rfl, Effect.setElement_twins values twins.items slot, twins.capacity⟩
  · exact ⟨.error, twins⟩

end ValueStack.Twins

/-! ## Actions -/

/-- Machines that are the same up to what their values refer to. -/
structure Machine.Twins (pairs : Pairing) (first second : Machine) : Prop where
  stack : first.stack.Twins pairs second.stack
  ip : first.ip = second.ip
  base : first.base = second.base
  depth : first.depth = second.depth
  debugStack : first.debugStack = second.debugStack
  joins : pairs.Joins first.store second.store

/-- Ways to go on that are the same up to what their values refer to. -/
inductive Control.Twins (pairs : Pairing) : Control → Control → Prop
  | next : Twins pairs .next .next
  | yielded {first second : Value} (twins : first.Twins pairs second) :
      Twins pairs (.yielded first) (.yielded second)
  | completed {first second : Value} (twins : first.Twins pairs second) :
      Twins pairs (.completed first) (.completed second)

namespace Step

variable {α β : Type} {pairs : Pairing} {same : Pairing → α → α → Prop}
  {sameNext : Pairing → β → β → Prop}

/-- Two actions that do the same to machines that are twins. -/
def InStep (pairs : Pairing) (same : Pairing → α → α → Prop) (action twin : Step α) : Prop :=
  ∀ first second : Machine, first.Twins pairs second →
    ∃ later, pairs.Later later first.store (action.run first).2.store ∧
      (action.run first).2.Twins later (twin.run second).2 ∧
      SameResult (same later) (action.run first).1 (twin.run second).1

namespace InStep

variable {value twin : Value}

theorem lift {result resultTwin : Except RuntimeFault α}
    (results : SameResult (same pairs) result resultTwin) :
    InStep pairs same (liftM result : Step α) (liftM resultTwin : Step α) :=
  fun _ _ twins => ⟨pairs, .refl, twins, results⟩

theorem pure {result resultTwin : α} (related : same pairs result resultTwin) :
    InStep pairs same (Pure.pure result) (Pure.pure resultTwin) :=
  fun _ _ twins => ⟨pairs, .refl, twins, .ok related⟩

theorem throw (fault : RuntimeFault) :
    InStep pairs same (MonadExcept.throw fault : Step α) (MonadExcept.throw fault : Step α) :=
  fun _ _ twins => ⟨pairs, .refl, twins, .error⟩

/-- One action after another. What was seen before is seen with a larger pairing after. -/
theorem bind {first firstTwin : Step α} {next nextTwin : α → Step β}
    (inStep : InStep pairs same first firstTwin)
    (inStepNext : ∀ later : Pairing, (∀ {kind here there}, pairs kind here there →
      later kind here there) → ∀ value twin, same later value twin →
      InStep later sameNext (next value) (nextTwin twin)) :
    InStep pairs sameNext (first >>= next) (firstTwin >>= nextTwin) := by
  intro machine partner twins
  rcases inStep machine partner twins with ⟨later, goesOn, twinsLater, results⟩
  rw [run_bind, run_bind]
  generalize first.run machine = result at goesOn twinsLater results
  generalize firstTwin.run partner = resultTwin at twinsLater results
  rcases result with ⟨result, middle⟩
  rcases resultTwin with ⟨resultTwin, middleTwin⟩
  cases results with
  | error => exact ⟨later, goesOn, twinsLater, .error⟩
  | ok related =>
      rcases inStepNext later goesOn.keeps _ _ related middle middleTwin twinsLater with
        ⟨latest, goesOnLater, twinsLatest, results⟩
      exact ⟨latest, goesOn.trans goesOnLater, twinsLatest, results⟩

theorem discard {action actionTwin : Step α} (inStep : InStep pairs same action actionTwin) :
    InStep pairs (fun _ => Eq) (discard action) (discard actionTwin) := by
  change InStep pairs _ (Function.const α () <$> action) (Function.const α () <$> actionTwin)
  rw [map_eq_pure_bind, map_eq_pure_bind]
  exact inStep.bind fun _ _ _ _ _ => pure rfl

/-- A choice that is made alike. -/
theorem ite {condition : Prop} [Decidable condition] {yes yesTwin no noTwin : Step α}
    (inStepYes : InStep pairs same yes yesTwin) (inStepNo : InStep pairs same no noTwin) :
    InStep pairs same (if condition then yes else no) (if condition then yesTwin else noTwin) := by
  split
  · exact inStepYes
  · exact inStepNo

theorem refused {condition : Prop} [Decidable condition] {fault : RuntimeFault}
    {next nextTwin : Unit → Step α} (inStep : InStep pairs same (next ()) (nextTwin ())) :
    InStep pairs same
      (if condition then (MonadExcept.throw fault : Step Unit) >>= next else next ())
      (if condition then (MonadExcept.throw fault : Step Unit) >>= nextTwin else nextTwin ()) :=
  ite (fun _ _ twins => ⟨pairs, .refl, twins, .error⟩) inStep

/-- An action that goes on with the next instruction. -/
theorem next {action actionTwin : Step Unit}
    (inStep : InStep pairs (fun _ => Eq) action actionTwin) :
    InStep pairs Control.Twins (action >>= fun _ => Pure.pure Control.next)
      (actionTwin >>= fun _ => Pure.pure Control.next) :=
  inStep.bind fun _ _ _ _ _ => pure .next

/-! ## Parts of instructions -/

theorem onStack {operation operationTwin : ValueStack → StackResult α}
    (agree : ∀ first second, first.Twins pairs second →
      ValueStack.Agree pairs same (operation first) (operationTwin second)) :
    InStep pairs same (Step.onStack operation) (Step.onStack operationTwin) := by
  intro machine partner twins
  have agreed := agree _ _ twins.stack
  exact ⟨pairs, .refl, ⟨agreed.2, twins.ip, twins.base, twins.depth, twins.debugStack, twins.joins⟩,
    agreed.1⟩

theorem onStore {effect effectTwin : Effect α} (inStep : Effect.InStep pairs same effect effectTwin) :
    InStep pairs same (Step.onStore effect) (Step.onStore effectTwin) := by
  intro machine partner twins
  rcases inStep _ _ twins.joins with ⟨later, goesOn, joins, results⟩
  exact ⟨later, goesOn, ⟨⟨Value.Twins.monoAll goesOn.keeps twins.stack.items, twins.stack.capacity⟩,
    twins.ip, twins.base, twins.depth, twins.debugStack, joins⟩, results⟩

theorem push (values : value.Twins pairs twin) :
    InStep pairs (fun _ => Eq) (Step.push value) (Step.push twin) :=
  onStack fun _ _ twins => twins.push values

theorem pop : InStep pairs Value.Twins Step.pop Step.pop := onStack fun _ _ twins => twins.pop

theorem popMany (count : Nat) :
    InStep pairs (fun later => List.Forall₂ (Value.Twins later)) (Step.popMany count)
      (Step.popMany count) :=
  onStack fun _ _ twins => twins.popMany count

theorem peek : InStep pairs Value.Twins Step.peek Step.peek := onStack fun _ _ twins => twins.peek

theorem slot (index : Nat) : InStep pairs Value.Twins (Step.slot index) (Step.slot index) :=
  onStack fun _ _ twins => twins.get index

theorem setSlot (index : Nat) (values : value.Twins pairs twin) :
    InStep pairs (fun _ => Eq) (Step.setSlot index value) (Step.setSlot index twin) :=
  onStack fun _ _ twins => twins.set index values

theorem stackSize : InStep pairs (fun _ => Eq) Step.stackSize Step.stackSize :=
  fun _ _ twins => ⟨pairs, .refl, twins, .ok twins.stack.size⟩

theorem base : InStep pairs (fun _ => Eq) Step.base Step.base :=
  fun _ _ twins => ⟨pairs, .refl, twins, .ok twins.base⟩

/-- A change of the machine apart from its store. -/
theorem modify {change : Machine → Machine} (store : ∀ machine, (change machine).store = machine.store)
    (changes : ∀ first second : Machine, first.Twins pairs second →
      (change first).Twins pairs (change second)) :
    InStep pairs (fun _ => Eq) (modify change : Step Unit) (modify change : Step Unit) := by
  intro machine partner twins
  refine ⟨pairs, ?_, changes machine partner twins, .ok rfl⟩
  rw [run_modify, store]
  exact .refl

/-- Looking at what twins have in common. -/
theorem get {next nextTwin : Machine → Step β}
    (inStep : ∀ first second : Machine, first.Twins pairs second →
      InStep pairs sameNext (next first) (nextTwin second)) :
    InStep pairs sameNext (get >>= next) (get >>= nextTwin) :=
  fun machine partner twins => inStep machine partner twins machine partner twins

theorem jumpTo (target : Nat) :
    InStep pairs (fun _ => Eq) (Step.jumpTo target) (Step.jumpTo target) :=
  modify (fun _ => rfl) fun _ _ twins =>
    ⟨twins.stack, rfl, twins.base, twins.depth, twins.debugStack, twins.joins⟩

theorem enterCall (offset argc : Nat) :
    InStep pairs (fun _ => Eq) (Step.enterCall offset argc) (Step.enterCall offset argc) := by
  refine stackSize.bind fun later keeps size sizeTwin related => ?_
  cases related
  refine refused (get fun machine partner twins => ?_)
  rw [twins.base, twins.ip]
  refine (push .int).bind fun _ _ _ _ _ => (push .int).bind fun _ _ _ _ _ => ?_
  exact modify (fun _ => rfl) fun _ _ twins =>
    ⟨twins.stack, rfl, rfl, congrArg (· + 1) twins.depth, twins.debugStack, twins.joins⟩

theorem frameWord (values : value.Twins pairs twin) :
    InStep pairs (fun _ => Eq) (liftM (Step.frameWord value) : Step Nat)
      (liftM (Step.frameWord twin) : Step Nat) := by
  have word : Step.frameWord value = Step.frameWord twin := by cases values <;> rfl
  rw [word]
  exact lift (.of_eq rfl fun _ _ => rfl)

theorem returnFrom (params : Nat) :
    InStep pairs Control.Twins (Step.returnFrom params) (Step.returnFrom params) := by
  refine pop.bind fun _ _ value twin values => base.bind fun _ keeps _ _ same => ?_
  cases same
  have values := values.mono keeps
  refine (slot _).bind fun _ keeps _ _ saved => (frameWord saved).bind fun _ keepsToo _ _ same => ?_
  cases same
  have values := (values.mono keeps).mono keepsToo
  refine (slot _).bind fun _ keeps _ _ back => (frameWord back).bind fun _ keepsToo _ _ same => ?_
  cases same
  have values := (values.mono keeps).mono keepsToo
  refine bind (modify ?_ ?_) fun _ keeps _ _ _ => ?_
  · exact fun _ => rfl
  · intro first second twins
    refine ⟨?_, twins.ip, twins.base, congrArg (· - 1) twins.depth, twins.debugStack, twins.joins⟩
    simp only [twins.base]
    exact twins.stack.shrink second.base
  · have values := values.mono keeps
    refine (push values).bind fun _ keeps _ _ _ => get fun _ _ twins => ?_
    rw [twins.depth]
    refine ite (pure (.completed (values.mono keeps))) (next (modify ?_ ?_))
    · exact fun _ => rfl
    · exact fun _ _ twins => ⟨twins.stack, rfl, rfl, twins.depth, twins.debugStack, twins.joins⟩

theorem pushAll {values twins : List Value}
    (related : List.Forall₂ (Value.Twins pairs) values twins) :
    InStep pairs (fun _ => Eq) (Step.pushAll values) (Step.pushAll twins) := by
  induction values generalizing pairs twins with
  | nil =>
      cases related
      exact pure rfl
  | cons value values ih =>
      cases related with
      | cons first rest =>
          exact (push first).bind fun _ keeps _ _ _ => ih (Value.Twins.monoAll keeps rest)

theorem pushUnits (count : Nat) :
    InStep pairs (fun _ => Eq) (Step.pushUnits count) (Step.pushUnits count) := by
  induction count generalizing pairs with
  | zero => exact pure rfl
  | succ count ih => exact (push .unit).bind fun _ _ _ _ _ => ih

/-! ## Instructions -/

/-- What is looked up in the store. -/
theorem read {look lookTwin : Store → α} {next nextTwin : α → Step β}
    (looks : Effect.InStep pairs same (Effect.read look) (Effect.read lookTwin))
    (inStep : ∀ later : Pairing, (∀ {kind here there}, pairs kind here there →
      later kind here there) → ∀ value twin, same later value twin →
      InStep later sameNext (next value) (nextTwin twin)) :
    InStep pairs sameNext (Step.store >>= fun store => next (look store))
      (Step.store >>= fun store => nextTwin (lookTwin store)) := by
  change InStep pairs sameNext (Step.onStore (Effect.read look) >>= next)
    (Step.onStore (Effect.read lookTwin) >>= nextTwin)
  exact (onStore looks).bind inStep

theorem deliver {effect effectTwin : Effect Value}
    (inStep : Effect.InStep pairs Value.Twins effect effectTwin) :
    InStep pairs (fun _ => Eq) (Step.onStore effect >>= Step.push)
      (Step.onStore effectTwin >>= Step.push) :=
  (onStore inStep).bind fun _ _ _ _ values => push values

theorem popIterator (mnemonic : String) :
    InStep pairs (fun later one other => later .iterator one.index other.index)
      (Step.popIterator mnemonic) (Step.popIterator mnemonic) := by
  refine pop.bind fun _ _ _ _ values => ?_
  cases values with
  | iterator paired => exact pure paired
  | unit | bool | int | float | str | array | closure | object | useDefault => exact throw _

theorem typeName (values : value.Twins pairs twin) :
    InStep pairs (fun _ => Eq) (Step.typeName value) (Step.typeName twin) :=
  onStore (Effect.inStep_typeName values)

theorem resolveFunction (program : Program) (function : FunctionRef) (argc : Nat) :
    InStep pairs (fun _ => Eq) (Step.resolveFunction program function argc)
      (Step.resolveFunction program function argc) := by
  unfold Step.resolveFunction
  split
  · exact lift (.of_eq rfl fun _ _ => rfl)
  · exact throw _

theorem resolveClosure (program : Program) {closure partner : ClosureId} (argc : Nat)
    (paired : pairs .closure closure.index partner.index) :
    InStep pairs (fun _ => Eq) (Step.resolveClosure program closure argc)
      (Step.resolveClosure program partner argc) := by
  rw [resolveClosure_eq, resolveClosure_eq]
  exact onStore (Effect.inStep_resolveClosure program argc paired)

theorem callClosure (program : Program) {closure partner : ClosureId} {args twins : List Value}
    (paired : pairs .closure closure.index partner.index)
    (related : List.Forall₂ (Value.Twins pairs) args twins) :
    InStep pairs (fun _ => Eq) (Step.callClosure program closure args)
      (Step.callClosure program partner twins) := by
  unfold Step.callClosure
  rw [related.length_eq]
  refine (resolveClosure program _ paired).bind fun _ keeps offset _ same => ?_
  cases same
  have related := Value.Twins.monoAll keeps related
  have enters {captures partners : ArrayId} {later : Pairing}
      (paired : later .array captures.index partners.index)
      (related : List.Forall₂ (Value.Twins later) args twins) :=
    (push (.array paired)).bind fun _ keeps _ _ _ =>
      (pushAll (Value.Twins.monoAll keeps related)).bind fun _ _ _ _ _ =>
        enterCall offset (twins.length + 1)
  exact read (Effect.inStep_captures (keeps paired)) fun _ keeps _ _ captures =>
    enters captures (Value.Twins.monoAll keeps related)

/-- A closure in its slot among the arguments is called. -/
theorem invoke (program : Program) {closure partner : ClosureId} (index argc : Nat)
    (paired : pairs .closure closure.index partner.index) :
    InStep pairs Control.Twins
      (do
        Step.setSlot index (.array ((← Step.store).closure closure).captures)
        Step.enterCall (← Step.resolveClosure program closure argc) argc
        return .next)
      (do
        Step.setSlot index (.array ((← Step.store).closure partner).captures)
        Step.enterCall (← Step.resolveClosure program partner argc) argc
        return .next) := by
  have enters {captures partners : ArrayId} {later : Pairing}
      (paired : later .closure closure.index partner.index)
      (captured : later .array captures.index partners.index) :
      InStep later Control.Twins
        (do
          Step.setSlot index (.array captures)
          Step.enterCall (← Step.resolveClosure program closure argc) argc
          return .next)
        (do
          Step.setSlot index (.array partners)
          Step.enterCall (← Step.resolveClosure program partner argc) argc
          return .next) := by
    refine (setSlot index (.array captured)).bind fun _ keeps _ _ _ => ?_
    refine (resolveClosure program argc (keeps paired)).bind fun _ _ _ _ same => ?_
    cases same
    exact next (enterCall _ argc)
  exact read (Effect.inStep_captures paired) fun _ keeps _ _ captured =>
    enters (keeps paired) captured

/-- A fault that names the type of a value. -/
theorem mistyped (values : value.Twins pairs twin) (fault : String → RuntimeFault) :
    InStep pairs same
      (do MonadExcept.throw (fault (← Step.typeName value)) : Step α)
      (do MonadExcept.throw (fault (← Step.typeName twin)) : Step α) := by
  refine (typeName values).bind fun _ _ _ _ same => ?_
  cases same
  exact throw _

variable {surroundings : Surroundings}

/-- Every instruction is carried out alike. -/
theorem step (globals : surroundings.program.globals = []) (host : surroundings.registry.Pure)
    (instruction : Instruction) :
    InStep pairs Control.Twins (step surroundings instruction) (step surroundings instruction) := by
  cases instruction with
  | nop => exact pure .next
  | pushConst constant => exact next (push (.of_isPlain (by cases constant <;> trivial)))
  | loadLocal index =>
      refine base.bind fun _ _ _ _ same => ?_
      cases same
      exact (slot _).bind fun _ _ _ _ values => next (push values)
  | storeLocal index =>
      refine pop.bind fun _ _ _ _ values => base.bind fun _ keeps _ _ same => ?_
      cases same
      exact next (setSlot _ (values.mono keeps))
  | loadGlobal index => exact (slot index).bind fun _ _ _ _ values => next (push values)
  | storeGlobal index =>
      refine pop.bind fun _ _ _ _ values => ?_
      simp only [globals, List.getElem?_nil]
      exact next (setSlot index values)
  | pop => exact next pop.discard
  | binary operator =>
      refine pop.bind fun _ _ _ _ rights => pop.bind fun _ keeps _ _ lefts => next ?_
      rw [binary_eq, binary_eq]
      exact deliver (Effect.inStep_binary host lefts (rights.mono keeps) operator)
  | unary operator =>
      refine pop.bind fun _ _ _ _ values => next ?_
      rw [unary_eq, unary_eq]
      exact deliver (Effect.inStep_unary values operator)
  | jump target => exact next (jumpTo target)
  | jumpIfFalse target =>
      refine pop.bind fun _ _ _ _ values => ?_
      simp only [values.isTruthy]
      exact ite (pure .next) (next (jumpTo target))
  | jumpIfFalseKeep target =>
      refine peek.bind fun _ _ _ _ values => ?_
      simp only [values.isTruthy]
      exact ite (next pop.discard) (next (jumpTo target))
  | jumpIfTrueKeep target =>
      refine peek.bind fun _ _ _ _ values => ?_
      simp only [values.isTruthy]
      exact ite (next (jumpTo target)) (next pop.discard)
  | callFunction function argc =>
      refine (resolveFunction _ function argc).bind fun _ _ _ _ same => ?_
      cases same
      exact next (enterCall _ argc)
  | callHost name argc binding =>
      refine (popMany argc).bind fun _ _ args twins related => ?_
      have called := next (deliver (Effect.inStep_callNamed host name binding related))
      simp only
      split
      · rename_i function bound
        rw [callNamed_bound bound, callNamed_bound bound]
        exact called
      · rename_i free
        rw [← callNamed_deferred free, ← callNamed_deferred free] at called
        exact called
  | callMethod name argc =>
      refine (popMany argc).bind fun _ _ args twins related => pop.bind fun _ keeps _ _ receivers => ?_
      have related := Value.Twins.monoAll keeps related
      refine next ?_
      rw [callMethod_eq, callMethod_eq]
      refine (onStore (Effect.inStep_callMember host receivers name related)).bind
        fun _ keeps _ _ members => ?_
      cases members with
      | value values => exact push values
      | closure paired => exact callClosure _ paired (Value.Twins.monoAll keeps related)
  | callStatic typeName name argc bound =>
      rw [step_callStatic_eq]
      refine (popMany argc).bind fun _ _ args twins related => ?_
      exact next (deliver (Effect.inStep_callStatic host typeName name related))
  | invokeClosure argc =>
      refine stackSize.bind fun _ _ _ _ same => ?_
      cases same
      refine refused ((slot _).bind fun _ _ _ _ callees => ?_)
      have values := callees
      cases callees with
      | closure paired => exact invoke surroundings.program _ (argc + 1) paired
      | unit | bool | int | float | str | array | iterator | object | useDefault =>
          exact next (mistyped values _)
  | makeClosure function =>
      refine pop.bind fun _ _ _ _ captures => ?_
      have values := captures
      cases captures with
      | array paired =>
          exact (onStore (Effect.inStep_makeClosure function paired)).bind fun _ _ _ _ closures =>
            next (push (.closure closures))
      | unit | bool | int | float | str | closure | iterator | object | useDefault =>
          exact next (mistyped values _)
  | loadField name =>
      refine pop.bind fun _ _ _ _ targets => ?_
      rw [loadField_eq, loadField_eq]
      exact (onStore (Effect.inStep_loadField targets name)).bind fun _ _ _ _ values =>
        next (push values)
  | storeField name =>
      refine pop.bind fun _ _ _ _ values => pop.bind fun _ keeps _ _ targets => next ?_
      rw [storeField_eq, storeField_eq]
      exact onStore (Effect.inStep_storeField targets (values.mono keeps) name)
  | loadStatic typeName name bound =>
      rw [step_loadStatic_eq]
      exact next (deliver (Effect.inStep_loadStatic host typeName name))
  | loadIndex =>
      refine pop.bind fun _ _ _ _ indices => pop.bind fun _ keeps _ _ targets => next ?_
      rw [loadIndex_eq, loadIndex_eq]
      exact deliver (Effect.inStep_loadIndex host targets (indices.mono keeps))
  | storeIndex =>
      refine pop.bind fun _ _ _ _ values => pop.bind fun _ keeps _ _ indices => ?_
      refine pop.bind fun _ keepsToo _ _ targets => next ?_
      rw [storeIndex_eq, storeIndex_eq]
      exact onStore (Effect.inStep_storeIndex host targets (indices.mono keepsToo)
        ((values.mono keeps).mono keepsToo))
  | makeArray count =>
      refine (popMany count).bind fun _ _ _ _ related => ?_
      exact (onStore (Effect.inStep_makeArray related)).bind fun _ _ _ _ arrays =>
        next (push (.array arrays))
  | getIterator =>
      refine pop.bind fun _ _ _ _ values => ?_
      exact (onStore (Effect.inStep_toIterator values)).bind fun _ _ _ _ iterators =>
        next (push iterators)
  | iterMoveNext =>
      refine (popIterator _).bind fun _ _ _ _ paired => ?_
      refine (onStore (Effect.inStep_moveNext paired)).bind fun _ _ _ _ same => ?_
      cases same
      exact next (push .bool)
  | iterCurrent =>
      refine (popIterator _).bind fun _ _ _ _ paired => ?_
      exact read (Effect.inStep_current paired) fun _ _ _ _ values => next (push values)
  | yieldValue => exact pop.bind fun _ _ _ _ values => pure (.yielded values)
  | returnValue params => exact returnFrom params
  | allocFrame locals => exact next (pushUnits locals)
  | checkStep =>
      refine peek.bind fun _ _ _ _ values => ?_
      cases values with
      | int => exact refused (pure .next)
      | float => exact refused (pure .next)
      | unit | bool | str | array | closure | iterator | object | useDefault => exact pure .next
  | pushDebug context =>
      refine next (modify (fun _ => rfl) fun _ _ twins => ?_)
      exact ⟨twins.stack, twins.ip, twins.base, twins.depth,
        congrArg (context :: ·) twins.debugStack, twins.joins⟩
  | popDebug =>
      refine next (modify (fun _ => rfl) fun _ _ twins => ?_)
      exact ⟨twins.stack, twins.ip, twins.base, twins.depth,
        congrArg List.tail twins.debugStack, twins.joins⟩

/-- The first frame is set up alike. -/
theorem enter (globals : surroundings.program.globals = []) (entry : String) (path : List String)
    (name : String) {args twins : List Value}
    (related : List.Forall₂ (Value.Twins pairs) args twins) :
    InStep pairs (fun _ => Eq) (Engine.enter surroundings entry path name args)
      (Engine.enter surroundings entry path name twins) := by
  unfold Engine.enter
  cases surroundings.program.lookup? path name with
  | none => exact throw _
  | some function =>
      simp only [related.length_eq, globals, Engine.pushGlobals, pure_bind]
      refine refused (bind (modify ?_ ?_) ?_)
      · exact fun _ => rfl
      · exact fun _ _ twins =>
          ⟨twins.stack, twins.ip, twins.stack.size, twins.depth, twins.debugStack, twins.joins⟩
      · intro _ keeps _ _ _
        refine (pushAll ?_).bind fun _ _ _ _ _ => (push .int).bind fun _ _ _ _ _ =>
          (push .int).bind fun _ _ _ _ _ => modify ?_ ?_
        · exact Value.Twins.monoAll keeps related
        · exact fun _ => rfl
        · exact fun _ _ twins =>
            ⟨twins.stack, rfl, twins.base, rfl, twins.debugStack, twins.joins⟩

end InStep

end Step

/-! ## Turns -/

/-- Ends of turns that are the same up to what their values refer to. -/
inductive TurnOutcome.Twins (pairs : Pairing) : TurnOutcome → TurnOutcome → Prop
  | yielded {first second : Value} (twins : first.Twins pairs second) :
      Twins pairs (.yielded first) (.yielded second)
  | completed {first second : Value} (twins : first.Twins pairs second) :
      Twins pairs (.completed first) (.completed second)
  | faulted {report : FaultReport} : Twins pairs (.faulted report) (.faulted report)
  | unfinished : Twins pairs .unfinished .unfinished

/-- Engines that are the same up to what the values on their stacks refer to. -/
def Engine.Twins (pairs : Pairing) (first second : Engine) : Prop :=
  ∃ stack, first.stack.Twins pairs stack ∧ second = { first with stack }

/-- Turns that are the same up to what their values refer to. -/
structure Turn.Twins (pairs : Pairing) (first second : Turn) : Prop where
  outcome : first.outcome.Twins pairs second.outcome
  engine : first.engine.Twins pairs second.engine
  joins : pairs.Joins first.store second.store
  events : first.events = second.events
  trace : first.trace = second.trace

/-- A turn that goes on from a store as its twin does from another. -/
def Turn.InStep (pairs : Pairing) (before : Store) (first second : Turn) : Prop :=
  ∃ later, pairs.Later later before first.store ∧ first.Twins later second

namespace Engine

variable {pairs : Pairing} {registry : Registry} {engine twin : Engine} {before other : Store}

theorem Twins.state (twins : engine.Twins pairs twin) : engine.state = twin.state := by
  rcases twins with ⟨stack, -, rfl⟩
  rfl

theorem Twins.program (twins : engine.Twins pairs twin) : engine.program = twin.program := by
  rcases twins with ⟨stack, -, rfl⟩
  rfl

theorem Twins.machine (twins : engine.Twins pairs twin) (joins : pairs.Joins before other) :
    (engine.machine before).Twins pairs (twin.machine other) := by
  rcases twins with ⟨stack, twins, rfl⟩
  exact ⟨twins, rfl, rfl, rfl, rfl, joins⟩

theorem Twins.withMachine {later : Pairing} {machine partner : Machine}
    (twins : engine.Twins pairs twin) (machines : machine.Twins later partner) :
    (engine.withMachine machine).Twins later (twin.withMachine partner) := by
  rcases twins with ⟨stack, twins, rfl⟩
  refine ⟨partner.stack, machines.stack, ?_⟩
  simp only [Engine.withMachine, machines.ip, machines.base, machines.depth, machines.debugStack]

theorem Twins.event (twins : engine.Twins pairs twin) (kind : TelemetryKind)
    (detail : Option String) : engine.event kind detail = twin.event kind detail := by
  rcases twins with ⟨stack, twins, rfl⟩
  simp only [Engine.event, ValueStack.size, twins.size]

/-- What a run of instructions has come to, for two machines. -/
structure Alike (pairs : Pairing) (before : Store)
    (first second : TurnOutcome × Machine × List String) : Prop where
  goesOn : ∃ later, pairs.Later later before first.2.1.store ∧ first.2.1.Twins later second.2.1 ∧
    first.1.Twins later second.1
  trace : first.2.2 = second.2.2

/-- A run of instructions is alike. The induction is on the bound, one instruction at a time. -/
theorem execute_alike {surroundings : Surroundings} (globals : surroundings.program.globals = [])
    (host : surroundings.registry.Pure) (traced : Option String) (bound : Nat)
    {machine partner : Machine} (trace : List String) (twins : machine.Twins pairs partner) :
    Alike pairs machine.store (execute surroundings traced bound machine trace)
      (execute surroundings traced bound partner trace) := by
  induction bound generalizing pairs machine partner trace with
  | zero => exact ⟨⟨pairs, .refl, twins, .unfinished⟩, rfl⟩
  | succ bound ih =>
      have line (entry : String) (instruction : Instruction) :
          traceLine entry machine instruction = traceLine entry partner instruction := by
        simp only [traceLine, twins.debugStack, twins.ip]
      rw [execute, execute]
      simp only [twins.ip]
      split
      · rw [twins.debugStack]
        exact ⟨⟨pairs, .refl, twins, .faulted⟩, rfl⟩
      · rename_i instruction found
        have moved : Machine.Twins pairs { machine with ip := partner.ip + 1 }
            { partner with ip := partner.ip + 1 } :=
          ⟨twins.stack, rfl, twins.base, twins.depth, twins.debugStack, twins.joins⟩
        rcases Step.InStep.step globals host instruction _ _ moved with
          ⟨later, goesOn, twinsLater, results⟩
        simp only [line]
        generalize (step surroundings instruction).run { machine with ip := partner.ip + 1 } =
          result at goesOn twinsLater results
        generalize (step surroundings instruction).run { partner with ip := partner.ip + 1 } =
          resultTwin at twinsLater results
        rcases result with ⟨result, after⟩
        rcases resultTwin with ⟨resultTwin, afterTwin⟩
        cases results with
        | error =>
            have context : after.debugStack = afterTwin.debugStack := twinsLater.debugStack
            simp only [context]
            exact ⟨⟨later, goesOn, twinsLater, .faulted⟩, rfl⟩
        | ok related =>
            cases related with
            | next =>
                rcases ih _ twinsLater with ⟨⟨latest, goesOnLater, twinsLatest, outcomes⟩, traces⟩
                exact ⟨⟨latest, goesOn.trans goesOnLater, twinsLatest, outcomes⟩, traces⟩
            | yielded values => exact ⟨⟨later, goesOn, twinsLater, .yielded values⟩, rfl⟩
            | completed values => exact ⟨⟨later, goesOn, twinsLater, .completed values⟩, rfl⟩

theorem Twins.turnOf {events : List TelemetryEvent}
    {result resultTwin : TurnOutcome × Machine × List String} (twins : engine.Twins pairs twin)
    (alike : Alike pairs before result resultTwin) :
    Turn.InStep pairs before (engine.turnOf events result) (twin.turnOf events resultTwin) := by
  rcases alike with ⟨⟨later, goesOn, machines, outcomes⟩, traces⟩
  rcases result with ⟨outcome, machine, trace⟩
  rcases resultTwin with ⟨outcomeTwin, partner, traceTwin⟩
  cases traces
  rcases twins.withMachine machines with ⟨stack, tops, same⟩
  refine ⟨later, ?_⟩
  unfold Engine.turnOf
  rw [same]
  cases outcomes with
  | yielded values =>
      refine ⟨goesOn, .yielded values, ⟨stack, tops, rfl⟩, machines.joins, ?_, rfl⟩
      simp only [Engine.event, ValueStack.size, tops.size]
  | completed values =>
      refine ⟨goesOn, .completed values, ⟨stack, tops, rfl⟩, machines.joins, ?_, rfl⟩
      simp only [Engine.event, ValueStack.size, tops.size]
  | faulted =>
      refine ⟨goesOn, .faulted, ⟨stack, tops, rfl⟩, machines.joins, ?_, rfl⟩
      simp only [Engine.event, ValueStack.size, tops.size]
  | unfinished => exact ⟨goesOn, .unfinished, ⟨stack, tops, rfl⟩, machines.joins, rfl, rfl⟩

theorem Twins.run (twins : engine.Twins pairs twin) (globals : engine.program.globals = [])
    (host : registry.Pure) (joins : pairs.Joins before other) (bound : Nat)
    (events : List TelemetryEvent) :
    Turn.InStep pairs before (engine.run bound registry before events)
      (twin.run bound registry other events) := by
  have machines := twins.machine joins
  rw [run_eq_turnOf, run_eq_turnOf]
  refine twins.turnOf ?_
  rcases twins with ⟨stack, -, rfl⟩
  exact @execute_alike _ ⟨engine.program, registry⟩ globals host _ bound _ _ [] machines

theorem Twins.refuse (twins : engine.Twins pairs twin) (joins : pairs.Joins before other) :
    Turn.InStep pairs before (engine.refuse before) (twin.refuse other) := by
  rcases twins with ⟨stack, twins, rfl⟩
  exact ⟨pairs, .refl, .faulted, ⟨stack, twins, rfl⟩, joins, rfl, rfl⟩

theorem Twins.withState (twins : engine.Twins pairs twin) (state : EngineState) :
    Twins pairs { engine with state } { twin with state } := by
  rcases twins with ⟨stack, twins, rfl⟩
  exact ⟨stack, twins, rfl⟩

theorem Twins.withEntry (twins : engine.Twins pairs twin) (entry : String) :
    Twins pairs { engine with entry } { twin with entry } := by
  rcases twins with ⟨stack, twins, rfl⟩
  exact ⟨stack, twins, rfl⟩

/-- The first turn of an engine is alike, from what setting up its first frame came to. -/
theorem Twins.firstTurn {later : Pairing} (twins : engine.Twins pairs twin)
    (globals : engine.program.globals = []) (host : registry.Pure) (bound : Nat)
    {result resultTwin : Except RuntimeFault Unit × Machine}
    (goesOn : pairs.Later later before result.2.store)
    (machines : result.2.Twins later resultTwin.2)
    (results : SameResult Eq result.1 resultTwin.1) :
    Turn.InStep pairs before (engine.firstTurn bound registry result)
      (twin.firstTurn bound registry resultTwin) := by
  rcases result with ⟨result, machine⟩
  rcases resultTwin with ⟨resultTwin, partner⟩
  cases results with
  | error =>
      have entered := (twins.withMachine machines).withState .faulted
      exact ⟨later, goesOn, .faulted, entered, machines.joins,
        congrArg (fun event => [event]) (entered.event _ _), rfl⟩
  | ok same =>
      have entered := (twins.withMachine machines).withState .running
      rcases entered.run globals host machines.joins bound
        [({ engine.withMachine machine with state := .running } : Engine).event .started none] with
        ⟨latest, goesOnLater, turns⟩
      refine ⟨latest, goesOn.trans goesOnLater, ?_⟩
      rw [entered.event] at turns
      rw [Engine.firstTurn, Engine.firstTurn, entered.event]
      exact turns

end Engine

/-- Calls that are the same up to what their arguments refer to. -/
inductive EngineCall.Twins (pairs : Pairing) (registry : Registry) : EngineCall → EngineCall → Prop
  | start {before other : Store} {args twins : List Value} (bound : Nat) (path : List String)
      (name : String) (joins : pairs.Joins before other)
      (related : List.Forall₂ (Value.Twins pairs) args twins) :
      Twins pairs registry (.start bound registry before path name args)
        (.start bound registry other path name twins)
  | resume {before other : Store} (bound : Nat) (joins : pairs.Joins before other) :
      Twins pairs registry (.resume bound registry before) (.resume bound registry other)

namespace Engine

variable {pairs : Pairing} {registry : Registry} {engine twin : Engine}

/-- A call is answered alike: it is refused by both engines, or it is a turn of both. -/
theorem Twins.turn (twins : engine.Twins pairs twin) (globals : engine.program.globals = [])
    (host : registry.Pure) {call callTwin : EngineCall}
    (calls : EngineCall.Twins pairs registry call callTwin) :
    Turn.InStep pairs call.store (call.turn engine) (callTwin.turn twin) := by
  have state := twins.state
  by_cases permitted : call.Permitted engine.state
  · cases calls with
    | start bound path name joins related =>
        rcases @Step.InStep.enter _ ⟨engine.program, registry⟩ globals (qualifiedName path name)
          path name _ _ related _ _ (twins.machine joins) with ⟨later, goesOn, machines, results⟩
        have named := twins.withEntry (qualifiedName path name)
        have turns := named.firstTurn globals host bound goesOn machines results
        simp only [EngineCall.turn]
        rw [start_of_ready permitted, start_of_ready (state ▸ permitted)]
        rw [← twins.program] at turns ⊢
        exact turns
    | resume bound joins =>
        have woken := twins.withState .running
        have turns := woken.run globals host joins bound
          [({ engine with state := .running } : Engine).event .resumed none]
        simp only [EngineCall.turn]
        rw [resume_of_suspended permitted, resume_of_suspended (state ▸ permitted), ← woken.event]
        exact turns
  · have permittedTwin : ¬callTwin.Permitted twin.state := by
      rw [← state]
      cases calls <;> exact permitted
    rw [turn_of_not_permitted permitted, turn_of_not_permitted permittedTwin]
    cases calls with
    | start _ _ _ joins => exact twins.refuse joins
    | resume _ joins => exact twins.refuse joins

end Engine

end ScriptMachine
