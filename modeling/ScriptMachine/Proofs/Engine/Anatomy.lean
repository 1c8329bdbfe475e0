import ScriptMachine.Proofs.Engine.Steps

/-!
# What steps are made of

Every instruction is made of a few operations on the stack and the frames, and of effects on the
store, one behind the other. A property of actions that holds of those and is kept by putting actions
in sequence holds of every instruction. So what is known of all instructions is proved of the parts
alone, and nobody has to go through the instructions for it again.
-/

namespace ScriptMachine

namespace Effect

/-- Looks something up in the store. -/
def read {α : Type} (look : Store → α) : Effect α := fun store => (.ok (look store), store)

/-- The effects that a program has on the store, one instruction at a time. -/
inductive Used (surroundings : Surroundings) : {α : Type} → Effect α → Prop
  | typeName (value : Value) : Used surroundings (read value.typeName)
  | captures (id : ClosureId) : Used surroundings (read fun store => (store.closure id).captures)
  | current (id : IteratorId) : Used surroundings (read fun store => (store.iterator id).current)
  | global (name : String) :
      Used surroundings (read fun store => surroundings.registry.global? store name)
  | storeGlobal (name : Option String) (value : Value) :
      Used surroundings (storeGlobal surroundings.registry name value)
  | binary (operator : BinaryOp) (left right : Value) :
      Used surroundings (binary surroundings.registry operator left right)
  | unary (operator : UnaryOp) (operand : Value) : Used surroundings (unary operator operand)
  | callNamed (name : String) (binding : Option HostFunctionRef) (args : List Value) :
      Used surroundings (callNamed surroundings.registry name binding args)
  | callStatic (typeName name : String) (args : List Value) :
      Used surroundings (callStatic surroundings.registry typeName name args)
  | loadStatic (typeName name : String) :
      Used surroundings (loadStatic surroundings.registry typeName name)
  | callMember (receiver : Value) (name : String) (args : List Value) :
      Used surroundings (callMember surroundings.registry receiver name args)
  | resolveClosure (id : ClosureId) (argc : Nat) :
      Used surroundings (resolveClosure surroundings.program id argc)
  | makeClosure (function : FunctionRef) (captures : ArrayId) :
      Used surroundings (makeClosure function captures)
  | loadField (target : Value) (name : String) :
      Used surroundings (loadField surroundings.registry target name)
  | storeField (target : Value) (name : String) (value : Value) :
      Used surroundings (storeField surroundings.registry target name value)
  | loadIndex (target index : Value) :
      Used surroundings (loadIndex surroundings.registry target index)
  | storeIndex (target index value : Value) :
      Used surroundings (storeIndex surroundings.registry target index value)
  | makeArray (items : List Value) : Used surroundings (makeArray items)
  | toIterator (value : Value) : Used surroundings value.toIterator
  | moveNext (id : IteratorId) : Used surroundings (moveNext id)

end Effect

namespace Engine

/-- What the engine does with the value found for a global, before it goes on. -/
def pushGlobal (name : String) (onward : Step Unit) : Option Value → Step Unit
  | some value => Step.push value >>= fun _ => onward
  | none => (MonadExcept.throw (.globalNotFound name) : Step Unit) >>= fun _ => onward

theorem pushGlobals_cons (registry : Registry) (name : String) (rest : List String) :
    pushGlobals registry (name :: rest) = (do
      let store ← Step.store
      pushGlobal name (pushGlobals registry rest) (registry.global? store name)) := rfl

end Engine

namespace Step

/-! ## Actions that are an effect -/

section Equations

variable {α : Type} {registry : Registry} {surroundings : Surroundings} {first second : Step α}

/-- Actions that run alike are the same. -/
theorem ext_run (same : ∀ machine, first.run machine = second.run machine) : first = second :=
  funext same

theorem callHost_eq (name : String) (candidates : List HostFunction) (args : List Value) :
    callHost registry name candidates args =
      onStore (Effect.callHost registry name candidates args) >>= push :=
  ext_run fun _ => run_callHost name candidates args

theorem callNamed_bound {name : String} {binding : Option HostFunctionRef} {args : List Value}
    {function : HostFunction}
    (bound : (binding.bind fun reference =>
      registry.soleFunction? reference.name reference.signature) = some function) :
    callHost registry name [function] args =
      onStore (Effect.callNamed registry name binding args) >>= push := by
  rw [callHost_eq, Effect.callNamed, bound]

theorem callNamed_deferred {name : String} {binding : Option HostFunctionRef} {args : List Value}
    (free : (binding.bind fun reference =>
      registry.soleFunction? reference.name reference.signature) = none) :
    (store >>= fun now => invokeHost (registry.resolveFunction now name args)) =
      onStore (Effect.callNamed registry name binding args) >>= push := by
  refine ext_run fun machine => ?_
  rw [run_bind, run_store, Effect.callNamed, free]
  exact run_invokeHost fun now => registry.resolveFunction now name args

theorem step_callStatic_eq (typeName name : String) (argc : Nat) (bound : Bool) :
    step surroundings (.callStatic typeName name argc bound) =
      popMany argc >>= fun args =>
        (onStore (Effect.callStatic surroundings.registry typeName name args) >>= push) >>=
          fun _ => pure .next := by
  refine congrArg (popMany argc >>= ·) (funext fun args => ext_run fun machine => ?_)
  simp only [run_bind, run_lift, run_onStore, Effect.callStatic]
  cases accessibleType surroundings.registry typeName name with
  | error fault => rfl
  | ok type =>
      dsimp only
      cases type.staticOverloads name with
      | nil => rfl
      | cons first rest => simp only [run_callHost, run_bind, run_onStore]

theorem step_loadStatic_eq (typeName name : String) (bound : Bool) :
    step surroundings (.loadStatic typeName name bound) =
      (onStore (Effect.loadStatic surroundings.registry typeName name) >>= push) >>=
        fun _ => pure .next := by
  refine ext_run fun machine => ?_
  unfold step
  simp only [run_bind, run_lift, run_onStore, Effect.loadStatic]
  cases accessibleType surroundings.registry typeName name with
  | error fault => rfl
  | ok type =>
      dsimp only
      cases type.staticFields.find? name with
      | none => rfl
      | some value => simp only [run_bind]

theorem callMethod_eq (receiver : Value) (name : String) (args : List Value) :
    callMethod surroundings receiver name args =
      onStore (Effect.callMember surroundings.registry receiver name args) >>=
        finishMember surroundings.program args :=
  ext_run fun _ => run_callMethod surroundings receiver name args

theorem resolveClosure_eq (program : Program) (id : ClosureId) (argc : Nat) :
    resolveClosure program id argc = onStore (Effect.resolveClosure program id argc) :=
  ext_run fun _ => run_resolveClosure program id argc

theorem loadField_eq (target : Value) (name : String) :
    loadField registry target name = onStore (Effect.loadField registry target name) :=
  ext_run fun _ => run_loadField target name

theorem storeField_eq (target : Value) (name : String) (value : Value) :
    storeField registry target name value =
      onStore (Effect.storeField registry target name value) :=
  ext_run fun _ => run_storeField target name value

theorem loadIndex_eq (target index : Value) :
    loadIndex registry target index = onStore (Effect.loadIndex registry target index) >>= push :=
  ext_run fun _ => run_loadIndex target index

theorem storeIndex_eq (target index value : Value) :
    storeIndex registry target index value =
      onStore (Effect.storeIndex registry target index value) :=
  ext_run fun _ => run_storeIndex target index value

theorem binary_eq (operator : BinaryOp) (left right : Value) :
    Step.binary registry operator left right =
      onStore (Effect.binary registry operator left right) >>= push :=
  ext_run fun _ => run_binary operator left right

theorem unary_eq (operator : UnaryOp) (operand : Value) :
    Step.unary operator operand = onStore (Effect.unary operator operand) >>= push :=
  ext_run fun _ => run_unary operator operand

end Equations

/-! ## Rules -/

/-- A property of actions that holds of the parts of every instruction, and is kept by putting them
in sequence. -/
structure Rules (surroundings : Surroundings) (P : ∀ {α : Type}, Step α → Prop) : Prop where
  pure : ∀ {α : Type} (value : α), P (Pure.pure value : Step α)
  throw : ∀ {α : Type} (fault : RuntimeFault), P (MonadExcept.throw fault : Step α)
  bind : ∀ {α β : Type} {first : Step α} {next : α → Step β},
    P first → (∀ value, P (next value)) → P (first >>= next)
  push : ∀ value, P (Step.push value)
  pop : P Step.pop
  popMany : ∀ count, P (Step.popMany count)
  peek : P Step.peek
  slot : ∀ index, P (Step.slot index)
  setSlot : ∀ index value, P (Step.setSlot index value)
  stackSize : P Step.stackSize
  base : P Step.base
  jumpTo : ∀ target, P (Step.jumpTo target)
  enterCall : ∀ offset argc, P (Step.enterCall offset argc)
  returnFrom : ∀ params, P (Step.returnFrom params)
  pushDebug : ∀ context, P (modify fun machine =>
    { machine with debugStack := context :: machine.debugStack } : Step Unit)
  popDebug : P (modify fun machine =>
    { machine with debugStack := machine.debugStack.tail } : Step Unit)
  openFrame : P (modify fun machine => { machine with base := machine.stack.size } : Step Unit)
  beginRun : ∀ offset,
    P (modify fun machine => { machine with depth := 1, ip := offset } : Step Unit)
  onStore : ∀ {α : Type} {effect : Effect α}, effect.Used surroundings → P (Step.onStore effect)

namespace Rules

variable {surroundings : Surroundings} {P : ∀ {α : Type}, Step α → Prop} {α β : Type}

theorem lift (rules : Rules surroundings P) (result : Except RuntimeFault α) :
    P (liftM result : Step α) := by
  cases result with
  | ok value => exact rules.pure value
  | error fault => exact rules.throw fault

theorem discard (rules : Rules surroundings P) {action : Step α} (holds : P action) :
    P (discard action) := by
  change P (Function.const α () <$> action)
  rw [map_eq_pure_bind]
  exact rules.bind holds fun _ => rules.pure _

theorem ite {condition : Prop} [Decidable condition] {yes no : Step α} (holdsYes : P yes)
    (holdsNo : P no) : P (if condition then yes else no) := by
  split
  · exact holdsYes
  · exact holdsNo

/-- An action that is refused on a condition. -/
theorem refused (rules : Rules surroundings P) {condition : Prop} [Decidable condition]
    {fault : RuntimeFault} {next : Unit → Step α} (holds : P (next ())) :
    P (if condition then (MonadExcept.throw fault : Step Unit) >>= next else next ()) :=
  ite (rules.bind (rules.throw fault) fun _ => holds) holds

/-- What is looked up in the store is an effect of its own. -/
theorem read (rules : Rules surroundings P) {look : Store → α} {next : α → Step β}
    (used : (Effect.read look).Used surroundings) (holds : ∀ value, P (next value)) :
    P (Step.store >>= fun store => next (look store)) := by
  have same : (Step.store >>= fun store => next (look store)) =
      Step.onStore (Effect.read look) >>= next := rfl
  rw [same]
  exact rules.bind (rules.onStore used) holds

theorem pushAll (rules : Rules surroundings P) (values : List Value) : P (Step.pushAll values) := by
  induction values with
  | nil => exact rules.pure ()
  | cons value rest ih => exact rules.bind (rules.push value) fun _ => ih

theorem pushUnits (rules : Rules surroundings P) (count : Nat) : P (Step.pushUnits count) := by
  induction count with
  | zero => exact rules.pure ()
  | succ count ih => exact rules.bind (rules.push .unit) fun _ => ih

/-- The value of an effect is left on the stack. -/
theorem deliver (rules : Rules surroundings P) {effect : Effect Value}
    (used : effect.Used surroundings) : P (Step.onStore effect >>= Step.push) :=
  rules.bind (rules.onStore used) rules.push

theorem popIterator (rules : Rules surroundings P) (mnemonic : String) :
    P (Step.popIterator mnemonic) := by
  refine rules.bind rules.pop fun value => ?_
  cases value with
  | iterator id => exact rules.pure id
  | _ => exact rules.throw _

theorem resolveFunction (rules : Rules surroundings P) (function : FunctionRef) (argc : Nat) :
    P (Step.resolveFunction surroundings.program function argc) := by
  unfold Step.resolveFunction
  split
  · exact rules.lift _
  · exact rules.throw _

theorem resolveClosure (rules : Rules surroundings P) (id : ClosureId) (argc : Nat) :
    P (Step.resolveClosure surroundings.program id argc) := by
  rw [resolveClosure_eq]
  exact rules.onStore (.resolveClosure id argc)

theorem callClosure (rules : Rules surroundings P) (id : ClosureId) (args : List Value) :
    P (Step.callClosure surroundings.program id args) := by
  refine rules.bind (rules.resolveClosure id _) fun offset => ?_
  have enters (captures : ArrayId) := rules.bind (rules.push (.array captures)) fun _ =>
    rules.bind (rules.pushAll args) fun _ => rules.enterCall offset (args.length + 1)
  exact rules.read (.captures id) enters

theorem callMethod (rules : Rules surroundings P) (receiver : Value) (name : String)
    (args : List Value) : P (Step.callMethod surroundings receiver name args) := by
  rw [callMethod_eq]
  refine rules.bind (rules.onStore (.callMember receiver name args)) fun member => ?_
  cases member with
  | value value => exact rules.push value
  | closure id => exact rules.callClosure id args

theorem typeName (rules : Rules surroundings P) (value : Value) : P (Step.typeName value) :=
  rules.onStore (.typeName value)

/-- What holds of the parts holds of every instruction. -/
theorem step (rules : Rules surroundings P) (instruction : Instruction) :
    P (step surroundings instruction) := by
  have next (action : Step Unit) (holds : P action) : P (action >>= fun _ => Pure.pure Control.next) :=
    rules.bind holds fun _ => rules.pure _
  cases instruction with
  | nop => exact rules.pure _
  | pushConst constant => exact next _ (rules.push _)
  | loadLocal index =>
      refine rules.bind rules.base fun base => rules.bind (rules.slot _) fun value => ?_
      exact next _ (rules.push value)
  | storeLocal index =>
      refine rules.bind rules.pop fun value => rules.bind rules.base fun base => ?_
      exact next _ (rules.setSlot _ value)
  | loadGlobal index =>
      exact rules.bind (rules.slot index) fun value => next _ (rules.push value)
  | storeGlobal index =>
      refine rules.bind rules.pop fun value => ?_
      simp only
      split
      · rename_i name _
        exact rules.bind (rules.onStore (.storeGlobal (some name) value)) fun _ =>
          next _ (rules.setSlot index value)
      · exact next _ (rules.setSlot index value)
  | pop => exact next _ (rules.discard rules.pop)
  | binary operator =>
      refine rules.bind rules.pop fun right => rules.bind rules.pop fun left => next _ ?_
      rw [binary_eq]
      exact rules.deliver (.binary operator left right)
  | unary operator =>
      refine rules.bind rules.pop fun operand => next _ ?_
      rw [unary_eq]
      exact rules.deliver (.unary operator operand)
  | jump target => exact next _ (rules.jumpTo target)
  | jumpIfFalse target =>
      refine rules.bind rules.pop fun value => ite (rules.pure _) ?_
      exact next _ (rules.jumpTo target)
  | jumpIfFalseKeep target =>
      refine rules.bind rules.peek fun value => ite ?_ ?_
      · exact next _ (rules.discard rules.pop)
      · exact next _ (rules.jumpTo target)
  | jumpIfTrueKeep target =>
      refine rules.bind rules.peek fun value => ite ?_ ?_
      · exact next _ (rules.jumpTo target)
      · exact next _ (rules.discard rules.pop)
  | callFunction function argc =>
      refine rules.bind (rules.resolveFunction function argc) fun offset => ?_
      exact next _ (rules.enterCall offset argc)
  | callHost name argc binding =>
      refine rules.bind (rules.popMany argc) fun args => ?_
      simp only
      split
      · rename_i function bound
        rw [callNamed_bound bound]
        exact next _ (rules.deliver (.callNamed name binding args))
      · rename_i free
        have called := next _ (rules.deliver (.callNamed name binding args))
        rw [← callNamed_deferred free] at called
        exact called
  | callMethod name argc =>
      refine rules.bind (rules.popMany argc) fun args => rules.bind rules.pop fun receiver => ?_
      exact next _ (rules.callMethod receiver name args)
  | callStatic typeName name argc bound =>
      rw [step_callStatic_eq]
      refine rules.bind (rules.popMany argc) fun args => ?_
      exact next _ (rules.deliver (.callStatic typeName name args))
  | invokeClosure argc =>
      refine rules.bind rules.stackSize fun size => rules.refused ?_
      refine rules.bind (rules.slot _) fun callee => ?_
      cases callee with
      | closure id =>
          have enters (captures : ArrayId) :=
            rules.bind (rules.setSlot (size - (argc + 1)) (.array captures)) fun _ =>
              rules.bind (rules.resolveClosure id (argc + 1)) fun offset =>
                next _ (rules.enterCall offset (argc + 1))
          exact rules.read (.captures id) enters
      | _ =>
          refine rules.bind (rules.typeName _) fun name => ?_
          exact next _ (rules.throw _)
  | makeClosure function =>
      refine rules.bind rules.pop fun value => ?_
      cases value with
      | array captures =>
          exact rules.bind (rules.onStore (.makeClosure function captures)) fun id =>
            next _ (rules.push (.closure id))
      | _ =>
          refine rules.bind (rules.typeName _) fun name => ?_
          exact next _ (rules.throw _)
  | loadField name =>
      refine rules.bind rules.pop fun target => ?_
      rw [loadField_eq]
      exact rules.bind (rules.onStore (.loadField target name)) fun value =>
        next _ (rules.push value)
  | storeField name =>
      refine rules.bind rules.pop fun value => rules.bind rules.pop fun target => next _ ?_
      rw [storeField_eq]
      exact rules.onStore (.storeField target name value)
  | loadStatic typeName name bound =>
      rw [step_loadStatic_eq]
      exact next _ (rules.deliver (.loadStatic typeName name))
  | loadIndex =>
      refine rules.bind rules.pop fun index => rules.bind rules.pop fun target => next _ ?_
      rw [loadIndex_eq]
      exact rules.deliver (.loadIndex target index)
  | storeIndex =>
      refine rules.bind rules.pop fun value => rules.bind rules.pop fun index => ?_
      refine rules.bind rules.pop fun target => next _ ?_
      rw [storeIndex_eq]
      exact rules.onStore (.storeIndex target index value)
  | makeArray count =>
      refine rules.bind (rules.popMany count) fun items => ?_
      exact rules.bind (rules.onStore (.makeArray items)) fun id => next _ (rules.push (.array id))
  | getIterator =>
      refine rules.bind rules.pop fun value => ?_
      exact rules.bind (rules.onStore (.toIterator value)) fun iterator =>
        next _ (rules.push iterator)
  | iterMoveNext =>
      refine rules.bind (rules.popIterator _) fun id => ?_
      exact rules.bind (rules.onStore (.moveNext id)) fun advanced =>
        next _ (rules.push (.bool advanced))
  | iterCurrent =>
      refine rules.bind (rules.popIterator _) fun id => ?_
      exact rules.read (.current id) fun value => next _ (rules.push value)
  | yieldValue => exact rules.bind rules.pop fun value => rules.pure _
  | returnValue params => exact rules.returnFrom params
  | allocFrame locals => exact next _ (rules.pushUnits locals)
  | checkStep =>
      refine rules.bind rules.peek fun value => ?_
      cases value with
      | int value => exact rules.refused (rules.pure _)
      | float value => exact rules.refused (rules.pure _)
      | _ => exact rules.pure _
  | pushDebug context => exact next _ (rules.pushDebug context)
  | popDebug => exact next _ rules.popDebug

theorem pushGlobals (rules : Rules surroundings P) (names : List String) :
    P (Engine.pushGlobals surroundings.registry names) := by
  induction names with
  | nil => exact rules.pure ()
  | cons name rest ih =>
      rw [Engine.pushGlobals_cons]
      refine rules.read (.global name) fun found => ?_
      cases found with
      | some value => exact rules.bind (rules.push value) fun _ => ih
      | none => exact rules.bind (rules.throw _) fun _ => ih

/-- What holds of the parts holds of setting up the first frame. -/
theorem enter (rules : Rules surroundings P) (entry : String) (path : List String) (name : String)
    (args : List Value) : P (Engine.enter surroundings entry path name args) := by
  unfold Engine.enter
  split
  · exact rules.throw _
  · rename_i function _
    refine rules.refused (rules.bind (rules.pushGlobals _) fun _ => ?_)
    refine rules.bind rules.openFrame fun _ => rules.bind (rules.pushAll args) fun _ => ?_
    refine rules.bind (rules.push _) fun _ => rules.bind (rules.push _) fun _ => ?_
    exact rules.beginRun function.offset

end Rules

/-! ## Actions that leave the store alone -/

/-- An action that does not look at the store and does not change it. -/
def Blind {α : Type} (action : Step α) : Prop :=
  ∀ (machine : Machine) (store : Store), action.run { machine with store := store } =
    ((action.run machine).1, { (action.run machine).2 with store := store })

namespace Blind

variable {α β : Type} {surroundings : Surroundings} {P : ∀ {α : Type}, Step α → Prop}

theorem keeps {action : Step α} (blind : Blind action) (machine : Machine) :
    (action.run machine).2.store = machine.store :=
  congrArg (fun result => result.2.store) (blind machine machine.store)

theorem pure (value : α) : Blind (Pure.pure value : Step α) := fun _ _ => rfl

theorem throw (fault : RuntimeFault) : Blind (MonadExcept.throw fault : Step α) := fun _ _ => rfl

theorem lift (result : Except RuntimeFault α) : Blind (liftM result : Step α) := fun _ _ => rfl

theorem onStack (operation : ValueStack → StackResult α) : Blind (Step.onStack operation) :=
  fun _ _ => rfl

theorem bind {first : Step α} {next : α → Step β} (blind : Blind first)
    (blindNext : ∀ value, Blind (next value)) : Blind (first >>= next) := by
  intro machine store
  rw [run_bind, run_bind, blind machine store]
  rcases first.run machine with ⟨fault | value, middle⟩
  · rfl
  · exact blindNext value middle store

/-- Looking at the machine, but not at the store. -/
theorem get {next : Machine → Step β} (blind : ∀ machine, Blind (next machine))
    (same : ∀ (machine : Machine) (store : Store),
      next { machine with store := store } = next machine) : Blind (get >>= next) := by
  intro machine store
  rw [run_bind, run_bind, run_get, run_get]
  simp only [same]
  exact blind machine machine store

theorem pushUnits (count : Nat) : Blind (Step.pushUnits count) := by
  induction count with
  | zero => exact pure ()
  | succ count ih => exact bind (onStack _) fun _ => ih

theorem enterCall (offset argc : Nat) : Blind (Step.enterCall offset argc) := by
  refine bind (fun _ _ => rfl) fun size => Rules.ite (bind (throw _) fun _ => ?_) ?_
  all_goals
    refine get (fun machine => ?_) fun _ _ => rfl
    exact bind (onStack _) fun _ => bind (onStack _) fun _ _ _ => rfl

theorem returnFrom (params : Nat) : Blind (Step.returnFrom params) := by
  refine bind (onStack _) fun value => bind (fun _ _ => rfl) fun base => ?_
  refine bind (onStack _) fun _ => bind (lift _) fun savedBase => ?_
  refine bind (onStack _) fun _ => bind (lift _) fun returnIp => ?_
  refine bind (fun _ _ => rfl) fun _ => bind (onStack _) fun _ => ?_
  refine get (fun machine => ?_) fun _ _ => rfl
  exact Rules.ite (pure _) (bind (fun _ _ => rfl) fun _ => pure _)

/-- A property of all actions that leave the store alone and of all effects in use. -/
theorem rules (blind : ∀ {α : Type} {action : Step α}, Blind action → P action)
    (sequence : ∀ {α β : Type} {first : Step α} {next : α → Step β},
      P first → (∀ value, P (next value)) → P (first >>= next))
    (effects : ∀ {α : Type} {effect : Effect α},
      effect.Used surroundings → P (Step.onStore effect)) : Rules surroundings P where
  pure value := blind (pure value)
  throw fault := blind (throw fault)
  bind := sequence
  push _ := blind (onStack _)
  pop := blind (onStack _)
  popMany _ := blind (onStack _)
  peek := blind (onStack _)
  slot _ := blind (onStack _)
  setSlot _ _ := blind (onStack _)
  stackSize := blind fun _ _ => rfl
  base := blind fun _ _ => rfl
  jumpTo _ := blind fun _ _ => rfl
  enterCall offset argc := blind (enterCall offset argc)
  returnFrom params := blind (returnFrom params)
  pushDebug _ := blind fun _ _ => rfl
  popDebug := blind fun _ _ => rfl
  openFrame := blind fun _ _ => rfl
  beginRun _ := blind fun _ _ => rfl
  onStore := effects

end Blind

end Step

end ScriptMachine
