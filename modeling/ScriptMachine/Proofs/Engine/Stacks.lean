import ScriptMachine.Proofs.Engine.Effects

/-!
# Steps on a stack of known values

A machine is considered with its stack spelled out as a list. The lemmas here compute the operations
of a step on such a machine, so that the steps of single instructions follow by rewriting.
-/

namespace ScriptMachine

namespace ValueStack

/-- The stack that holds given values, the lowest first. -/
def ofList (capacity : Nat) (values : List Value) : ValueStack := ⟨values.toArray, capacity⟩

variable {capacity slot : Nat} {values rest : List Value} {value : Value}

@[simp]
theorem toList_items_ofList : (ofList capacity values).items.toList = values := rfl

@[simp]
theorem size_ofList : (ofList capacity values).size = values.length := by
  simp [ofList, size]

theorem push_ofList (room : values.length < capacity) :
    push value (ofList capacity values) = (.ok (), ofList capacity (values ++ [value])) := by
  simp [push, ofList, Nat.not_le.mpr room]

theorem push_ofList_full (full : capacity ≤ values.length) :
    push value (ofList capacity values) =
      (.error (.stackOverflow capacity), ofList capacity values) := by
  simp [push, ofList, full]

@[simp]
theorem pop_ofList :
    pop (ofList capacity (values ++ [value])) = (.ok value, ofList capacity values) := by
  simp [pop, ofList]

@[simp]
theorem pop_ofList_nil : pop (ofList capacity []) = (.error underflow, ofList capacity []) := by
  simp [pop, ofList]

@[simp]
theorem peek_ofList :
    peek (ofList capacity (values ++ [value])) =
      (.ok value, ofList capacity (values ++ [value])) := by
  simp [peek, ofList]

theorem popMany_ofList (args : List Value) :
    popMany args.length (ofList capacity (values ++ args)) =
      (.ok args, ofList capacity values) := by
  simp [popMany, ofList]

theorem get_ofList (found : values[slot]? = some value) :
    get slot (ofList capacity values) = (.ok value, ofList capacity values) := by
  simp [get, ofList, found]

theorem set_ofList (inside : slot < values.length) :
    set slot value (ofList capacity values) =
      (.ok (), ofList capacity (values.set slot value)) := by
  simp [set, ofList, inside]

@[simp]
theorem truncate_ofList :
    truncate values.length (ofList capacity (values ++ rest)) = ofList capacity values := by
  simp [truncate, ofList]

end ValueStack

namespace Step

section Running

variable {α β : Type} {machine : Machine}

@[simp]
theorem run_bind (first : Step α) (next : α → Step β) :
    (first >>= next).run machine =
      match first.run machine with
      | (.ok value, later) => (next value).run later
      | (.error fault, later) => (.error fault, later) := by
  change (ExceptT.bindCont next (first.run machine).1 : StateM Machine _)
    (first.run machine).2 = _
  generalize first.run machine = result
  rcases result with ⟨_ | _, _⟩ <;> rfl

@[simp]
theorem run_map (change : α → β) (first : Step α) :
    (change <$> first).run machine =
      match first.run machine with
      | (.ok value, later) => (.ok (change value), later)
      | (.error fault, later) => (.error fault, later) := by
  rw [map_eq_pure_bind, run_bind]
  rfl

@[simp]
theorem run_discard (first : Step α) :
    (discard first).run machine =
      match first.run machine with
      | (.ok _, later) => (.ok (), later)
      | (.error fault, later) => (.error fault, later) :=
  run_map (Function.const α ()) first

@[simp]
theorem run_pure (value : α) : (pure value : Step α).run machine = (.ok value, machine) := rfl

@[simp]
theorem run_throw (fault : RuntimeFault) :
    (throw fault : Step α).run machine = (.error fault, machine) := rfl

@[simp]
theorem run_get : (get : Step Machine).run machine = (.ok machine, machine) := rfl

@[simp]
theorem run_modify (change : Machine → Machine) :
    (modify change : Step Unit).run machine = (.ok (), change machine) := rfl

@[simp]
theorem run_lift (result : Except RuntimeFault α) :
    (liftM result : Step α).run machine = (result, machine) := rfl

@[simp]
theorem run_onStack (operation : ValueStack → StackResult α) :
    (onStack operation).run machine =
      ((operation machine.stack).1, { machine with stack := (operation machine.stack).2 }) := rfl

@[simp]
theorem run_onStore (effect : Effect α) :
    (onStore effect).run machine =
      ((effect machine.store).1, { machine with store := (effect machine.store).2 }) := rfl

@[simp]
theorem run_store : store.run machine = (.ok machine.store, machine) := rfl

@[simp]
theorem run_base : base.run machine = (.ok machine.base, machine) := rfl

@[simp]
theorem run_stackSize : stackSize.run machine = (.ok machine.stack.size, machine) := rfl

@[simp]
theorem run_jumpTo (target : Nat) :
    (jumpTo target).run machine = (.ok (), { machine with ip := target }) := rfl

@[simp]
theorem run_typeName (value : Value) :
    (typeName value).run machine = (.ok (value.typeName machine.store), machine) := rfl

end Running

section Listed

variable {capacity slotIndex ip base depth : Nat} {values args : List Value} {value : Value}
  {debug : List DebugContext} {store : Store}

theorem run_push (room : values.length < capacity) :
    (push value).run ⟨.ofList capacity values, ip, base, depth, debug, store⟩ =
      (.ok (), ⟨.ofList capacity (values ++ [value]), ip, base, depth, debug, store⟩) := by
  rw [push, run_onStack, ValueStack.push_ofList room]

theorem run_push_full (full : capacity ≤ values.length) :
    (push value).run ⟨.ofList capacity values, ip, base, depth, debug, store⟩ =
      (.error (.stackOverflow capacity),
        ⟨.ofList capacity values, ip, base, depth, debug, store⟩) := by
  rw [push, run_onStack, ValueStack.push_ofList_full full]

@[simp]
theorem run_pop :
    pop.run ⟨.ofList capacity (values ++ [value]), ip, base, depth, debug, store⟩ =
      (.ok value, ⟨.ofList capacity values, ip, base, depth, debug, store⟩) := by
  rw [pop, run_onStack, ValueStack.pop_ofList]

@[simp]
theorem run_peek :
    peek.run ⟨.ofList capacity (values ++ [value]), ip, base, depth, debug, store⟩ =
      (.ok value, ⟨.ofList capacity (values ++ [value]), ip, base, depth, debug, store⟩) := by
  rw [peek, run_onStack, ValueStack.peek_ofList]

theorem run_popMany (args : List Value) :
    (popMany args.length).run
        ⟨.ofList capacity (values ++ args), ip, base, depth, debug, store⟩ =
      (.ok args, ⟨.ofList capacity values, ip, base, depth, debug, store⟩) := by
  rw [popMany, run_onStack, ValueStack.popMany_ofList]

theorem run_slot (found : values[slotIndex]? = some value) :
    (slot slotIndex).run ⟨.ofList capacity values, ip, base, depth, debug, store⟩ =
      (.ok value, ⟨.ofList capacity values, ip, base, depth, debug, store⟩) := by
  rw [slot, run_onStack, ValueStack.get_ofList found]

theorem run_setSlot (inside : slotIndex < values.length) :
    (setSlot slotIndex value).run ⟨.ofList capacity values, ip, base, depth, debug, store⟩ =
      (.ok (), ⟨.ofList capacity (values.set slotIndex value), ip, base, depth, debug, store⟩) := by
  rw [setSlot, run_onStack, ValueStack.set_ofList inside]

theorem run_pushAll (room : values.length + args.length ≤ capacity) :
    (pushAll args).run ⟨.ofList capacity values, ip, base, depth, debug, store⟩ =
      (.ok (), ⟨.ofList capacity (values ++ args), ip, base, depth, debug, store⟩) := by
  induction args generalizing values with
  | nil => simp [pushAll]
  | cons first rest ih =>
      rw [List.length_cons] at room
      have pushed := @ih (values ++ [first]) (by simp; omega)
      rw [pushAll, run_bind, run_push (by omega)]
      simpa using pushed

theorem run_pushUnits {count : Nat} (room : values.length + count ≤ capacity) :
    (pushUnits count).run ⟨.ofList capacity values, ip, base, depth, debug, store⟩ =
      (.ok (), ⟨.ofList capacity (values ++ List.replicate count .unit),
        ip, base, depth, debug, store⟩) := by
  induction count generalizing values with
  | zero => simp [pushUnits]
  | succ count ih =>
      have pushed := @ih (values ++ [.unit]) (by simp; omega)
      rw [pushUnits, run_bind, run_push (by omega), List.replicate_succ]
      simpa using pushed

end Listed

end Step

end ScriptMachine
