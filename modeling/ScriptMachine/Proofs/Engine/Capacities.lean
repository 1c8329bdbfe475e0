import ScriptMachine.Proofs.Engine.Anatomy

/-!
# The capacity of the stack

An engine looks at the capacity of its stack only where it pushes. So what it does on a stack is what
it does on a larger one, unless it faults because the stack is full.
-/

namespace ScriptMachine

/-- The machine with another capacity of the stack. -/
def Machine.withCapacity (machine : Machine) (capacity : Nat) : Machine :=
  { machine with stack := { machine.stack with capacity := capacity } }

namespace Step

/-- An action does the same with more room, unless it has not room enough. -/
def Scales {α : Type} (action : Step α) : Prop :=
  ∀ machine larger, machine.stack.capacity ≤ larger →
    (action.run machine).2.stack.capacity = machine.stack.capacity ∧
      ((action.run machine).1 = .error (.stackOverflow machine.stack.capacity) ∨
        action.run (machine.withCapacity larger) =
          ((action.run machine).1, (action.run machine).2.withCapacity larger))

namespace Scales

variable {α β : Type}

theorem pure (value : α) : (pure value : Step α).Scales :=
  fun _ _ _ => ⟨rfl, .inr rfl⟩

theorem throw (fault : RuntimeFault) : (throw fault : Step α).Scales :=
  fun _ _ _ => ⟨rfl, .inr rfl⟩

theorem lift (result : Except RuntimeFault α) : (liftM result : Step α).Scales :=
  fun _ _ _ => ⟨rfl, .inr rfl⟩

theorem bind {first : Step α} {next : α → Step β} (scales : first.Scales)
    (scalesNext : ∀ value, (next value).Scales) : (first >>= next).Scales := by
  intro machine larger more
  rcases scales machine larger more with ⟨kept, same⟩
  rw [run_bind, run_bind]
  rcases ran : first.run machine with ⟨result, middle⟩
  rw [ran] at kept same
  simp only at kept same
  cases result with
  | error fault =>
      refine ⟨kept, ?_⟩
      rcases same with overflow | same
      · cases overflow
        exact .inl rfl
      · exact .inr (by rw [same])
  | ok value =>
      rcases same with overflow | same
      · cases overflow
      · rw [same, ← kept]
        exact scalesNext value middle larger (kept ▸ more)

theorem onStore (effect : Effect α) : (Step.onStore effect).Scales :=
  fun _ _ _ => ⟨rfl, .inr rfl⟩

/-- An operation that does not look at the capacity. -/
theorem onStack {operation : ValueStack → StackResult α}
    (blind : ∀ stack capacity, operation { stack with capacity := capacity } =
      ((operation stack).1, { (operation stack).2 with capacity := capacity })) :
    (Step.onStack operation).Scales := by
  intro machine larger _
  have own := blind machine.stack machine.stack.capacity
  refine ⟨?_, .inr ?_⟩
  · exact congrArg (fun result => result.2.capacity) own
  · simp only [run_onStack, Machine.withCapacity, blind machine.stack larger]

theorem modify {change : Machine → Machine}
    (keeps : ∀ machine, (change machine).stack.capacity = machine.stack.capacity)
    (blind : ∀ machine capacity,
      change (machine.withCapacity capacity) = (change machine).withCapacity capacity) :
    (modify change : Step Unit).Scales := by
  intro machine larger _
  refine ⟨keeps machine, .inr ?_⟩
  rw [run_modify, run_modify, blind]

/-- An action that looks at the machine, but not at the capacity. -/
theorem get {next : Machine → Step β} (scales : ∀ machine, (next machine).Scales)
    (blind : ∀ machine capacity, next (machine.withCapacity capacity) = next machine) :
    (get >>= next).Scales := by
  intro machine larger more
  rw [run_bind, run_bind, run_get, run_get]
  simp only [blind]
  exact scales machine machine larger more

/-! ## The stack -/

theorem push (value : Value) : (Step.push value).Scales := by
  intro machine larger more
  simp only [Step.push, run_onStack, ValueStack.push]
  split
  · exact ⟨rfl, .inl rfl⟩
  · rename_i room
    refine ⟨rfl, .inr ?_⟩
    have roomLarger : ¬larger ≤ machine.stack.items.size := by omega
    simp [Machine.withCapacity, roomLarger]

theorem pop : Step.pop.Scales := by
  refine onStack fun stack capacity => ?_
  simp only [ValueStack.pop]
  cases stack.items.back? <;> rfl

theorem popMany (count : Nat) : (Step.popMany count).Scales := by
  refine onStack fun stack capacity => ?_
  simp only [ValueStack.popMany]
  split <;> rfl

theorem peek : Step.peek.Scales := by
  refine onStack fun stack capacity => ?_
  simp only [ValueStack.peek]
  cases stack.items.back? <;> rfl

theorem slot (index : Nat) : (Step.slot index).Scales := by
  refine onStack fun stack capacity => ?_
  simp only [ValueStack.get]
  cases stack.items[index]? <;> rfl

theorem setSlot (index : Nat) (value : Value) : (Step.setSlot index value).Scales := by
  refine onStack fun stack capacity => ?_
  simp only [ValueStack.set]
  split <;> rfl

/-! ## Calls and returns -/

theorem enterCall (offset argc : Nat) : (Step.enterCall offset argc).Scales := by
  refine .bind (fun _ _ _ => ⟨rfl, .inr rfl⟩) fun size => Rules.ite (.bind (.throw _) fun _ => ?_) ?_
  all_goals
    refine .get (fun machine => ?_) fun machine capacity => rfl
    refine .bind (.push _) fun _ => .bind (.push _) fun _ => ?_
    exact .modify (fun _ => rfl) fun _ _ => rfl

theorem returnFrom (params : Nat) : (Step.returnFrom params).Scales := by
  refine .bind .pop fun value => .bind (fun _ _ _ => ⟨rfl, .inr rfl⟩) fun _ => ?_
  refine .bind (.slot _) fun _ => .bind (.lift _) fun savedBase => ?_
  refine .bind (.slot _) fun _ => .bind (.lift _) fun returnIp => ?_
  refine .bind (.modify (fun _ => rfl) fun _ _ => rfl) fun _ => .bind (.push _) fun _ => ?_
  refine .get (fun machine => ?_) fun machine capacity => rfl
  refine Rules.ite (.pure _) ?_
  exact .bind (.modify (fun _ => rfl) fun _ _ => rfl) fun _ => .pure _

theorem rules (surroundings : Surroundings) : Rules surroundings Scales where
  pure := pure
  throw := throw
  bind := bind
  push := push
  pop := pop
  popMany := popMany
  peek := peek
  slot := slot
  setSlot := setSlot
  stackSize _ _ _ := ⟨rfl, .inr rfl⟩
  base _ _ _ := ⟨rfl, .inr rfl⟩
  jumpTo _ _ _ _ := ⟨rfl, .inr rfl⟩
  enterCall := enterCall
  returnFrom := returnFrom
  pushDebug _ := modify (fun _ => rfl) fun _ _ => rfl
  popDebug := modify (fun _ => rfl) fun _ _ => rfl
  openFrame := modify (fun _ => rfl) fun _ _ => rfl
  beginRun _ := modify (fun _ => rfl) fun _ _ => rfl
  onStore _ := onStore _

end Scales

theorem scales (surroundings : Surroundings) (instruction : Instruction) :
    (step surroundings instruction).Scales := (Scales.rules surroundings).step instruction

theorem Scales.enter (surroundings : Surroundings) (entry : String) (path : List String)
    (name : String) (args : List Value) :
    (Engine.enter surroundings entry path name args).Scales :=
  (Scales.rules surroundings).enter entry path name args

end Step

end ScriptMachine
