import ScriptMachine.Proofs.Simulation.Walks

/-!
# Runs with a host

Whenever a run yields, the host has a turn: it may do to the store what it likes before it resumes
the run, and it may resume it against another registry. A host is told here by what it does, which
depends on what has been yielded so far.
-/

namespace ScriptMachine

/-- A host: the registry that a run is started or resumed with, and what is done to the store
between a yield and the resumption. Both depend on the values yielded so far. -/
structure Host where
  registry : List Value → Registry
  act : List Value → Store → Store

namespace Host

/-- What a run is carried out in after so many yields. -/
def surroundings (host : Host) (program : Program) (seen : List Value) : Surroundings :=
  ⟨program, host.registry seen⟩

/-- A run from one machine to another. Beside each machine stands what has been yielded, and every
machine that is left on the way has a property. -/
inductive Walks (host : Host) (program : Program) (through : Machine → Prop) :
    Machine → List Value → Machine → List Value → Prop
  | stay {machine seen} : Walks host program through machine seen machine seen
  | next {machine middle later seen after} (here : through machine)
      (steps : (host.surroundings program seen).Steps machine (.ok .next, middle))
      (walks : Walks host program through middle seen later after) :
      Walks host program through machine seen later after
  | yields {machine middle later value seen after} (here : through machine)
      (steps : (host.surroundings program seen).Steps machine (.ok (.yielded value), middle))
      (walks : Walks host program through
        { middle with store := host.act (seen ++ [value]) middle.store } (seen ++ [value]) later
        after) :
      Walks host program through machine seen later after

/-- A host that brings no closure of another program in. -/
structure Sound (host : Host) (program : Program) : Prop where
  hosts : ∀ (seen : List Value) (store : Store), store.Sound program →
    (host.registry seen).Sound program store
  follows : ∀ (seen : List Value) (store : Store), store.Sound program →
    store.Follows program (host.act seen store)

variable {host : Host} {program : Program} {through wider : Machine → Prop}
  {machine middle later : Machine} {seen between after : List Value}

namespace Walks

theorem trans (first : host.Walks program through machine seen middle between)
    (second : host.Walks program through middle between later after) :
    host.Walks program through machine seen later after := by
  induction first with
  | stay => exact second
  | next here steps _ ih => exact .next here steps (ih second)
  | yields here steps _ ih => exact .yields here steps (ih second)

theorem mono (walks : host.Walks program through machine seen later after)
    (weaker : ∀ machine, through machine → wider machine) :
    host.Walks program wider machine seen later after := by
  induction walks with
  | stay => exact .stay
  | next here steps _ ih => exact .next (weaker _ here) steps ih
  | yields here steps _ ih => exact .yields (weaker _ here) steps ih

/-- What is left on the way, and the end of it. -/
theorem starts (walks : host.Walks program through machine seen later after) :
    through machine ∨ machine = later := by
  cases walks with
  | stay => exact .inr rfl
  | next here | yields here => exact .inl here

end Walks

/-! ## Machines of a run -/

section Machines

variable {chart : Chart} {capacity : Nat} (charted : program.Charted chart)
  (bounded : capacity ≤ twoTo 63) (small : program.size < twoTo 63) (sound : host.Sound program)

include charted bounded small sound

theorem proceeds_of_next (reached : Reached program capacity machine)
    (steps : (host.surroundings program seen).Steps machine (.ok .next, middle)) :
    Proceeds program machine middle := by
  rcases reached.tall charted bounded small with ⟨tower, _, holds⟩
  rcases steps with ⟨instruction, found, stepped⟩
  exact .next (sound.hosts seen _ holds.sound) found stepped

theorem proceeds_of_yielded {value : Value} (reached : Reached program capacity machine)
    (steps : (host.surroundings program seen).Steps machine (.ok (.yielded value), middle)) :
    Proceeds program machine
      { middle with store := host.act (seen ++ [value]) middle.store } := by
  rcases reached.tall charted bounded small with ⟨tower, tall⟩
  have hosts := sound.hosts seen _ tall.2.sound
  rcases tall.outcome charted bounded small hosts with ⟨instruction, found, outcome⟩
  rcases steps with ⟨_, same, stepped⟩
  cases found.symm.trans same
  change (step ⟨program, host.registry seen⟩ instruction).run _ = _ at stepped
  rw [stepped] at outcome
  cases outcome with
  | yields _ follows _ _ _ =>
      exact .resumed hosts found stepped (sound.follows _ _ follows.sound)

theorem Walks.reached (walks : host.Walks program through machine seen later after)
    (reached : Reached program capacity machine) : Reached program capacity later := by
  induction walks with
  | stay => exact reached
  | next _ steps _ ih =>
      exact ih (reached.proceed (proceeds_of_next charted bounded small sound reached steps))
  | yields _ steps _ ih =>
      exact ih (reached.proceed (proceeds_of_yielded charted bounded small sound reached steps))

end Machines

end Host

/-- The frame at a level is at work in a part of the code: the machine stands there, or higher
frames are running that were called from there. -/
def Machine.Within (low high level : Nat) (machine : Machine) : Prop :=
  level < machine.depth ∨ machine.depth = level ∧ low ≤ machine.ip ∧ machine.ip < high

theorem Machine.Within.widen {low high first last level : Nat} {machine : Machine}
    (within : machine.Within low high level) (lower : first ≤ low) (upper : high ≤ last) :
    machine.Within first last level := by
  rcases within with above | ⟨same, atLeast, below⟩
  · exact .inl above
  · exact .inr ⟨same, by omega, by omega⟩

instance (low high level : Nat) (machine : Machine) :
    Decidable (machine.Within low high level) :=
  inferInstanceAs (Decidable (_ ∨ _))

/-! ## Runs without yields -/

/-- Where a step leads if it does not end the turn. -/
def Surroundings.next? (surroundings : Surroundings) (machine : Machine) : Option Machine :=
  match surroundings.program.instructions[machine.ip]? with
  | none => none
  | some instruction =>
      match (step surroundings instruction).run { machine with ip := machine.ip + 1 } with
      | (.ok .next, later) => some later
      | _ => none

/-- All machines that a run comes through have a property, until it leaves a part of the code, which
it does within a bound and without a yield. -/
def Surroundings.always (surroundings : Surroundings) (through holds : Machine → Bool) :
    Nat → Machine → Bool
  | 0, machine => !through machine && holds machine
  | bound + 1, machine =>
      holds machine && (!through machine ||
        (surroundings.next? machine).any (surroundings.always through holds bound))

section

variable {surroundings : Surroundings} {machine later : Machine}

theorem Surroundings.next?_of_next (steps : surroundings.Steps machine (.ok .next, later)) :
    surroundings.next? machine = some later := by
  rcases steps with ⟨instruction, found, stepped⟩
  simp only [next?, found, stepped]

theorem Surroundings.next?_of_yielded {value : Value}
    (steps : surroundings.Steps machine (.ok (.yielded value), later)) :
    surroundings.next? machine = none := by
  rcases steps with ⟨instruction, found, stepped⟩
  simp only [next?, found, stepped]

end

/-- A host that does nothing but resume. -/
def Host.idle : Host := ⟨fun _ => .empty, fun _ store => store⟩

theorem Host.idle_sound {program : Program} : Host.idle.Sound program :=
  ⟨fun _ store _ => Sample.emptyRegistry store, fun _ _ sound => .refl sound⟩

/-- A step against a registry with nothing in it. -/
theorem Proceeds.plain {program : Program} {machine later : Machine} {instruction : Instruction}
    (found : program.instructions[machine.ip]? = some instruction)
    (stepped : (step ⟨program, .empty⟩ instruction).run { machine with ip := machine.ip + 1 } =
      (.ok .next, later)) : Proceeds program machine later :=
  .next (Sample.emptyRegistry _) found stepped

theorem Host.Walks.always {program : Program} {through holds : Machine → Bool}
    {machine later : Machine} {seen after : List Value} {bound : Nat}
    (walks : Host.idle.Walks program (fun machine => through machine = true) machine seen later
      after)
    (checked : Surroundings.always ⟨program, .empty⟩ through holds bound machine = true) :
    holds later = true := by
  induction walks generalizing bound with
  | stay =>
      cases bound <;> simp only [Surroundings.always, Bool.and_eq_true] at checked
      · exact checked.2
      · exact checked.1
  | next here steps rest ih =>
      cases bound with
      | zero => simp [Surroundings.always, here] at checked
      | succ bound =>
          have leads := Surroundings.next?_of_next steps
          change Surroundings.next? ⟨program, .empty⟩ _ = _ at leads
          simp only [Surroundings.always, here, leads, Bool.and_eq_true, Option.any_some,
            Bool.not_true, Bool.false_or] at checked
          exact ih checked.2
  | yields here steps rest ih =>
      have leads := Surroundings.next?_of_yielded steps
      change Surroundings.next? ⟨program, .empty⟩ _ = _ at leads
      cases bound <;> simp [Surroundings.always, here, leads] at checked

/-! ## Stepping a frame -/

/-- A step other than zero is checked and stays where it is. -/
theorem Surroundings.steps_checkStep {surroundings : Surroundings} {machine : Machine}
    {value : Value}
    (found : surroundings.program.instructions[machine.ip]? = some .checkStep)
    (top : machine.stack.items.back? = some value) (nonzero : value.isZeroStep = false) :
    surroundings.Steps machine (.ok .next, { machine with ip := machine.ip + 1 }) := by
  rcases machine with ⟨⟨⟨values⟩, capacity⟩, ip, base, depth, debug, store⟩
  rw [List.back?_toArray] at top
  rcases List.getLast?_eq_some_iff.mp top with ⟨front, rfl⟩
  exact ⟨_, found, step_checkStep.trans (by rw [nonzero]; rfl)⟩

/-- What a frame that is running stands on. -/
structure Footing where
  capacity : Nat
  /-- The stack below the frame. -/
  below : List Value
  depth : Nat
  debug : List DebugContext

namespace Footing

/-- The machine with a frame that has these slots and operands. -/
def machine (footing : Footing) (ip : Nat) (slots operands : List Value) (store : Store) :
    Machine :=
  ⟨.ofList footing.capacity (footing.below ++ slots ++ operands), ip, footing.below.length,
    footing.depth, footing.debug, store⟩

/-- There is room for one more operand above so many. -/
def Room (footing : Footing) (slots operands : List Value) : Prop :=
  (footing.below ++ slots ++ operands).length < footing.capacity

variable {footing : Footing} {surroundings : Surroundings} {ip slot target low high : Nat}
  {slots operands : List Value} {value left right : Value} {store later : Store}

theorem within (lower : low ≤ ip) (upper : ip < high) :
    (footing.machine ip slots operands store).Within low high footing.depth :=
  .inr ⟨rfl, lower, upper⟩

theorem Room.set (room : footing.Room slots operands) :
    footing.Room (slots.set slot value) operands := by
  simpa [Room] using room

theorem Room.of_snoc (room : footing.Room slots (operands ++ [value])) :
    footing.Room slots operands := by
  simp only [Room, List.length_append, List.length_singleton] at room ⊢
  omega

/-- There is room for two more operands. -/
theorem room_snoc (room : (footing.below ++ slots ++ operands).length + 2 ≤ footing.capacity)
    (value : Value) : footing.Room slots (operands ++ [value]) := by
  simp only [Room, List.length_append, List.length_singleton] at room ⊢
  omega

theorem getElem?_slot (found : slots[slot]? = some value) :
    (footing.below ++ slots ++ operands)[footing.below.length + slot]? = some value := by
  have inside := (List.getElem?_eq_some_iff.mp found).1
  rw [List.append_assoc, List.getElem?_append_right (Nat.le_add_right _ _),
    Nat.add_sub_cancel_left, List.getElem?_append_left inside, found]

theorem set_slot (inside : slot < slots.length) :
    (footing.below ++ slots ++ operands).set (footing.below.length + slot) value =
      footing.below ++ slots.set slot value ++ operands := by
  rw [List.append_assoc, List.set_append_right _ _ (Nat.le_add_right _ _),
    Nat.add_sub_cancel_left, List.set_append_left _ _ inside, List.append_assoc]

theorem machine_snoc : footing.machine ip slots (operands ++ [value]) store =
    ⟨.ofList footing.capacity (footing.below ++ slots ++ operands ++ [value]), ip,
      footing.below.length, footing.depth, footing.debug, store⟩ := by
  rw [machine, ← List.append_assoc]

theorem machine_pair : footing.machine ip slots (operands ++ [left] ++ [right]) store =
    ⟨.ofList footing.capacity (footing.below ++ slots ++ operands ++ [left, right]), ip,
      footing.below.length, footing.depth, footing.debug, store⟩ := by
  rw [machine, List.append_assoc operands, ← List.append_assoc]
  rfl

theorem deliver_eq (room : footing.Room slots operands) :
    deliver footing.capacity (footing.below ++ slots ++ operands) ip footing.below.length
        footing.depth footing.debug (.ok value, store) =
      (.ok .next, footing.machine ip slots (operands ++ [value]) store) := by
  rw [deliver_room room, machine_snoc]

theorem loadLocal
    (found : surroundings.program.instructions[ip]? = some (.loadLocal slot))
    (held : slots[slot]? = some value) (room : footing.Room slots operands) :
    surroundings.Steps (footing.machine ip slots operands store)
      (.ok .next, footing.machine (ip + 1) slots (operands ++ [value]) store) := by
  refine ⟨_, found, ?_⟩
  rw [← deliver_eq room]
  exact step_loadLocal (getElem?_slot held)

theorem pushConst {constant : Constant}
    (found : surroundings.program.instructions[ip]? = some (.pushConst constant))
    (room : footing.Room slots operands) :
    surroundings.Steps (footing.machine ip slots operands store)
      (.ok .next, footing.machine (ip + 1) slots (operands ++ [.ofConstant constant]) store) := by
  refine ⟨_, found, ?_⟩
  rw [← deliver_eq room]
  exact step_pushConst constant

theorem storeLocal
    (found : surroundings.program.instructions[ip]? = some (.storeLocal slot))
    (inside : slot < slots.length) :
    surroundings.Steps (footing.machine ip slots (operands ++ [value]) store)
      (.ok .next, footing.machine (ip + 1) (slots.set slot value) operands store) := by
  refine ⟨_, found, ?_⟩
  rw [machine_snoc, machine, ← set_slot inside]
  refine step_storeLocal ?_
  simp only [List.length_append]
  omega

theorem jump (found : surroundings.program.instructions[ip]? = some (.jump target)) :
    surroundings.Steps (footing.machine ip slots operands store)
      (.ok .next, footing.machine target slots operands store) :=
  ⟨_, found, step_jump⟩

theorem pop (found : surroundings.program.instructions[ip]? = some .pop) :
    surroundings.Steps (footing.machine ip slots (operands ++ [value]) store)
      (.ok .next, footing.machine (ip + 1) slots operands store) := by
  refine ⟨_, found, ?_⟩
  rw [machine_snoc]
  exact step_pop

theorem jumpIfFalse_stays
    (found : surroundings.program.instructions[ip]? = some (.jumpIfFalse target))
    (truth : value.isTruthy = true) :
    surroundings.Steps (footing.machine ip slots (operands ++ [value]) store)
      (.ok .next, footing.machine (ip + 1) slots operands store) := by
  refine ⟨_, found, ?_⟩
  rw [machine_snoc]
  refine step_jumpIfFalse.trans ?_
  rw [if_pos truth]
  rfl

theorem jumpIfFalse_jumps
    (found : surroundings.program.instructions[ip]? = some (.jumpIfFalse target))
    (truth : value.isTruthy = false) :
    surroundings.Steps (footing.machine ip slots (operands ++ [value]) store)
      (.ok .next, footing.machine target slots operands store) := by
  refine ⟨_, found, ?_⟩
  rw [machine_snoc]
  refine step_jumpIfFalse.trans ?_
  rw [if_neg (by simp [truth])]
  rfl

theorem binary {operator : BinaryOp}
    (found : surroundings.program.instructions[ip]? = some (.binary operator))
    (gives : Effect.binary surroundings.registry operator left right store = (.ok value, later))
    (room : footing.Room slots operands) :
    surroundings.Steps (footing.machine ip slots (operands ++ [left] ++ [right]) store)
      (.ok .next, footing.machine (ip + 1) slots (operands ++ [value]) later) := by
  refine ⟨_, found, ?_⟩
  rw [← deliver_eq room, ← gives, machine_pair]
  exact step_binary operator

theorem binary_fails {operator : BinaryOp} {fault : RuntimeFault}
    (found : surroundings.program.instructions[ip]? = some (.binary operator))
    (gives :
      Effect.binary surroundings.registry operator left right store = (.error fault, later)) :
    surroundings.Steps (footing.machine ip slots (operands ++ [left] ++ [right]) store)
      (.error fault, footing.machine (ip + 1) slots operands later) := by
  refine ⟨_, found, ?_⟩
  rw [machine_pair]
  refine (step_binary operator).trans ?_
  rw [gives]
  rfl

theorem getIterator (found : surroundings.program.instructions[ip]? = some .getIterator)
    {iterator : Value} (gives : value.toIterator store = (.ok iterator, later))
    (room : footing.Room slots operands) :
    surroundings.Steps (footing.machine ip slots (operands ++ [value]) store)
      (.ok .next, footing.machine (ip + 1) slots (operands ++ [iterator]) later) := by
  refine ⟨_, found, ?_⟩
  rw [← deliver_eq room, ← gives, machine_snoc]
  exact step_getIterator

theorem iterMoveNext {id : IteratorId} {advanced : Bool}
    (found : surroundings.program.instructions[ip]? = some .iterMoveNext)
    (gives : store.advance id = (.ok advanced, later)) (room : footing.Room slots operands) :
    surroundings.Steps (footing.machine ip slots (operands ++ [.iterator id]) store)
      (.ok .next, footing.machine (ip + 1) slots (operands ++ [.bool advanced]) later) := by
  refine ⟨_, found, ?_⟩
  rw [← deliver_eq room, machine_snoc, step_iterMoveNext, Effect.moveNext, gives]
  rfl

theorem iterMoveNext_fails {id : IteratorId} {error : HostError}
    (found : surroundings.program.instructions[ip]? = some .iterMoveNext)
    (gives : store.advance id = (.error error, later)) :
    surroundings.Steps (footing.machine ip slots (operands ++ [.iterator id]) store)
      (.error error.toFault, footing.machine (ip + 1) slots operands later) := by
  refine ⟨_, found, ?_⟩
  rw [machine_snoc, step_iterMoveNext, Effect.moveNext, gives]
  rfl

theorem iterCurrent {id : IteratorId}
    (found : surroundings.program.instructions[ip]? = some .iterCurrent)
    (room : footing.Room slots operands) :
    surroundings.Steps (footing.machine ip slots (operands ++ [.iterator id]) store)
      (.ok .next,
        footing.machine (ip + 1) slots (operands ++ [(store.iterator id).current]) store) := by
  refine ⟨_, found, ?_⟩
  rw [← deliver_eq room, machine_snoc]
  exact step_iterCurrent id

theorem yieldValue (found : surroundings.program.instructions[ip]? = some .yieldValue) :
    surroundings.Steps (footing.machine ip slots (operands ++ [value]) store)
      (.ok (.yielded value), footing.machine (ip + 1) slots operands store) := by
  refine ⟨_, found, ?_⟩
  rw [machine_snoc]
  exact step_yieldValue

/-- A step of the frame in a part of the code, in front of a run. -/
theorem walk {host : Host} {program : Program} {middle last : Machine} {seen after : List Value}
    (lower : low ≤ ip) (upper : ip < high)
    (steps : (host.surroundings program seen).Steps (footing.machine ip slots operands store)
      (.ok .next, middle))
    (walks : host.Walks program (Machine.Within low high footing.depth) middle seen last after) :
    host.Walks program (Machine.Within low high footing.depth)
      (footing.machine ip slots operands store) seen last after :=
  .next (within lower upper) steps walks

end Footing

/-- The machine with a tower on its stack, as a frame on what it stands on. -/
theorem Tower.machine_eq_footing {tower : Tower} {capacity ip : Nat} {debug : List DebugContext}
    {store : Store} :
    tower.machine capacity ip debug store =
      Footing.machine ⟨capacity, tower.globals ++ content tower.callers, tower.callers.length + 1,
        debug⟩ ip tower.active.slots tower.active.operands store := rfl

end ScriptMachine
