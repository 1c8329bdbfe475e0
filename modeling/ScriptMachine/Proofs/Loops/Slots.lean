import ScriptMachine.Proofs.Balance.Returns
import ScriptMachine.Proofs.Compiler.Loops
import ScriptMachine.Proofs.Loops.Hosts

/-!
# Slots that a part of the code leaves alone

While a part of the code of a function is carried out, the function may call others and be called
again by them. Its own frame stays where it is all that time, and the only instructions that write
to the slots of the frame are those of the part itself. So a slot that none of these writes to holds
the same value behind the part as before it, whatever the part does and whatever the host does
meanwhile.
-/

namespace ScriptMachine

/-! ## Frames that wait -/

/-- A frame of a function in which some slots hold known values. -/
structure Activation.Keeps (activation : Activation) (shape : Shape) (kept : List (Nat × Value)) :
    Prop where
  shape : activation.shape = shape
  slots : ∀ entry ∈ kept, activation.slots[entry.1]? = some entry.2

/-- A frame that keeps values is on the stack, directly above other frames. -/
def Tower.Bears (tower : Tower) (outer : List Activation) (shape : Shape)
    (kept : List (Nat × Value)) : Prop :=
  ∃ front activation, tower.active :: tower.callers = front ++ activation :: outer ∧
    activation.Keeps shape kept

section Changes

variable {activation : Activation} {shape : Shape} {kept : List (Nat × Value)}
  {outer : List Activation} {tower next : Tower}

theorem Activation.Keeps.operands (keeps : activation.Keeps shape kept) (operands : List Value) :
    { activation with operands := operands }.Keeps shape kept :=
  ⟨keeps.shape, keeps.slots⟩

/-- The frame is the running one if no other stands above it. -/
theorem Tower.Bears.alone (bears : tower.Bears outer shape kept)
    (level : tower.callers.length = outer.length) :
    tower.callers = outer ∧ tower.active.Keeps shape kept := by
  rcases bears with ⟨front, activation, frames, keeps⟩
  cases front with
  | nil =>
      injection frames with active callers
      exact ⟨callers, active ▸ keeps⟩
  | cons first front =>
      have length := congrArg List.length frames
      simp only [List.length_cons, List.length_append] at length
      omega

/-- A change of the running frame alone. -/
theorem Tower.Bears.within (bears : tower.Bears outer shape kept)
    (callers : next.callers = tower.callers)
    (keeps : tower.callers = outer → tower.active.Keeps shape kept →
      next.active.Keeps shape kept) : next.Bears outer shape kept := by
  rcases bears with ⟨front, activation, frames, held⟩
  cases front with
  | nil =>
      injection frames with active same
      exact ⟨[], next.active, by rw [callers, same]; rfl, keeps same (active ▸ held)⟩
  | cons first front =>
      injection frames with active same
      exact ⟨next.active :: front, activation, by rw [callers, same]; rfl, held⟩

/-- A step keeps what a frame holds, unless it returns from the frame or writes to a slot of it. -/
theorem Change.bears {surroundings : Surroundings} {behind there : Nat}
    {debug after : List DebugContext} {store later : Store} {instruction : Instruction}
    (change : Change surroundings tower behind debug store instruction next there after later)
    (bears : tower.Bears outer shape kept) (high : outer.length ≤ next.callers.length)
    (untouched : tower.callers = outer → ∀ slot, instruction = .storeLocal slot →
      ∀ entry ∈ kept, entry.1 ≠ slot) : next.Bears outer shape kept := by
  cases change with
  | works | loadLocal | loadGlobal | storeGlobal =>
      exact bears.within rfl fun _ keeps => keeps.operands _
  | pushDebug | popDebug => exact bears
  | @storeLocal slot _ _ operands valid inside =>
      refine bears.within rfl fun own keeps => ⟨keeps.shape, fun entry among => ?_⟩
      have apart := untouched own slot rfl entry among
      exact (List.getElem?_set_ne (Ne.symm apart)).trans (keeps.slots entry among)
  | allocFrame =>
      refine bears.within rfl fun _ keeps => ⟨keeps.shape, fun entry among => ?_⟩
      have found := keeps.slots entry among
      rwa [List.getElem?_append_left (List.getElem?_eq_some_iff.mp found).1]
  | call arity operands calls =>
      rcases bears with ⟨front, activation, frames, held⟩
      cases front with
      | nil =>
          injection frames with active same
          subst active
          exact ⟨[_], _, by rw [same]; rfl, held.operands _⟩
      | cons first front =>
          injection frames with active same
          exact ⟨_ :: _ :: front, activation, by rw [same]; rfl, held⟩
  | leave operands callers header =>
      rcases bears with ⟨front, activation, frames, held⟩
      rw [callers] at frames
      cases front with
      | nil =>
          injection frames with _ same
          rw [← same, List.length_cons] at high
          exact absurd high (Nat.not_succ_le_self _)
      | cons first front =>
          injection frames with _ same
          cases front with
          | nil =>
              injection same with waits same
              subst waits
              exact ⟨[], _, by rw [same]; rfl, held.operands _⟩
          | cons second front =>
              injection same with waits same
              exact ⟨_ :: front, activation, by rw [same]; rfl, held⟩

/-- A write puts the last operand into the slot. -/
theorem Change.stored {surroundings : Surroundings} {behind there slot : Nat}
    {debug after : List DebugContext} {store later : Store}
    (change :
      Change surroundings tower behind debug store (.storeLocal slot) next there after later) :
    ∃ below value, tower.active.operands = below ++ [value] ∧
      next = ⟨tower.globals, ⟨tower.active.shape, tower.active.slots.set slot value, below⟩,
        tower.callers⟩ := by
  cases change with
  | works _ works => cases works
  | call _ _ calls => cases calls
  | storeLocal operands => exact ⟨_, _, operands, rfl⟩

end Changes

/-! ## Parts of the code -/

/-- No instruction of a part of the code writes to some slots. -/
def Program.Untouched (program : Program) (low high : Nat) (kept : List (Nat × Value)) : Prop :=
  ∀ ip slot, low ≤ ip → ip < high → program.instructions[ip]? = some (.storeLocal slot) →
    ∀ entry ∈ kept, entry.1 ≠ slot

/-- Instructions that write to none of some slots. -/
theorem Program.Has.untouched {program : Program} {position : Nat} {code : List Instruction}
    {kept : List (Nat × Value)} (has : program.Has position code)
    (apart : ∀ slot, .storeLocal slot ∈ code → ∀ entry ∈ kept, entry.1 ≠ slot) :
    program.Untouched position (position + code.length) kept := by
  intro ip slot lower upper found
  exact apart slot (has.mem lower upper found)

/-- One more instruction, which writes to no slot. -/
theorem Program.Untouched.snoc {program : Program} {low high : Nat} {kept : List (Nat × Value)}
    {instruction : Instruction} (untouched : program.Untouched low high kept)
    (found : program.instructions[high]? = some instruction)
    (other : ∀ slot, .storeLocal slot ≠ instruction) : program.Untouched low (high + 1) kept := by
  intro ip slot lower upper stores
  rcases Nat.lt_succ_iff_lt_or_eq.mp upper with before | rfl
  · exact untouched ip slot lower before stores
  · exact absurd (Option.some.inj (stores.symm.trans found)) (other slot)

/-- A machine whose running frame stands over certain frames and keeps values. -/
def Machine.Keeps (machine : Machine) (program : Program) (chart : Chart) (capacity : Nat)
    (outer : List Activation) (shape : Shape) (kept : List (Nat × Value)) : Prop :=
  ∃ tower, machine.Tall program chart capacity tower ∧ tower.callers = outer ∧
    tower.active.Keeps shape kept

/-- A part of the code is carried out in a frame, from its first instruction to the place behind its
last one. -/
structure Host.Runs (host : Host) (program : Program) (low high : Nat) (machine : Machine)
    (seen : List Value) (later : Machine) (after : List Value) : Prop where
  starts : machine.ip = low
  walks : host.Walks program (Machine.Within low high machine.depth) machine seen later after
  ends : later.ip = high
  level : later.depth = machine.depth

/-- Whenever a run is at the start of a part of the code, at the level where it began, that part is
carried out to its end, and what stands there then is related to what stood in front of it. -/
def Host.Carries (host : Host) (program : Program) (through : Machine → Prop) (machine : Machine)
    (seen : List Value) (low high : Nat) (gives : Machine → Machine → Prop) : Prop :=
  ∀ inside seenInside, host.Walks program through machine seen inside seenInside →
    inside.depth = machine.depth → inside.ip = low →
    ∃ ended after, host.Runs program low high inside seenInside ended after ∧ gives inside ended

section Parts

variable {host : Host} {program : Program} {machine middle later : Machine}
  {seen between after : List Value} {low place high : Nat}

/-- Two parts, one behind the other. -/
theorem Host.Runs.trans (first : host.Runs program low place machine seen middle between)
    (second : host.Runs program place high middle between later after) (lower : low ≤ place)
    (upper : place ≤ high) : host.Runs program low high machine seen later after where
  starts := first.starts
  walks := by
    have rest := second.walks
    rw [first.level] at rest
    exact (first.walks.mono fun _ within => within.widen (Nat.le_refl _) upper).trans
      (rest.mono fun _ within => within.widen lower (Nat.le_refl _))
  ends := second.ends
  level := second.level.trans first.level

/-- An instruction behind a part. -/
theorem Host.Runs.next (first : host.Runs program low high machine seen middle after)
    (steps : (host.surroundings program after).Steps middle (.ok .next, later))
    (goes : later.ip = middle.ip + 1) (level : later.depth = middle.depth) (lower : low ≤ high) :
    host.Runs program low (high + 1) machine seen later after := by
  have here := first.ends
  have single : host.Runs program high (high + 1) middle after later after :=
    ⟨here, .next (.inr ⟨rfl, by omega, by omega⟩) steps .stay, by rw [goes, here], level⟩
  exact first.trans single lower (Nat.le_succ _)

/-- A part that is carried out from one machine of a run on is so from a later one on. -/
theorem Host.Carries.onward {through : Machine → Prop} {gives : Machine → Machine → Prop}
    (carries : host.Carries program through machine seen low high gives)
    (walks : host.Walks program through machine seen middle between)
    (level : middle.depth = machine.depth) :
    host.Carries program through middle between low high gives :=
  fun inside seenInside rest same => carries inside seenInside (walks.trans rest) (same.trans level)

/-- A part that is carried out comes behind another part. -/
theorem Host.Carries.behind {first last : Nat} {gives : Machine → Machine → Prop}
    (carries : host.Carries program (Machine.Within first last machine.depth) machine seen place
      high gives)
    (runs : host.Runs program low place machine seen middle between) (lower : first ≤ low)
    (upper : place ≤ last) :
    ∃ ended after, host.Runs program place high middle between ended after ∧ gives middle ended :=
  carries middle between (runs.walks.mono fun _ within => within.widen lower upper) runs.level
    runs.ends

end Parts

/-- What a slot of the running frame holds. -/
def Machine.local? (machine : Machine) (slot : Nat) : Option Value :=
  machine.stack.items.toList[machine.base + slot]?

/-! ## Frames in full -/

section Charts

variable {program : Program} {chart : Chart} {ip : Nat} {shape : Shape} {point : Point}

/-- An instruction that writes to a slot of a frame finds an operand there, and the slot. -/
theorem Program.Charted.storesTo (charted : program.Charted chart)
    (here : chart ip = some (shape, point)) {slot : Nat}
    (found : program.instructions[ip]? = some (.storeLocal slot)) :
    shape.HasSlot slot ∧ ∃ tag tags iterators, point = .running (tag :: tags) iterators := by
  rcases charted.checked ip shape point here with ⟨_, _, same, checked, _⟩
  cases found.symm.trans same
  cases checked with
  | plain effect => cases effect
  | storeLocal valid | storeIterator valid => exact ⟨valid, _, _, _, rfl⟩

theorem Program.not_allocatesAt {instruction : Instruction}
    (found : program.instructions[ip]? = some instruction)
    (other : ∀ locals, instruction ≠ .allocFrame locals) : ¬program.AllocatesAt ip := by
  rintro ⟨locals, allocates⟩
  exact other locals (Option.some.inj (found.symm.trans allocates))

/-- How many values are on the stack while a frame of a function runs at a place. -/
def Chart.height (chart : Chart) (program : Program) (outer : List Activation) (shape : Shape)
    (ip : Nat) : Nat :=
  program.globals.length + (content outer).length + (shape.arity + frameHeader + shape.locals) +
    chart.counts.pending ip

end Charts

section Sizes

variable {program : Program} {chart : Chart} {capacity slot : Nat} {machine : Machine}
  {tower : Tower} {outer : List Activation} {shape : Shape} {kept : List (Nat × Value)}
  {value : Value}

/-- A frame that has its locals has all its slots, and as many operands as the chart says. -/
theorem Machine.Tall.sizes (charted : program.Charted chart)
    (tall : machine.Tall program chart capacity tower)
    (running : ¬program.AllocatesAt machine.ip) :
    tower.active.slots.length =
        tower.active.shape.arity + frameHeader + tower.active.shape.locals ∧
      tower.active.operands.length = chart.counts.pending machine.ip := by
  rcases tall.2.here with ⟨point, here, stands⟩
  have notEntry : point ≠ .entry := fun atEntry =>
    running ((charted.allocatesAt_iff here).mpr atEntry)
  have counted := (@Activation.Stands.runs _ _ _ _ _ charted stands here 0 0).late running
  refine ⟨?_, counted.2⟩
  cases point with
  | entry => exact absurd rfl notEntry
  | opening | running | closing | leaving => exact stands.1

theorem Machine.Tall.local? (tall : machine.Tall program chart capacity tower)
    (inside : slot < tower.active.slots.length) :
    machine.local? slot = tower.active.slots[slot]? := by
  rw [Machine.local?, tall.1, Tower.machine_eq_footing]
  exact Footing.getElem?_slot (List.getElem?_eq_getElem inside) |>.trans
    (List.getElem?_eq_getElem inside).symm

theorem Footing.local? {footing : Footing} {ip : Nat} {slots operands : List Value} {store : Store}
    (found : slots[slot]? = some value) :
    (footing.machine ip slots operands store).local? slot = some value :=
  Footing.getElem?_slot found

namespace Machine.Keeps

theorem depth (keeps : machine.Keeps program chart capacity outer shape kept) :
    machine.depth = outer.length + 1 := by
  rcases keeps with ⟨tower, tall, rfl, _⟩
  exact tall.depth

theorem base (keeps : machine.Keeps program chart capacity outer shape kept) :
    machine.base = program.globals.length + (content outer).length := by
  rcases keeps with ⟨tower, tall, rfl, _⟩
  rw [tall.1, ← tall.2.globals, ← List.length_append]
  rfl

theorem local? (keeps : machine.Keeps program chart capacity outer shape kept)
    (among : (slot, value) ∈ kept) : machine.local? slot = some value := by
  rcases keeps with ⟨tower, tall, _, keeps⟩
  have found := keeps.slots _ among
  exact (tall.local? (List.getElem?_eq_some_iff.mp found).1).trans found

theorem subset {fewer : List (Nat × Value)}
    (keeps : machine.Keeps program chart capacity outer shape kept) (subset : fewer ⊆ kept) :
    machine.Keeps program chart capacity outer shape fewer := by
  rcases keeps with ⟨tower, tall, callers, keeps⟩
  exact ⟨tower, tall, callers, keeps.shape, fun entry among => keeps.slots entry (subset among)⟩

/-- A slot whose value is known is kept like the others. -/
theorem cons (charted : program.Charted chart)
    (keeps : machine.Keeps program chart capacity outer shape kept)
    (running : ¬program.AllocatesAt machine.ip)
    (inside : slot < shape.arity + frameHeader + shape.locals)
    (held : machine.local? slot = some value) :
    machine.Keeps program chart capacity outer shape ((slot, value) :: kept) := by
  rcases keeps with ⟨tower, tall, callers, keeps⟩
  have length := (tall.sizes charted running).1
  rw [keeps.shape] at length
  refine ⟨tower, tall, callers, keeps.shape, fun entry among => ?_⟩
  rcases List.mem_cons.mp among with rfl | among
  · exact (tall.local? (by omega)).symm.trans held
  · exact keeps.slots entry among

/-- The frame that keeps the values, on what it stands on. -/
theorem footing (charted : program.Charted chart)
    (keeps : machine.Keeps program chart capacity outer shape kept)
    (running : ¬program.AllocatesAt machine.ip) :
    ∃ (footing : Footing) (slots operands : List Value),
      machine = footing.machine machine.ip slots operands machine.store ∧
      (∀ entry ∈ kept, slots[entry.1]? = some entry.2) ∧
      slots.length = shape.arity + frameHeader + shape.locals ∧
      (footing.below ++ slots ++ operands).length =
        chart.height program outer shape machine.ip ∧
      footing.capacity = capacity ∧ footing.depth = machine.depth := by
  rcases keeps with ⟨tower, tall, rfl, keeps⟩
  rcases tall.sizes charted running with ⟨slots, operands⟩
  rw [keeps.shape] at slots
  refine ⟨⟨capacity, tower.globals ++ content tower.callers, tower.callers.length + 1,
    machine.debugStack⟩, _, _, tall.1, keeps.slots, slots, ?_, rfl, tall.depth.symm⟩
  simp only [List.length_append, Chart.height, tall.2.globals, slots, operands]

end Machine.Keeps

end Sizes

section Walks

variable {host : Host} {program : Program} {chart : Chart} {capacity low high level : Nat}
  {machine middle later : Machine} {seen after : List Value} {outer : List Activation}
  {shape : Shape} {kept : List (Nat × Value)} {tower : Tower}

/-- A run in a part of the code that ends at its level never was below it. -/
theorem Host.Walks.level_le
    (walks : host.Walks program (Machine.Within low high level) machine seen later after)
    (ends : later.depth = level) : level ≤ machine.depth := by
  rcases walks.starts with here | rfl
  · rcases here with above | ⟨same, _⟩ <;> omega
  · exact Nat.le_of_eq ends.symm

variable (charted : program.Charted chart) (bounded : capacity ≤ twoTo 63)
  (small : program.size < twoTo 63)

include charted bounded small

theorem Proceeds.bears (proceeds : Proceeds program machine middle)
    (here : machine.Within low high (outer.length + 1)) (level : outer.length + 1 ≤ middle.depth)
    (tall : machine.Tall program chart capacity tower) (bears : tower.Bears outer shape kept)
    (untouched : program.Untouched low high kept) :
    ∃ next, middle.Tall program chart capacity next ∧ next.Bears outer shape kept := by
  rcases proceeds.change charted bounded small tall with
    ⟨registry, instruction, next, store, found, change, tallNext⟩
  have depth := tall.depth
  have depthNext := tallNext.depth
  refine ⟨next, tallNext, change.bears bears (by omega) ?_⟩
  rintro own slot rfl
  rw [own] at depth
  rcases here with above | ⟨_, lower, upper⟩
  · omega
  · exact untouched _ slot lower upper found

variable (sound : host.Sound program)

include sound

theorem Host.Walks.bears
    (walks : host.Walks program (Machine.Within low high (outer.length + 1)) machine seen later
      after)
    (reached : Reached program capacity machine)
    (tall : machine.Tall program chart capacity tower) (bears : tower.Bears outer shape kept)
    (untouched : program.Untouched low high kept) (ends : later.depth = outer.length + 1) :
    later.Keeps program chart capacity outer shape kept := by
  induction walks generalizing tower with
  | stay =>
      have depth := tall.depth
      exact ⟨tower, tall, bears.alone (by omega)⟩
  | next here steps rest ih =>
      have proceeds := Host.proceeds_of_next charted bounded small sound reached steps
      rcases proceeds.bears charted bounded small here (rest.level_le ends) tall bears untouched
        with ⟨next, tallNext, bearsNext⟩
      exact ih (reached.proceed proceeds) tallNext bearsNext ends
  | yields here steps rest ih =>
      have proceeds := Host.proceeds_of_yielded charted bounded small sound reached steps
      rcases proceeds.bears charted bounded small here (rest.level_le ends) tall bears untouched
        with ⟨next, tallNext, bearsNext⟩
      exact ih (reached.proceed proceeds) tallNext bearsNext ends

/-- A part of the code leaves the slots alone that it does not write to. -/
theorem Host.Walks.keeps
    (walks : host.Walks program (Machine.Within low high machine.depth) machine seen later after)
    (level : later.depth = machine.depth) (reached : Reached program capacity machine)
    (keeps : machine.Keeps program chart capacity outer shape kept)
    (untouched : program.Untouched low high kept) :
    later.Keeps program chart capacity outer shape kept := by
  rcases keeps with ⟨tower, tall, rfl, active⟩
  rw [tall.depth] at walks level
  exact walks.bears charted bounded small sound reached tall ⟨[], tower.active, rfl, active⟩
    untouched level

/-- An instruction writes an operand to a slot of the frame, which keeps it from then on. -/
theorem Machine.Keeps.store (reached : Reached program capacity machine)
    (keeps : machine.Keeps program chart capacity outer shape kept) {slot : Nat} {value : Value}
    (found : program.instructions[machine.ip]? = some (.storeLocal slot))
    (top : machine.stack.items.back? = some value) (apart : ∀ entry ∈ kept, entry.1 ≠ slot) :
    ∃ later, (host.surroundings program seen).Steps machine (.ok .next, later) ∧
      later.ip = machine.ip + 1 ∧
      later.Keeps program chart capacity outer shape ((slot, value) :: kept) := by
  rcases keeps with ⟨tower, tall, callers, keeps⟩
  rcases tall.2.here with ⟨point, here, stands⟩
  rcases charted.storesTo here found with ⟨valid, tag, tags, iterators, rfl⟩
  rcases stands.2.1 with ⟨below, taken, operands, _, _⟩
  have inside := (valid.inside stands).1
  have same : taken = value := by
    rw [tall.1] at top
    simpa [Tower.machine, ValueStack.ofList, Tower.values, operands] using top
  subst same
  have framed := tall.1.trans Tower.machine_eq_footing
  rw [operands] at framed
  have steps := @Footing.storeLocal
    ⟨capacity, tower.globals ++ content tower.callers, tower.callers.length + 1, machine.debugStack⟩
    (host.surroundings program seen) _ _ _ below taken machine.store found inside
  rw [← framed] at steps
  refine ⟨_, steps, rfl, ?_⟩
  have proceeds := Host.proceeds_of_next charted bounded small sound reached steps
  rcases proceeds.change charted bounded small tall with
    ⟨registry, instruction, next, store, same, change, tallNext⟩
  cases found.symm.trans same
  rcases change.stored with ⟨_, _, stored, rfl⟩
  cases List.append_inj_right' (operands.symm.trans stored) rfl
  refine ⟨_, tallNext, callers, keeps.shape, fun entry among => ?_⟩
  rcases List.mem_cons.mp among with rfl | among
  · exact List.getElem?_set_self inside
  · exact (List.getElem?_set_ne (Ne.symm (apart entry among))).trans (keeps.slots entry among)

/-- What a part of the code evaluates is written to a slot, and the frame keeps it together with
what it kept in front of the part. -/
theorem Host.Runs.store (runs : host.Runs program low high machine seen later after)
    (lower : low ≤ high) (reached : Reached program capacity machine)
    (keeps : machine.Keeps program chart capacity outer shape kept)
    (untouched : program.Untouched low high kept) {slot : Nat} {value : Value}
    (found : program.instructions[high]? = some (.storeLocal slot))
    (top : later.stack.items.back? = some value) (apart : ∀ entry ∈ kept, entry.1 ≠ slot) :
    ∃ next, host.Runs program low (high + 1) machine seen next after ∧
      next.Keeps program chart capacity outer shape ((slot, value) :: kept) := by
  have keepsLater := runs.walks.keeps charted bounded small sound runs.level reached keeps untouched
  rcases keepsLater.store charted bounded small sound
    (runs.walks.reached charted bounded small sound reached) (runs.ends ▸ found) top apart with
    ⟨next, steps, goes, keepsNext⟩
  exact ⟨next, runs.next steps goes (keepsNext.depth.trans keepsLater.depth.symm) lower, keepsNext⟩

end Walks

end ScriptMachine
