import ScriptMachine.Proofs.Balance.Programs
import ScriptMachine.Proofs.Engine.Closures
import ScriptMachine.Proofs.Engine.Steps

/-!
# Frames on the stack

The stack of a running machine is a tower: the globals, then the frames of the functions that wait
for a call to return, then the frame of the running function. A frame has slots, which hold the
arguments, the two words of its header and the locals, and operands above them.

`Tower.Holds` says that a tower agrees with the chart of a program: the running function has
what the point at the instruction pointer asks for, and each function that waits will have it once
its call has returned.
-/

namespace ScriptMachine

/-! ## Operands -/

/-- Whether a value is what is known of an operand. -/
def Tag.Admits : Tag → Value → Prop
  | .any, _ => True
  | .iterator, value => ∃ id, value = .iterator id
  | .carrier, _ => True

/-- Whether operands, the lowest first, are what is known of them, the last pushed first. -/
def Matches (admits : Tag → Value → Prop) : List Tag → List Value → Prop
  | [], operands => operands = []
  | tag :: tags, operands =>
      ∃ below value, operands = below ++ [value] ∧ admits tag value ∧ Matches admits tags below

namespace Matches

variable {admits : Tag → Value → Prop} {tags popped : List Tag} {operands below args : List Value}
  {value : Value}

theorem length (matched : Matches admits tags operands) : operands.length = tags.length := by
  induction tags generalizing operands with
  | nil => simp [show operands = [] from matched]
  | cons tag tags ih =>
      rcases matched with ⟨below, value, rfl, _, matched⟩
      simp [ih matched]

theorem push (matched : Matches admits tags operands) {tag : Tag} (admitted : admits tag value) :
    Matches admits (tag :: tags) (operands ++ [value]) :=
  ⟨operands, value, rfl, admitted, matched⟩

theorem pop {tag : Tag} (matched : Matches admits (tag :: tags) (operands ++ [value])) :
    admits tag value ∧ Matches admits tags operands := by
  rcases matched with ⟨front, last, same, admitted, matched⟩
  rcases List.append_inj' same rfl with ⟨rfl, lastSame⟩
  cases lastSame
  exact ⟨admitted, matched⟩

/-- The operands that an instruction takes. -/
theorem split (matched : Matches admits (popped ++ tags) operands) :
    ∃ below args, operands = below ++ args ∧ args.length = popped.length ∧
      Matches admits tags below := by
  induction popped generalizing operands with
  | nil => exact ⟨operands, [], by simp, rfl, matched⟩
  | cons tag popped ih =>
      rcases matched with ⟨front, value, rfl, _, matched⟩
      rcases ih matched with ⟨below, args, rfl, length, matched⟩
      exact ⟨below, args ++ [value], by simp, by simp [length], matched⟩

/-- What is known of the operands that are taken, and of those that stay. -/
theorem parts (matched : Matches admits (popped ++ tags) (below ++ args))
    (length : args.length = popped.length) :
    Matches admits popped args ∧ Matches admits tags below := by
  induction popped generalizing args with
  | nil =>
      cases List.length_eq_zero_iff.mp length
      rw [List.append_nil] at matched
      exact ⟨rfl, matched⟩
  | cons tag popped ih =>
      rcases args.eq_nil_or_concat with rfl | ⟨front, last, rfl⟩
      · cases length
      · rw [List.concat_eq_append] at length matched ⊢
        rw [List.length_append] at length
        rw [← List.append_assoc] at matched
        rcases matched.pop with ⟨admitted, matched⟩
        rcases ih matched (Nat.succ.inj length) with ⟨fronts, stays⟩
        exact ⟨fronts.push admitted, stays⟩

theorem join (above : Matches admits popped args) (matched : Matches admits tags below) :
    Matches admits (popped ++ tags) (below ++ args) := by
  induction popped generalizing args with
  | nil => simpa [show args = [] from above] using matched
  | cons tag popped ih =>
      rcases above with ⟨front, value, rfl, admitted, above⟩
      rw [← List.append_assoc]
      exact (ih above).push admitted

theorem imp {other : Tag → Value → Prop} (matched : Matches admits tags operands)
    (weaker : ∀ tag value, admits tag value → other tag value) : Matches other tags operands := by
  induction tags generalizing operands with
  | nil => exact matched
  | cons tag tags ih =>
      rcases matched with ⟨below, value, rfl, admitted, matched⟩
      exact (ih matched).push (weaker tag value admitted)

/-- Operands that may all be anything that is known of one of them. -/
theorem of_forall (length : operands.length = tags.length)
    (admitted : ∀ tag ∈ tags, ∀ value ∈ operands, admits tag value) :
    Matches admits tags operands := by
  induction tags generalizing operands with
  | nil => exact List.length_eq_zero_iff.mp length
  | cons tag tags ih =>
      rcases operands.eq_nil_or_concat with rfl | ⟨front, last, rfl⟩
      · cases length
      · rw [List.concat_eq_append] at length admitted ⊢
        rw [List.length_append] at length
        refine (ih (Nat.succ.inj length) ?_).push (admitted tag List.mem_cons_self last (by simp))
        intro other member value present
        exact admitted other (List.mem_cons_of_mem _ member) value (List.mem_append_left _ present)

theorem pair {first second : Tag} {one two : Value}
    (matched : Matches admits [second, first] [one, two]) : admits first one ∧ admits second two := by
  rcases matched with ⟨_, _, same, upper, _, _, rfl, lower, rfl⟩
  cases same
  exact ⟨lower, upper⟩

theorem triple {first second third : Tag} {one two three : Value}
    (matched : Matches admits [third, second, first] [one, two, three]) :
    admits first one ∧ admits second two ∧ admits third three := by
  rcases matched with ⟨_, _, same, top, _, _, rfl, upper, _, _, rfl, lower, rfl⟩
  cases same
  exact ⟨lower, upper, top⟩

/-- Something is known of every operand. -/
theorem exists_tag (matched : Matches admits tags operands) (present : value ∈ operands) :
    ∃ tag ∈ tags, admits tag value := by
  induction tags generalizing operands with
  | nil => rw [show operands = [] from matched] at present; cases present
  | cons tag tags ih =>
      rcases matched with ⟨below, last, rfl, admitted, matched⟩
      rcases List.mem_append.mp present with early | late
      · rcases ih matched early with ⟨other, member, known⟩
        exact ⟨other, List.mem_cons_of_mem _ member, known⟩
      · rw [List.mem_singleton.mp late]
        exact ⟨tag, List.mem_cons_self, admitted⟩

end Matches

/-! ## Frames -/

/-- A frame: the slots with the arguments, the header and the locals, and the operands. -/
structure Activation where
  shape : Shape
  slots : List Value
  operands : List Value

namespace Activation

/-- The words of the header: the base of the caller and where it goes on. -/
structure Header (activation : Activation) (base ip : Nat) : Prop where
  saved : activation.slots[activation.shape.arity]? = some (.int (Int64.ofNat base))
  resumption : activation.slots[activation.shape.arity + 1]? = some (.int (Int64.ofNat ip))

theorem Header.same_ip {activation : Activation} {first second back there : Nat}
    (one : activation.Header first back) (other : activation.Header second there)
    (backSmall : back < twoTo 63) (thereSmall : there < twoTo 63) : there = back := by
  have words : Value.int (Int64.ofNat back) = .int (Int64.ofNat there) :=
    Option.some.inj (one.resumption.symm.trans other.resumption)
  have read := frameWord_ofNat backSmall
  rw [words, frameWord_ofNat thereSmall] at read
  exact Except.ok.inj read

/-- A frame that is as a point says. -/
def Stands (activation : Activation) : Point → Prop
  | .entry =>
      activation.slots.length = activation.shape.arity + frameHeader ∧ activation.operands = []
  | .opening =>
      activation.slots.length =
          activation.shape.arity + frameHeader + activation.shape.locals ∧
        activation.operands = []
  | .running tags iterators =>
      activation.slots.length =
          activation.shape.arity + frameHeader + activation.shape.locals ∧
        Matches Tag.Admits tags activation.operands ∧
        ∀ slot ∈ iterators, ∃ id, activation.slots[slot]? = some (.iterator id)
  | .closing tags iterators =>
      activation.slots.length =
          activation.shape.arity + frameHeader + activation.shape.locals ∧
        (∃ below id, activation.operands = below ++ [.array id] ∧ Matches Tag.Admits tags below) ∧
        ∀ slot ∈ iterators, ∃ id, activation.slots[slot]? = some (.iterator id)
  | .leaving tags =>
      activation.slots.length =
          activation.shape.arity + frameHeader + activation.shape.locals ∧
        Matches Tag.Admits tags activation.operands

theorem Stands.meets {activation : Activation} {before after : Point}
    (stands : activation.Stands before) (meets : before.Meets after) : activation.Stands after := by
  cases meets with
  | entry | opening | closing | leaving => exact stands
  | running covers => exact ⟨stands.1, stands.2.1, fun slot member => stands.2.2 slot (covers member)⟩

end Activation

/-- The values of frames, of which the innermost comes first. -/
def content : List Activation → List Value
  | [] => []
  | activation :: callers => content callers ++ activation.slots ++ activation.operands

/-- The operands that a call takes, the called value included. -/
def Instruction.callOperands? : Instruction → Option Nat
  | .callFunction _ argc => some argc
  | .callMethod _ argc | .invokeClosure argc => some (argc + 1)
  | _ => none

/-- A function that waits at a place, behind a call, for one more operand. -/
structure Activation.Waits (activation : Activation) (program : Program) (chart : Chart)
    (ip : Nat) : Prop where
  call : ∃ before instruction, ip = before + 1 ∧
    program.instructions[before]? = some instruction ∧ instruction.callOperands?.isSome
  there : ∃ tags iterators point,
    chart ip = some (activation.shape, point) ∧
      (Point.running (.any :: tags) iterators).Meets point ∧
      activation.Stands (.running tags iterators)

/-- Frames whose headers lead from each to its caller. Below the outermost there is nothing. -/
def Chained (program : Program) (chart : Chart) (globals : Nat) :
    List Activation → Prop
  | [] => True
  | [outermost] => outermost.Header 0 0
  | activation :: caller :: callers =>
      (∃ ip, activation.Header (globals + (content callers).length) ip ∧
        caller.Waits program chart ip) ∧
      Chained program chart globals (caller :: callers)

/-- What is on the stack of a running machine. -/
structure Tower where
  globals : List Value
  active : Activation
  callers : List Activation

namespace Tower

/-- The values below the operands of the running frame. -/
def floor (tower : Tower) : List Value :=
  tower.globals ++ content tower.callers ++ tower.active.slots

/-- The values on the stack. -/
def values (tower : Tower) : List Value := tower.floor ++ tower.active.operands

/-- Where the running frame starts. -/
def base (tower : Tower) : Nat := (tower.globals ++ content tower.callers).length

/-- The machine with a tower on its stack. -/
def machine (tower : Tower) (capacity ip : Nat) (debug : List DebugContext) (store : Store) :
    Machine :=
  ⟨.ofList capacity tower.values, ip, tower.base, tower.callers.length + 1, debug, store⟩

/-- The tower with other operands in the running frame. -/
def withOperands (tower : Tower) (operands : List Value) : Tower :=
  { tower with active := { tower.active with operands := operands } }

/-- A tower that agrees with the chart of a program at an instruction pointer. -/
structure Holds (tower : Tower) (program : Program) (chart : Chart) (capacity ip : Nat)
    (store : Store) : Prop where
  globals : tower.globals.length = program.globals.length
  here : ∃ point, chart ip = some (tower.active.shape, point) ∧ tower.active.Stands point
  chained : Chained program chart tower.globals.length (tower.active :: tower.callers)
  room : tower.values.length ≤ capacity
  sound : store.Sound program
  known : ∀ value ∈ tower.values, value.Known store

variable {tower : Tower} {program : Program} {chart : Chart} {capacity ip : Nat}
  {store later : Store} {tags : List Tag} {iterators : List Nat}

theorem values_withOperands (operands : List Value) :
    (tower.withOperands operands).values = tower.floor ++ operands := rfl

/-- The machine with the operands of an instruction in sight. -/
theorem machine_of_operands {below args : List Value} {debug : List DebugContext}
    (operands : tower.active.operands = below ++ args) :
    tower.machine capacity ip debug store =
      ⟨.ofList capacity (tower.floor ++ below ++ args), ip, tower.base, tower.callers.length + 1,
        debug, store⟩ := by
  rw [machine, values, operands, List.append_assoc]

theorem length_floor : tower.floor.length = tower.base + tower.active.slots.length := by
  rw [floor, List.length_append]
  rfl

theorem chained_slots {globals : Nat} {activation : Activation} {callers : List Activation}
    {slots operands : List Value}
    (chained : Chained program chart globals (activation :: callers))
    (saved : slots[activation.shape.arity]? = activation.slots[activation.shape.arity]?)
    (resumption : slots[activation.shape.arity + 1]? =
      activation.slots[activation.shape.arity + 1]?) :
    Chained program chart globals (⟨activation.shape, slots, operands⟩ :: callers) := by
  cases callers with
  | nil => exact ⟨saved.trans chained.saved, resumption.trans chained.resumption⟩
  | cons caller rest =>
      rcases chained with ⟨⟨there, header, waits⟩, chained⟩
      exact ⟨⟨there, ⟨saved.trans header.saved, resumption.trans header.resumption⟩, waits⟩, chained⟩

/-- A step that leaves the frames alone and only changes the operands. -/
theorem Holds.operands {there : Nat} {operands : List Value} {point : Point}
    (holds : tower.Holds program chart capacity ip store)
    (placed : chart there = some (tower.active.shape, point))
    (stands : (tower.withOperands operands).active.Stands point)
    (follows : store.Follows program later) (known : ∀ value ∈ operands, value.Known later)
    (room : (tower.floor ++ operands).length ≤ capacity) :
    (tower.withOperands operands).Holds program chart capacity there later where
  globals := holds.globals
  here := ⟨point, placed, stands⟩
  chained := chained_slots holds.chained rfl rfl
  room := room
  sound := follows.sound
  known := by
    intro value member
    rw [values_withOperands] at member
    rcases List.mem_append.mp member with old | new
    · have present : value ∈ tower.values := List.mem_append_left _ old
      exact (holds.known value present).mono follows.grows
    · exact known value new

/-- Operands that are as a point inside the running function says. -/
theorem stands_withOperands {operands : List Value} {point : Point} {moreTags : List Tag}
    (stands : tower.active.Stands (.running tags iterators)) (matched : Matches Tag.Admits moreTags operands)
    (meets : (Point.running moreTags iterators).Meets point) :
    (tower.withOperands operands).active.Stands point := by
  have standsLater : (tower.withOperands operands).active.Stands (.running moreTags iterators) :=
    ⟨stands.1, matched, stands.2.2⟩
  exact standsLater.meets meets

end Tower

end ScriptMachine
