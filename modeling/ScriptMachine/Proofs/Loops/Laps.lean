import ScriptMachine.Proofs.Loops.Slots
import ScriptMachine.Proofs.Value.Arithmetic

/-!
# Laps of numeric loops

A numeric loop goes through the numbers from its start by its step that are not behind its stop. One
lap tests a number, runs the body and counts on. How the loop goes in one frame is shown here, by
induction on the laps that are left: between the laps the frame keeps the stop, the step and the
number that comes next.
-/

namespace ScriptMachine

/-! ## The numbers of a loop -/

/-- Whether a number is not behind the stop. Which side that is depends on the sign of the step. -/
def inRange (number last stride : Int) : Bool :=
  if stride < 0 then decide (last ≤ number) else decide (number ≤ last)

/-- How many numbers there are from the first by the step that are not behind the last. -/
def rangeCount (first last stride : Int) : Nat :=
  if stride < 0 then ((first - last) / -stride + 1).toNat else ((last - first) / stride + 1).toNat

/-- So many numbers from the first by the step. -/
def numbersFrom (first stride : Int) (count : Nat) : List Int :=
  (List.range count).map fun (turn : Nat) => first + (turn : Int) * stride

/-- The numbers of a loop, in order. -/
def rangeNumbers (first last stride : Int) : List Int :=
  numbersFrom first stride (rangeCount first last stride)

theorem numbersFrom_succ (first stride : Int) (count : Nat) :
    numbersFrom first stride (count + 1) = first :: numbersFrom (first + stride) stride count := by
  simp only [numbersFrom, List.range_succ_eq_map, List.map_cons, List.map_map, Int.natCast_zero,
    Int.zero_mul, Int.add_zero, List.cons.injEq, true_and, List.map_inj_left, Function.comp_apply]
  intro turn _
  rw [Nat.succ_eq_add_one, Int.natCast_add, Int.add_mul]
  omega

theorem lt_rangeCount {first last stride : Int} (nonzero : stride ≠ 0) (turn : Nat) :
    turn < rangeCount first last stride ↔ inRange (first + turn * stride) last stride := by
  unfold rangeCount inRange
  split
  · rename_i down
    rw [Int.lt_toNat, Int.lt_add_one_iff, Int.le_ediv_iff_mul_le (by omega), decide_eq_true_iff,
      Int.mul_neg]
    omega
  · rename_i up
    rw [Int.lt_toNat, Int.lt_add_one_iff, Int.le_ediv_iff_mul_le (by omega), decide_eq_true_iff]
    omega

section Words

variable {number last stride : Int64}

/-- Numbers of a loop lie between words, so they fit. -/
theorem fitsInt64_of_inRange
    (inside : inRange (number.toInt + stride.toInt) last.toInt stride.toInt = true) :
    fitsInt64 (number.toInt + stride.toInt) = true := by
  rcases fitsInt64_iff.mp (fitsInt64_toInt number) with ⟨lower, upper⟩
  rcases fitsInt64_iff.mp (fitsInt64_toInt last) with ⟨lowerLast, upperLast⟩
  refine fitsInt64_iff.mpr ?_
  unfold inRange at inside
  split at inside <;> rw [decide_eq_true_iff] at inside <;> omega

/-- So many numbers of a loop are left, this one included. -/
def NumbersLeft (number last stride : Int64) (count : Nat) : Prop :=
  ∀ turn : Nat, turn < count ↔ inRange (number.toInt + turn * stride.toInt) last.toInt stride.toInt

namespace NumbersLeft

variable {count : Nat}

theorem inRange_iff (left : NumbersLeft number last stride count) :
    inRange number.toInt last.toInt stride.toInt = true ↔ 0 < count := by
  rw [left 0, Int.natCast_zero, Int.zero_mul, Int.add_zero]

theorem next (left : NumbersLeft number last stride (count + 1))
    (fits : fitsInt64 (number.toInt + stride.toInt) = true) :
    NumbersLeft (Int64.ofInt (number.toInt + stride.toInt)) last stride count := by
  intro turn
  have further : number.toInt + stride.toInt + turn * stride.toInt =
      number.toInt + (turn + 1 : Nat) * stride.toInt := by
    rw [Int.natCast_add, Int.add_mul]
    omega
  rw [toInt_ofInt_of_fits fits, further, ← left]
  exact Nat.succ_lt_succ_iff.symm

/-- A number from which the loop cannot count on is the last one. -/
theorem last_of_large (left : NumbersLeft number last stride (count + 1))
    (large : fitsInt64 (number.toInt + stride.toInt) = false) : count = 0 := by
  refine Nat.eq_zero_of_not_pos fun more => ?_
  have second := (left 1).mp (Nat.succ_lt_succ more)
  rw [Int.natCast_one, Int.one_mul] at second
  exact Bool.false_ne_true (large.symm.trans (fitsInt64_of_inRange second))

end NumbersLeft

end Words

/-! ## How high the stack is -/

section Heights

variable {program : Program} {chart : Chart} {ip : Nat} {shape : Shape} {point : Point}

theorem Chart.pending_of_meets {tags : List Tag} {iterators : List Nat}
    (here : chart ip = some (shape, point)) (meets : (Point.running tags iterators).Meets point) :
    chart.counts.pending ip = tags.length := by
  cases meets
  simp [Chart.counts, here]

variable (charted : program.Charted chart) (here : chart ip = some (shape, point))

include charted here

theorem Program.Charted.pending_loadLocal {slot : Nat}
    (found : program.instructions[ip]? = some (.loadLocal slot)) :
    chart.counts.pending (ip + 1) = chart.counts.pending ip + 1 := by
  rcases charted.checked ip shape point here with ⟨_, _, same, checked, falls⟩
  cases found.symm.trans same
  cases checked with
  | plain effect => cases effect
  | loadLocal | loadIterator | loadCarrier =>
      rcases falls _ rfl with ⟨there, placed, meets⟩
      rw [Chart.pending_of_meets placed meets]
      simp [Chart.counts, here]

theorem Program.Charted.pending_storeLocal {slot : Nat}
    (found : program.instructions[ip]? = some (.storeLocal slot)) :
    chart.counts.pending ip = chart.counts.pending (ip + 1) + 1 := by
  rcases charted.checked ip shape point here with ⟨_, _, same, checked, falls⟩
  cases found.symm.trans same
  cases checked with
  | plain effect => cases effect
  | storeLocal | storeIterator =>
      rcases falls _ rfl with ⟨there, placed, meets⟩
      rw [Chart.pending_of_meets placed meets]
      simp [Chart.counts, here]

theorem Program.Charted.pending_binary {operator : BinaryOp}
    (found : program.instructions[ip]? = some (.binary operator)) :
    chart.counts.pending ip = chart.counts.pending (ip + 1) + 1 := by
  rcases charted.checked ip shape point here with ⟨_, _, same, checked, falls⟩
  cases found.symm.trans same
  cases checked with
  | plain effect =>
      cases effect
      rcases falls _ rfl with ⟨there, placed, meets⟩
      rw [Chart.pending_of_meets placed meets]
      simp [Chart.counts, here]

theorem Program.Charted.pending_jump {target : Nat}
    (found : program.instructions[ip]? = some (.jump target)) :
    chart.counts.pending target = chart.counts.pending ip := by
  rcases charted.checked ip shape point here with ⟨_, _, same, checked, _⟩
  cases found.symm.trans same
  cases checked with
  | plain effect => cases effect
  | jump there meets =>
      rw [Chart.pending_of_meets there meets]
      simp [Chart.counts, here]

end Heights

/-! ## Instructions of the loop -/

theorem Effect.binary_int {registry : Registry} {operator : BinaryOp} {left right : Int64}
    {result : Except RuntimeFault Value} {store : Store}
    (meaning : intBinary operator left right = some result) :
    Effect.binary registry operator (.int left) (.int right) store = (result, store) := by
  have meant : Value.binary store operator (.int left) (.int right) = some result := by
    cases operator <;> first | exact meaning | cases meaning
  have noOverloads : registry.operators store operator [.int left, .int right] = [] := rfl
  simp only [Effect.binary, noOverloads, meant]

section Instructions

variable {host : Host} {program : Program} {footing : Footing}
  {first behind slot stopSlot stepSlot : Nat} {slots operands : List Value} {store : Store}
  {seen : List Value} {number last stride : Int64}

/-- The test lets the number through to the body, or leaves the loop. -/
theorem walks_rangeTest
    (has : program.Has first (Code.rangeTest first behind slot stopSlot stepSlot))
    (held : slots[slot]? = some (.int number)) (stops : slots[stopSlot]? = some (.int last))
    (strides : slots[stepSlot]? = some (.int stride))
    (room : ∀ value, footing.Room slots (operands ++ [value])) :
    host.Walks program (Machine.Within first (first + 12) footing.depth)
      (footing.machine first slots operands store) seen
      (footing.machine (if inRange number.toInt last.toInt stride.toInt then first + 12 else behind)
        slots operands store) seen := by
  have one := (room .unit).of_snoc
  have branches : ∀ truth : Bool, host.Walks program
      (Machine.Within first (first + 12) footing.depth)
      (footing.machine (first + 11) slots (operands ++ [.bool truth]) store) seen
      (footing.machine (if truth then first + 12 else behind) slots operands store) seen := by
    intro truth
    cases truth with
    | true =>
        exact Footing.walk (by omega) (by omega)
          (Footing.jumpIfFalse_stays (has 11 _ rfl) rfl) .stay
    | false =>
        exact Footing.walk (by omega) (by omega)
          (Footing.jumpIfFalse_jumps (has 11 _ rfl) rfl) .stay
  refine Footing.walk (by omega) (by omega) (Footing.loadLocal (has 0 _ rfl) strides one) ?_
  refine Footing.walk (by omega) (by omega) (Footing.pushConst (has 1 _ rfl) (room _)) ?_
  refine Footing.walk (by omega) (by omega)
    (Footing.binary (has 2 _ rfl) (Effect.binary_int rfl) one) ?_
  unfold inRange
  by_cases down : stride.toInt < 0
  · rw [if_pos down]
    refine Footing.walk (by omega) (by omega)
      (Footing.jumpIfFalse_stays (has 3 _ rfl) (decide_eq_true down)) ?_
    refine Footing.walk (by omega) (by omega) (Footing.loadLocal (has 4 _ rfl) held one) ?_
    refine Footing.walk (by omega) (by omega) (Footing.loadLocal (has 5 _ rfl) stops (room _)) ?_
    refine Footing.walk (by omega) (by omega)
      (Footing.binary (has 6 _ rfl) (Effect.binary_int rfl) one) ?_
    exact Footing.walk (by omega) (by omega) (Footing.jump (has 7 _ rfl)) (branches _)
  · rw [if_neg down]
    refine Footing.walk (by omega) (by omega)
      (Footing.jumpIfFalse_jumps (has 3 _ rfl) (decide_eq_false down)) ?_
    refine Footing.walk (by omega) (by omega) (Footing.loadLocal (has 8 _ rfl) held one) ?_
    refine Footing.walk (by omega) (by omega) (Footing.loadLocal (has 9 _ rfl) stops (room _)) ?_
    exact Footing.walk (by omega) (by omega)
      (Footing.binary (has 10 _ rfl) (Effect.binary_int rfl) one) (branches _)

/-- Behind the body the loop counts on, if the next number fits 64 bits. -/
theorem walks_rangeNext (has : program.Has behind (Code.rangeNext first slot stepSlot))
    (held : slots[slot]? = some (.int number)) (strides : slots[stepSlot]? = some (.int stride))
    (room : ∀ value, footing.Room slots (operands ++ [value]))
    (fits : fitsInt64 (number.toInt + stride.toInt) = true) :
    host.Walks program (Machine.Within behind (behind + 5) footing.depth)
      (footing.machine behind slots operands store) seen
      (footing.machine first
        (slots.set slot (.int (Int64.ofInt (number.toInt + stride.toInt)))) operands store)
      seen := by
  have sum : intBinary .add number stride =
      some (.ok (.int (Int64.ofInt (number.toInt + stride.toInt)))) := by
    simp [intBinary, checkedInt, fits]
  have inside := (List.getElem?_eq_some_iff.mp held).1
  have one := (room .unit).of_snoc
  refine Footing.walk (by omega) (by omega) (Footing.loadLocal (has 0 _ rfl) held one) ?_
  refine Footing.walk (by omega) (by omega) (Footing.loadLocal (has 1 _ rfl) strides (room _)) ?_
  refine Footing.walk (by omega) (by omega)
    (Footing.binary (has 2 _ rfl) (Effect.binary_int sum) one) ?_
  refine Footing.walk (by omega) (by omega) (Footing.storeLocal (has 3 _ rfl) inside) ?_
  exact Footing.walk (by omega) (by omega) (Footing.jump (has 4 _ rfl)) .stay

/-- The fault of counting on where the next number does not fit 64 bits. -/
def countingFault (number stride : Int) : RuntimeFault :=
  .unknown ("integer overflow in " ++ toString number ++ " " ++ BinaryOp.add.symbol ++ " " ++
    toString stride)

/-- If the next number does not fit 64 bits, the loop faults in place of counting on. -/
theorem rangeNext_overflows (has : program.Has behind (Code.rangeNext first slot stepSlot))
    (held : slots[slot]? = some (.int number)) (strides : slots[stepSlot]? = some (.int stride))
    (room : ∀ value, footing.Room slots (operands ++ [value]))
    (large : fitsInt64 (number.toInt + stride.toInt) = false) :
    ∃ stopped faulted,
      host.Walks program (Machine.Within behind (behind + 5) footing.depth)
        (footing.machine behind slots operands store) seen stopped seen ∧
      (host.surroundings program seen).Steps stopped
        (.error (countingFault number.toInt stride.toInt), faulted) := by
  have sum : intBinary .add number stride =
      some (.error (countingFault number.toInt stride.toInt)) := by
    simp [intBinary, checkedInt, large, countingFault]
  have one := (room .unit).of_snoc
  exact ⟨_, _, Footing.walk (by omega) (by omega) (Footing.loadLocal (has 0 _ rfl) held one)
      (Footing.walk (by omega) (by omega) (Footing.loadLocal (has 1 _ rfl) strides (room _)) .stay),
    Footing.binary_fails (has 2 _ rfl) (Effect.binary_int sum)⟩

end Instructions

/-! ## Laps -/

/-- The code of a numeric loop, and the slots that it uses. -/
structure RangeLoop where
  position : Nat
  stopCode : List Instruction
  stepCode : List Instruction
  startCode : List Instruction
  bodyCode : List Instruction
  /-- The slot of the variable. -/
  slot : Nat
  stopSlot : Nat
  stepSlot : Nat

namespace RangeLoop

variable (loop : RangeLoop)

/-- Where the stop has been evaluated. -/
def stopEnd : Nat := loop.position + loop.stopCode.length

/-- Where the step has been evaluated. -/
def stepEnd : Nat := loop.stopEnd + 1 + loop.stepCode.length

/-- Where the start has been evaluated. -/
def startEnd : Nat := loop.stepEnd + 2 + loop.startCode.length

/-- Where the test begins. -/
def test : Nat := loop.startEnd + 1

def bodyAt : Nat := loop.test + 12

def bodyEnd : Nat := loop.bodyAt + loop.bodyCode.length

/-- Where the statement behind the loop begins. -/
def behind : Nat := loop.bodyEnd + 5

theorem ordered : loop.position ≤ loop.stopEnd ∧ loop.stopEnd < loop.stepEnd ∧
    loop.stepEnd + 1 < loop.startEnd ∧ loop.startEnd < loop.test ∧ loop.test + 12 = loop.bodyAt ∧
    loop.bodyAt ≤ loop.bodyEnd ∧ loop.bodyEnd + 5 = loop.behind := by
  refine ⟨?_, ?_, ?_, ?_, ?_, ?_, ?_⟩ <;>
    simp only [behind, bodyEnd, bodyAt, test, startEnd, stepEnd, stopEnd] <;> omega

def code : List Instruction :=
  loop.stopCode ++ ([.storeLocal loop.stopSlot] ++ (loop.stepCode ++
    ([.checkStep, .storeLocal loop.stepSlot] ++ (loop.startCode ++ ([.storeLocal loop.slot] ++
      (Code.rangeTest loop.test loop.behind loop.slot loop.stopSlot loop.stepSlot ++
        (loop.bodyCode ++ Code.rangeNext loop.test loop.slot loop.stepSlot)))))))

/-- The slots of the stop and the step with their values. -/
def bounds (last stride : Int64) : List (Nat × Value) :=
  [(loop.stopSlot, .int last), (loop.stepSlot, .int stride)]

/-- The loop has its code in a program. Its slots are different, and none of the code between writes
to those of the stop and the step. -/
structure Placed (program : Program) : Prop where
  has : program.Has loop.position loop.code
  stop : loop.stopSlot ≠ loop.stepSlot ∧ loop.stopSlot ≠ loop.slot
  step : loop.stepSlot ≠ loop.slot
  stepCode : ∀ slot, .storeLocal slot ∈ loop.stepCode → slot ≠ loop.stopSlot
  startCode : ∀ slot, .storeLocal slot ∈ loop.startCode →
    slot ≠ loop.stopSlot ∧ slot ≠ loop.stepSlot
  bodyCode : ∀ slot, .storeLocal slot ∈ loop.bodyCode →
    slot ≠ loop.stopSlot ∧ slot ≠ loop.stepSlot

/-- The machine is at work in the loop's frame, but neither in the bounds nor in the body. -/
def Controls (level : Nat) (machine : Machine) : Prop :=
  machine.Within loop.startEnd loop.bodyAt level ∨ machine.Within loop.bodyEnd loop.behind level

/-- A run of the loop that carries out the body once for each number, in order, and nothing but the
loop's own instructions before, between and behind. At the start of the body the variable has the
number. -/
inductive Laps (host : Host) (program : Program) (level : Nat) :
    List Int → Machine → List Value → Machine → List Value → Prop
  | done {machine later seen}
      (walks : host.Walks program (loop.Controls level) machine seen later seen) :
      Laps host program level [] machine seen later seen
  | lap {number : Int64} {numbers machine inside ended later} {seen seenEnded after : List Value}
      (arrives : host.Walks program (loop.Controls level) machine seen inside seen)
      (atLevel : inside.depth = level) (bound : inside.local? loop.slot = some (.int number))
      (body : host.Runs program loop.bodyAt loop.bodyEnd inside seen ended seenEnded)
      (laps : Laps host program level numbers ended seenEnded later after) :
      Laps host program level (number.toInt :: numbers) machine seen later after

variable {loop} {host : Host} {program : Program}

theorem Controls.of_test {level : Nat} {machine : Machine}
    (within : machine.Within loop.test loop.bodyAt level) : loop.Controls level machine :=
  .inl (within.widen (Nat.le_succ _) (Nat.le_refl _))

theorem Laps.after {level : Nat} {numbers : List Int} {machine middle later : Machine}
    {seen after : List Value}
    (walks : host.Walks program (loop.Controls level) machine seen middle seen)
    (laps : loop.Laps host program level numbers middle seen later after) :
    loop.Laps host program level numbers machine seen later after := by
  cases laps with
  | done rest => exact .done (walks.trans rest)
  | lap arrives atLevel bound body laps => exact .lap (walks.trans arrives) atLevel bound body laps

/-- Code that does not write to the slots of the bounds. -/
theorem untouched_bounds {position : Nat} {code : List Instruction} {last stride : Int64}
    (has : program.Has position code)
    (apart : ∀ slot, .storeLocal slot ∈ code → slot ≠ loop.stopSlot ∧ slot ≠ loop.stepSlot) :
    program.Untouched position (position + code.length) (loop.bounds last stride) := by
  refine has.untouched fun slot among entry bound => ?_
  rcases List.mem_cons.mp bound with rfl | bound
  · exact Ne.symm (apart slot among).1
  · rw [List.mem_singleton.mp bound]
    exact Ne.symm (apart slot among).2

namespace Placed

variable (placed : loop.Placed program)

include placed

theorem hasStop : program.Has loop.position loop.stopCode := placed.has.front

theorem storesStop : program.instructions[loop.stopEnd]? = some (.storeLocal loop.stopSlot) :=
  placed.has.back.front 0 _ rfl

theorem hasStep : program.Has (loop.stopEnd + 1) loop.stepCode := placed.has.back.back.front

theorem checksStep : program.instructions[loop.stepEnd]? = some .checkStep :=
  placed.has.back.back.back.front 0 _ rfl

theorem storesStep : program.instructions[loop.stepEnd + 1]? = some (.storeLocal loop.stepSlot) :=
  placed.has.back.back.back.front 1 _ rfl

theorem hasStart : program.Has (loop.stepEnd + 2) loop.startCode :=
  placed.has.back.back.back.back.front

theorem storesStart : program.instructions[loop.startEnd]? = some (.storeLocal loop.slot) :=
  placed.has.back.back.back.back.back.front 0 _ rfl

theorem hasTest : program.Has loop.test
    (Code.rangeTest loop.test loop.behind loop.slot loop.stopSlot loop.stepSlot) :=
  placed.has.back.back.back.back.back.back.front

theorem hasBody : program.Has loop.bodyAt loop.bodyCode :=
  placed.has.back.back.back.back.back.back.back.front

theorem hasNext :
    program.Has loop.bodyEnd (Code.rangeNext loop.test loop.slot loop.stepSlot) :=
  placed.has.back.back.back.back.back.back.back.back

end Placed

end RangeLoop

/-! ## A loop in a frame -/

/-- How a loop is left. If the number behind the last one fits 64 bits, the run goes on behind the
loop, in the same frame; if not, it stops with the fault of counting on. -/
def RangeLoop.Leaves (loop : RangeLoop) (host : Host) (program : Program) (depth base : Nat)
    (first stride : Int) (count : Nat) (later : Machine) (after : List Value) : Prop :=
  if fitsInt64 (first + count * stride) then
    later.ip = loop.behind ∧ later.depth = depth ∧ later.base = base
  else
    ∃ faulted, (host.surroundings program after).Steps later
      (.error (countingFault (first + (count - 1) * stride) stride), faulted)

theorem RangeLoop.Leaves.earlier {loop : RangeLoop} {host : Host} {program : Program}
    {depth base count : Nat} {first stride : Int} {later : Machine} {after : List Value}
    (leaves : loop.Leaves host program depth base (first + stride) stride count later after) :
    loop.Leaves host program depth base first stride (count + 1) later after := by
  have behind : first + (count + 1 : Nat) * stride = first + stride + count * stride := by
    rw [Int.natCast_add, Int.add_mul]
    omega
  have final :
      first + ((count + 1 : Nat) - 1) * stride = first + stride + (count - 1) * stride := by
    rw [Int.natCast_add, Int.sub_mul, Int.sub_mul, Int.add_mul]
    omega
  unfold RangeLoop.Leaves at leaves ⊢
  rw [behind, final]
  exact leaves

/-- What is asked of the parts of a loop. The stop, the step and the start are evaluated to numbers,
and with the start there is room for one more operand. Whenever the body starts, it runs to its end,
and behind it the variable has the value that it had in front of it. -/
structure RangeLoop.Regular (loop : RangeLoop) (host : Host) (program : Program) (capacity : Nat)
    (machine : Machine) (seen : List Value) (first last stride : Int64) : Prop where
  stop : host.Carries program (Machine.Within loop.position loop.behind machine.depth) machine seen
    loop.position loop.stopEnd fun _ ended => ended.stack.items.back? = some (.int last)
  step : host.Carries program (Machine.Within loop.position loop.behind machine.depth) machine seen
    (loop.stopEnd + 1) loop.stepEnd fun _ ended => ended.stack.items.back? = some (.int stride)
  start : host.Carries program (Machine.Within loop.position loop.behind machine.depth) machine seen
    (loop.stepEnd + 2) loop.startEnd fun _ ended =>
      ended.stack.items.back? = some (.int first) ∧ ended.stack.items.size < capacity
  body : host.Carries program (Machine.Within loop.position loop.behind machine.depth) machine seen
    loop.bodyAt loop.bodyEnd fun inside ended =>
      ended.local? loop.slot = inside.local? loop.slot

/-- A chart knows the function that the loop is in. -/
def RangeLoop.Charted (loop : RangeLoop) (chart : Chart) (shape : Shape) : Prop :=
  ∀ ip, loop.position ≤ ip → ip < loop.behind → ∃ point, chart ip = some (shape, point)

namespace RangeLoop

section Frames

variable {host : Host} {program : Program} {chart : Chart} {capacity : Nat} {loop : RangeLoop}
  {shape : Shape} {outer : List Activation} {machine : Machine}
  {number last stride : Int64} (placed : loop.Placed program)

include placed

theorem Placed.running_test : ¬program.AllocatesAt loop.test :=
  Program.not_allocatesAt (placed.hasTest 0 _ rfl) nofun

theorem Placed.running_bodyEnd : ¬program.AllocatesAt loop.bodyEnd :=
  Program.not_allocatesAt (placed.hasNext 0 _ rfl) nofun

variable (charted : program.Charted chart)

include charted

/-- Behind the body as many operands are waiting as in front of it. -/
theorem Placed.pending_bodyEnd (covered : loop.Charted chart shape) :
    chart.counts.pending loop.bodyEnd = chart.counts.pending loop.test := by
  have ordered := loop.ordered
  have next := placed.hasNext
  have places : ∀ offset, offset < 5 →
      ∃ point, chart (loop.bodyEnd + offset) = some (shape, point) :=
    fun offset early => covered _ (by omega) (by omega)
  rcases places 0 (by omega) with ⟨_, here⟩
  rcases places 1 (by omega) with ⟨_, second⟩
  rcases places 2 (by omega) with ⟨_, third⟩
  rcases places 3 (by omega) with ⟨_, fourth⟩
  rcases places 4 (by omega) with ⟨_, fifth⟩
  have loadsNumber := charted.pending_loadLocal here (next 0 _ rfl)
  have loadsStep := charted.pending_loadLocal second (next 1 _ rfl)
  have adds := charted.pending_binary third (next 2 _ rfl)
  have stores := charted.pending_storeLocal fourth (next 3 _ rfl)
  have jumps := charted.pending_jump fifth (next 4 _ rfl)
  simp only [Nat.add_zero, Nat.add_assoc, Nat.reduceAdd] at *
  omega

/-- The start is one more operand. -/
theorem Placed.pending_startEnd (covered : loop.Charted chart shape) :
    chart.counts.pending loop.startEnd = chart.counts.pending loop.test + 1 := by
  have ordered := loop.ordered
  rcases covered loop.startEnd (by omega) (by omega) with ⟨_, here⟩
  exact charted.pending_storeLocal here placed.storesStart

variable (bounded : capacity ≤ twoTo 63) (small : program.size < twoTo 63)
  (sound : host.Sound program) (room : chart.height program outer shape loop.test + 2 ≤ capacity)

  (seen : List Value)

include room

omit seen in
/-- What the frame holds behind the body, and what it stands on. -/
theorem Placed.footing_bodyEnd (covered : loop.Charted chart shape)
    (keeps : machine.Keeps program chart capacity outer shape
      ((loop.slot, .int number) :: loop.bounds last stride))
    (here : machine.ip = loop.bodyEnd) :
    ∃ (footing : Footing) (slots operands : List Value),
      machine = footing.machine loop.bodyEnd slots operands machine.store ∧
      slots[loop.slot]? = some (.int number) ∧ slots[loop.stepSlot]? = some (.int stride) ∧
      slots.length = shape.arity + frameHeader + shape.locals ∧
      (∀ value, footing.Room slots (operands ++ [value])) ∧ footing.depth = machine.depth := by
  rcases keeps.footing charted (here ▸ placed.running_bodyEnd) with
    ⟨footing, slots, operands, framed, holds, length, height, rfl, depth⟩
  rw [here] at framed height
  refine ⟨footing, slots, operands, framed, holds (loop.slot, _) (.head _),
    holds (loop.stepSlot, _) (.tail _ (.tail _ (.head _))), length, Footing.room_snoc ?_, depth⟩
  rw [height, Chart.height, placed.pending_bodyEnd charted covered]
  exact room

/-- If the next number does not fit 64 bits, the run stops behind the body. -/
theorem Placed.overflows (covered : loop.Charted chart shape)
    (keeps : machine.Keeps program chart capacity outer shape
      ((loop.slot, .int number) :: loop.bounds last stride))
    (here : machine.ip = loop.bodyEnd) (large : fitsInt64 (number.toInt + stride.toInt) = false) :
    ∃ stopped faulted,
      host.Walks program (Machine.Within loop.bodyEnd loop.behind machine.depth) machine seen
        stopped seen ∧
      (host.surroundings program seen).Steps stopped
        (.error (countingFault number.toInt stride.toInt), faulted) := by
  rcases placed.footing_bodyEnd charted room covered keeps here with
    ⟨footing, slots, operands, framed, held, strides, _, roomy, depth⟩
  rcases @rangeNext_overflows host program footing loop.test loop.bodyEnd _ _ slots operands
    machine.store seen number stride placed.hasNext held strides roomy large with
    ⟨stopped, faulted, walks, faults⟩
  rw [← framed, depth] at walks
  exact ⟨stopped, faulted, walks, faults⟩

include bounded small sound

/-- Behind the body the next number is tested, if it fits 64 bits. -/
theorem Placed.counts (covered : loop.Charted chart shape)
    (reached : Reached program capacity machine)
    (keeps : machine.Keeps program chart capacity outer shape
      ((loop.slot, .int number) :: loop.bounds last stride))
    (here : machine.ip = loop.bodyEnd) (fits : fitsInt64 (number.toInt + stride.toInt) = true) :
    ∃ later, host.Walks program (Machine.Within loop.bodyEnd loop.behind machine.depth) machine seen
        later seen ∧
      later.ip = loop.test ∧
      later.Keeps program chart capacity outer shape
        ((loop.slot, .int (Int64.ofInt (number.toInt + stride.toInt))) ::
          loop.bounds last stride) := by
  rcases placed.footing_bodyEnd charted room covered keeps here with
    ⟨footing, slots, operands, framed, held, strides, length, roomy, depth⟩
  have inside := (List.getElem?_eq_some_iff.mp held).1
  have walks := @walks_rangeNext host program footing loop.test loop.bodyEnd _ _ slots operands
    machine.store seen number stride placed.hasNext held strides roomy fits
  rw [← framed, depth] at walks
  have apart : ∀ slot, .storeLocal slot ∈ Code.rangeNext loop.test loop.slot loop.stepSlot →
      slot ≠ loop.stopSlot ∧ slot ≠ loop.stepSlot := by
    intro slot among
    have own : slot = loop.slot := by simpa [Code.rangeNext] using among
    rw [own]
    exact ⟨Ne.symm placed.stop.2, Ne.symm placed.step⟩
  have bounds := walks.keeps charted bounded small sound depth reached
    (keeps.subset (List.subset_cons_self _ _)) (untouched_bounds placed.hasNext apart)
  refine ⟨_, walks, rfl, bounds.cons charted placed.running_test (by omega) ?_⟩
  exact Footing.local? (List.getElem?_set_self inside)

/-- The test decides whether the body comes next. -/
theorem Placed.tests (reached : Reached program capacity machine)
    (keeps : machine.Keeps program chart capacity outer shape
      ((loop.slot, .int number) :: loop.bounds last stride))
    (here : machine.ip = loop.test) :
    ∃ later, host.Walks program (Machine.Within loop.test loop.bodyAt machine.depth) machine seen
        later seen ∧
      later.ip = (if inRange number.toInt last.toInt stride.toInt then loop.bodyAt
        else loop.behind) ∧
      later.Keeps program chart capacity outer shape
        ((loop.slot, .int number) :: loop.bounds last stride) := by
  rcases keeps.footing charted (here ▸ placed.running_test) with
    ⟨footing, slots, operands, framed, holds, _, height, rfl, depth⟩
  rw [here] at framed height
  have walks := @walks_rangeTest host program footing loop.test loop.behind _ _ _ slots operands
    machine.store seen number last stride placed.hasTest (holds (loop.slot, _) (.head _))
    (holds (loop.stopSlot, _) (.tail _ (.head _)))
    (holds (loop.stepSlot, _) (.tail _ (.tail _ (.head _))))
    (Footing.room_snoc (by rw [height]; exact room))
  rw [← framed, depth] at walks
  refine ⟨_, walks, rfl, walks.keeps charted bounded small sound depth reached keeps ?_⟩
  exact placed.hasTest.untouched (by simp [Code.rangeTest])

omit room in
/-- The body runs, and the loop's slots are what they were. -/
theorem Placed.repeats (inside : loop.slot < shape.arity + frameHeader + shape.locals)
    (reached : Reached program capacity machine)
    (keeps : machine.Keeps program chart capacity outer shape
      ((loop.slot, .int number) :: loop.bounds last stride))
    {ended : Machine} {after : List Value}
    (runs : host.Runs program loop.bodyAt loop.bodyEnd machine seen ended after)
    (same : ended.local? loop.slot = machine.local? loop.slot) :
    ended.Keeps program chart capacity outer shape
      ((loop.slot, .int number) :: loop.bounds last stride) := by
  have bounds := runs.walks.keeps charted bounded small sound runs.level reached
    (keeps.subset (List.subset_cons_self _ _)) (untouched_bounds placed.hasBody placed.bodyCode)
  refine bounds.cons charted (runs.ends ▸ placed.running_bodyEnd) inside ?_
  exact same.trans (keeps.local? (.head _))

/-- A lap: the test lets the number through, and the body runs. -/
theorem Placed.lap (within : inRange number.toInt last.toInt stride.toInt = true)
    (reached : Reached program capacity machine)
    (keeps : machine.Keeps program chart capacity outer shape
      ((loop.slot, .int number) :: loop.bounds last stride))
    (here : machine.ip = loop.test)
    (carries : host.Carries program (Machine.Within loop.position loop.behind machine.depth) machine
      seen loop.bodyAt loop.bodyEnd fun inside ended =>
        ended.local? loop.slot = inside.local? loop.slot) :
    ∃ inside ended after,
      host.Walks program (loop.Controls machine.depth) machine seen inside seen ∧
      inside.depth = machine.depth ∧ inside.local? loop.slot = some (.int number) ∧
      host.Runs program loop.bodyAt loop.bodyEnd inside seen ended after ∧
      host.Walks program (Machine.Within loop.position loop.behind machine.depth) machine seen ended
        after ∧
      ended.Keeps program chart capacity outer shape
        ((loop.slot, .int number) :: loop.bounds last stride) := by
  rcases placed.tests charted bounded small sound room seen reached keeps here with
    ⟨inside, tested, goes, keepsInside⟩
  rw [if_pos within] at goes
  have level : inside.depth = machine.depth := keepsInside.depth.trans keeps.depth.symm
  have ordered := loop.ordered
  have whole : host.Walks program (Machine.Within loop.position loop.behind machine.depth) machine
      seen inside seen :=
    tested.mono fun _ testing => testing.widen (by omega) (by omega)
  rcases carries inside seen whole level goes with ⟨ended, after, runs, same⟩
  rcases keeps.footing charted (here ▸ placed.running_test) with ⟨_, slots, _, _, holds, length, _⟩
  have slot := (List.getElem?_eq_some_iff.mp (holds _ (.head _))).1
  have body := runs.walks
  rw [level] at body
  refine ⟨inside, ended, after, tested.mono fun _ => Controls.of_test, level,
    keepsInside.local? (.head _), runs,
    whole.trans (body.mono fun _ working => working.widen (by omega) (by omega)), ?_⟩
  exact placed.repeats charted bounded small sound seen (by omega)
    (tested.reached charted bounded small sound reached) keepsInside runs same

/-- From the test on the loop goes through the numbers that are left. -/
theorem Placed.laps (covered : loop.Charted chart shape) {count : Nat}
    (left : NumbersLeft number last stride count)
    (reached : Reached program capacity machine)
    (keeps : machine.Keeps program chart capacity outer shape
      ((loop.slot, .int number) :: loop.bounds last stride))
    (here : machine.ip = loop.test)
    (carries : host.Carries program (Machine.Within loop.position loop.behind machine.depth) machine
      seen loop.bodyAt loop.bodyEnd fun inside ended =>
        ended.local? loop.slot = inside.local? loop.slot) :
    ∃ later after,
      loop.Laps host program machine.depth (numbersFrom number.toInt stride.toInt count) machine
        seen later after ∧
      loop.Leaves host program machine.depth machine.base number.toInt stride.toInt count later
        after := by
  induction count generalizing number machine seen with
  | zero =>
      rcases placed.tests charted bounded small sound room seen reached keeps here with
        ⟨later, tested, goes, keepsLater⟩
      rw [if_neg (left.inRange_iff.not.mpr (Nat.lt_irrefl 0))] at goes
      refine ⟨later, seen, .done (tested.mono fun _ => Controls.of_test), ?_⟩
      unfold Leaves
      rw [Int.natCast_zero, Int.zero_mul, Int.add_zero, if_pos (fitsInt64_toInt number)]
      exact ⟨goes, keepsLater.depth.trans keeps.depth.symm, keepsLater.base.trans keeps.base.symm⟩
  | succ count ih =>
      have first := left.inRange_iff.mpr (Nat.succ_pos count)
      rcases placed.lap charted bounded small sound room seen first reached keeps here carries with
        ⟨inside, ended, after, arrives, level, bound, runs, whole, keepsEnded⟩
      have reachedEnded := whole.reached charted bounded small sound reached
      have same : ended.depth = machine.depth := runs.level.trans level
      cases fits : fitsInt64 (number.toInt + stride.toInt) with
      | true =>
          rcases placed.counts charted bounded small sound room after covered reachedEnded
            keepsEnded runs.ends fits with ⟨next, counted, goes, keepsNext⟩
          have sum := toInt_ofInt_of_fits fits
          have levelNext : next.depth = machine.depth := keepsNext.depth.trans keeps.depth.symm
          have baseNext : next.base = machine.base := keepsNext.base.trans keeps.base.symm
          rw [same] at counted
          have ordered := loop.ordered
          have carriesNext := carries.onward (whole.trans (counted.mono fun _ counting =>
            counting.widen (by omega) (by omega))) levelNext
          rw [← levelNext] at carriesNext
          have reachedNext := counted.reached charted bounded small sound reachedEnded
          rcases ih after (left.next fits) reachedNext keepsNext goes carriesNext with ⟨later, final, laps, leaves⟩
          rw [sum, levelNext] at laps
          rw [sum, levelNext, baseNext] at leaves
          refine ⟨later, final, ?_, leaves.earlier⟩
          rw [numbersFrom_succ]
          exact .lap arrives level bound runs (laps.after (counted.mono fun _ => .inr))
      | false =>
          have last := left.last_of_large fits
          subst last
          rcases placed.overflows charted room after covered keepsEnded runs.ends fits with
            ⟨stopped, faulted, counted, faults⟩
          rw [same] at counted
          refine ⟨stopped, after, ?_, ?_⟩
          · rw [numbersFrom_succ]
            exact .lap arrives level bound runs (.done (counted.mono fun _ => .inr))
          unfold Leaves
          rw [Int.natCast_one, Int.one_mul, if_neg (by rw [fits]; exact Bool.false_ne_true),
            Int.sub_self, Int.zero_mul, Int.add_zero]
          exact ⟨faulted, faults⟩

omit room in
/-- The bounds are evaluated and kept, and the start is evaluated behind them. -/
theorem Placed.starts {first : Int64} (nonzero : stride ≠ 0)
    (reached : Reached program capacity machine)
    (keeps : machine.Keeps program chart capacity outer shape [])
    (here : machine.ip = loop.position)
    (regular : loop.Regular host program capacity machine seen first last stride) :
    ∃ entered after, host.Runs program loop.position loop.startEnd machine seen entered after ∧
      entered.stack.items.back? = some (.int first) ∧ entered.stack.items.size < capacity ∧
      entered.Keeps program chart capacity outer shape (loop.bounds last stride) := by
  have ordered := loop.ordered
  rcases regular.stop machine seen .stay rfl here with ⟨stopped, seenStop, stop, topStop⟩
  rcases stop.store charted bounded small sound ordered.1 reached keeps
    (placed.hasStop.untouched fun _ _ => List.forall_mem_nil _) placed.storesStop topStop
    (List.forall_mem_nil _) with ⟨stopKept, stop, keepsStop⟩
  have reachedStop := stop.walks.reached charted bounded small sound reached
  rcases regular.step.behind stop (Nat.le_refl _) (by omega) with ⟨stepped, seenStep, step, topStep⟩
  have checks := @Surroundings.steps_checkStep (host.surroundings program seenStep) _ _
    (step.ends ▸ placed.checksStep) topStep (by simpa [Value.isZeroStep] using nonzero)
  have checked := step.next checks rfl rfl (by omega)
  have untouchedStep : program.Untouched (loop.stopEnd + 1) loop.stepEnd
      [(loop.stopSlot, .int last)] := placed.hasStep.untouched (by
    intro slot among entry bound
    rw [List.mem_singleton.mp bound]
    exact Ne.symm (placed.stepCode slot among))
  rcases checked.store charted bounded small sound (by omega) reachedStop keepsStop
    (untouchedStep.snoc placed.checksStep fun _ => Instruction.noConfusion) placed.storesStep
    topStep (by simpa using placed.stop.1) with ⟨stepKept, step, keepsStep⟩
  have whole := stop.trans step (by omega) (by omega)
  rcases regular.start.behind whole (Nat.le_refl _) (by omega) with
    ⟨entered, seenStart, start, top, room⟩
  have swapped : loop.bounds last stride ⊆
      [(loop.stepSlot, .int stride), (loop.stopSlot, .int last)] :=
    (List.Perm.swap _ _ []).subset
  refine ⟨entered, seenStart, whole.trans start (by omega) (by omega), top, room, ?_⟩
  exact start.walks.keeps charted bounded small sound start.level
    (whole.walks.reached charted bounded small sound reached) (keepsStep.subset swapped)
    (untouched_bounds placed.hasStart placed.startCode)

omit room in
/-- A loop from its first instruction on: the bounds, and then a lap for each number. -/
theorem Placed.runs {first : Int64} (covered : loop.Charted chart shape) (nonzero : stride ≠ 0)
    (reached : Reached program capacity machine)
    (keeps : machine.Keeps program chart capacity outer shape [])
    (here : machine.ip = loop.position)
    (regular : loop.Regular host program capacity machine seen first last stride) :
    ∃ entered seenEntered later after,
      host.Runs program loop.position loop.startEnd machine seen entered seenEntered ∧
      loop.Laps host program machine.depth (rangeNumbers first.toInt last.toInt stride.toInt)
        entered seenEntered later after ∧
      loop.Leaves host program machine.depth machine.base first.toInt stride.toInt
        (rangeCount first.toInt last.toInt stride.toInt) later after := by
  have ordered := loop.ordered
  rcases placed.starts charted bounded small sound seen nonzero reached keeps here regular with
    ⟨entered, seenEntered, start, top, room, keepsEntered⟩
  have reachedEntered := start.walks.reached charted bounded small sound reached
  have roomy : chart.height program outer shape loop.test + 2 ≤ capacity := by
    have running : ¬program.AllocatesAt entered.ip :=
      start.ends ▸ Program.not_allocatesAt placed.storesStart nofun
    rcases keepsEntered.footing charted running with
      ⟨footing, slots, operands, framed, _, _, height, _, _⟩
    have size : entered.stack.items.size = chart.height program outer shape loop.startEnd := by
      rw [← start.ends, ← height, framed]
      rfl
    rw [Chart.height, placed.pending_startEnd charted covered] at size
    rw [Chart.height]
    omega
  have atStart : host.Runs program loop.startEnd loop.startEnd entered seenEntered entered
    seenEntered := ⟨start.ends, .stay, start.ends, rfl⟩
  have untouched : program.Untouched loop.startEnd loop.startEnd (loop.bounds last stride) :=
    fun ip slot lower upper => absurd lower (Nat.not_le.mpr upper)
  rcases atStart.store charted bounded small sound (Nat.le_refl _) reachedEntered keepsEntered
    untouched placed.storesStart top (by simpa [bounds] using ⟨placed.stop.2, placed.step⟩) with
    ⟨ready, stored, keepsReady⟩
  have whole := start.trans stored (by omega) (by omega)
  have nonzeroInt : stride.toInt ≠ 0 := fun zero => nonzero (Int64.toInt_inj.mp zero)
  have carries := regular.body.onward
    (whole.walks.mono fun _ within => within.widen (Nat.le_refl _) (by omega)) whole.level
  rw [← whole.level] at carries
  rcases placed.laps charted bounded small sound roomy seenEntered covered
    (lt_rangeCount nonzeroInt) (whole.walks.reached charted bounded small sound reached) keepsReady
    stored.ends carries with ⟨later, after, laps, leaves⟩
  rw [whole.level] at laps leaves
  rw [keepsReady.base.trans keeps.base.symm] at leaves
  refine ⟨entered, seenEntered, later, after, start, laps.after ?_, leaves⟩
  have walks := stored.walks
  rw [start.level] at walks
  exact walks.mono fun _ within => .inl (within.widen (Nat.le_refl _) (by omega))

end Frames

end RangeLoop

end ScriptMachine
