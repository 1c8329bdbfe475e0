import ScriptMachine.Proofs.Compiler.Lowered

/-!
# What is known before each instruction

A point says what a frame looks like before an instruction: whether its locals are there yet,
whether the function is noted for fault reports, how many operands wait above the locals, what is
known of each operand, and which local slots hold iterators. An instruction is checked at a point if
it can be carried out on every such frame without running out of operands, and a piece of code is
checked if points can be given to all its places so that every instruction leads from its point to
those of its successors.

The array in which a closure keeps values gets among the operands at two places only: as the new
array that the closure is made of at once, and as the argument of the running function that an access
to a kept value loads. No other instruction takes such an operand, except to drop it.

Checked pieces are put together by `Segment.append`. A piece may jump to labels outside it; a label
is no longer needed once the place it stands for is inside.
-/

namespace ScriptMachine

/-- What is known of an operand. -/
inductive Tag where
  | any
  | iterator
  /-- The array with what the running function keeps. -/
  | carrier
deriving DecidableEq

/-- What fault reports say of a function. -/
def FunctionSource.context (source : FunctionSource) : DebugContext :=
  ⟨source.unit, source.qualified, source.range⟩

/-- A function, and how many locals its frames have. -/
structure Shape where
  source : FunctionSource
  locals : Nat

namespace Shape

def arity (shape : Shape) : Nat := shape.source.arity

/-- Whether a slot of a frame holds a parameter or a local, and not a word of the header or the array
of what the function keeps. -/
def HasSlot (shape : Shape) (slot : Nat) : Prop :=
  (shape.source.carrierCount ≤ slot ∧ slot < shape.arity) ∨
    (shape.arity + frameHeader ≤ slot ∧ slot < shape.arity + frameHeader + shape.locals)

end Shape

/-- What is known of a frame before an instruction. -/
inductive Point where
  /-- The arguments and the header are there, the locals are not. -/
  | entry
  /-- The locals are there, but the function is not noted for fault reports. -/
  | opening
  /-- The function is noted, and above the locals there are so many operands, the last pushed first.
  Some of the locals are known to hold iterators. -/
  | running (operands : List Tag) (iterators : List Nat)
  /-- Above the operands there is a new array with what a closure is to keep. -/
  | closing (operands : List Tag) (iterators : List Nat)
  /-- The function is not noted any more and is about to return. -/
  | leaving (operands : List Tag)

/-- Whether a frame that is known by the first point is also known by the second one: no less is
known about iterators. -/
inductive Point.Meets : Point → Point → Prop
  | entry : Meets .entry .entry
  | opening : Meets .opening .opening
  | running {operands : List Tag} {known needed : List Nat} (covers : needed ⊆ known) :
      Meets (.running operands known) (.running operands needed)
  | closing {operands : List Tag} {iterators : List Nat} :
      Meets (.closing operands iterators) (.closing operands iterators)
  | leaving {operands : List Tag} : Meets (.leaving operands) (.leaving operands)

theorem Point.Meets.refl (point : Point) : point.Meets point := by
  cases point with
  | entry => exact .entry
  | opening => exact .opening
  | running operands iterators => exact .running (List.Subset.refl _)
  | closing operands iterators => exact .closing
  | leaving operands => exact .leaving

/-- What the code of a function can rely on. -/
structure CodeContext where
  /-- The functions that the program has. -/
  linked : FunctionRef → Prop
  /-- How many globals there are. -/
  globals : Nat
  shape : Shape

/-- How many operands an instruction takes and leaves, if it does nothing else to its frame. -/
def Instruction.plainEffect? : Instruction → Option (Nat × Nat)
  | .nop => some (0, 0)
  | .pushConst _ | .loadStatic _ _ _ => some (0, 1)
  | .pop | .yieldValue => some (1, 0)
  | .unary _ | .loadField _ | .checkStep => some (1, 1)
  | .binary _ | .loadIndex => some (2, 1)
  | .storeField _ => some (2, 0)
  | .storeIndex => some (3, 0)
  | .callHost _ argc _ | .callStatic _ _ argc _ | .makeArray argc => some (argc, 1)
  | .callMethod _ argc | .invokeClosure argc => some (argc + 1, 1)
  | _ => none

/-- An instruction that can be carried out at a point, with the point behind it, if control ever
gets there. -/
inductive Checked (context : CodeContext) (label : Nat → Point → Prop) :
    Instruction → Point → Option Point → Prop
  | plain {instruction taken left operands iterators}
      (effect : instruction.plainEffect? = some (taken, left)) :
      Checked context label instruction
        (.running (List.replicate taken .any ++ operands) iterators)
        (some (.running (List.replicate left .any ++ operands) iterators))
  | pop {tag operands iterators} :
      Checked context label .pop (.running (tag :: operands) iterators)
        (some (.running operands iterators))
  | loadKept {operands iterators} :
      Checked context label .loadIndex (.running (.any :: .carrier :: operands) iterators)
        (some (.running (.any :: operands) iterators))
  | storeKept {operands iterators} :
      Checked context label .storeIndex (.running (.any :: .any :: .carrier :: operands) iterators)
        (some (.running operands iterators))
  | loadLocal {slot operands iterators} (valid : context.shape.HasSlot slot) :
      Checked context label (.loadLocal slot) (.running operands iterators)
        (some (.running (.any :: operands) iterators))
  | loadIterator {slot operands iterators} (valid : context.shape.HasSlot slot)
      (known : slot ∈ iterators) :
      Checked context label (.loadLocal slot) (.running operands iterators)
        (some (.running (.iterator :: operands) iterators))
  | loadCarrier {operands iterators} (keeps : 0 < context.shape.source.carrierCount) :
      Checked context label (.loadLocal 0) (.running operands iterators)
        (some (.running (.carrier :: operands) iterators))
  | storeLocal {slot operands iterators} (valid : context.shape.HasSlot slot)
      (free : slot ∉ iterators) :
      Checked context label (.storeLocal slot) (.running (.any :: operands) iterators)
        (some (.running operands iterators))
  | storeIterator {slot operands iterators} (valid : context.shape.HasSlot slot) :
      Checked context label (.storeLocal slot) (.running (.iterator :: operands) iterators)
        (some (.running operands (slot :: iterators)))
  | loadGlobal {slot operands iterators} (valid : slot < context.globals) :
      Checked context label (.loadGlobal slot) (.running operands iterators)
        (some (.running (.any :: operands) iterators))
  | storeGlobal {slot operands iterators} (valid : slot < context.globals) :
      Checked context label (.storeGlobal slot) (.running (.any :: operands) iterators)
        (some (.running operands iterators))
  | callFunction {function argc operands iterators} (linked : context.linked function) :
      Checked context label (.callFunction function argc)
        (.running (List.replicate argc .any ++ operands) iterators)
        (some (.running (.any :: operands) iterators))
  | makeCarrier {count operands iterators} :
      Checked context label (.makeArray count)
        (.running (List.replicate count .any ++ operands) iterators)
        (some (.closing operands iterators))
  | makeClosure {function operands iterators} (linked : context.linked function) :
      Checked context label (.makeClosure function) (.closing operands iterators)
        (some (.running (.any :: operands) iterators))
  | getIterator {operands iterators} :
      Checked context label .getIterator (.running (.any :: operands) iterators)
        (some (.running (.iterator :: operands) iterators))
  | iterMoveNext {operands iterators} :
      Checked context label .iterMoveNext (.running (.iterator :: operands) iterators)
        (some (.running (.any :: operands) iterators))
  | iterCurrent {operands iterators} :
      Checked context label .iterCurrent (.running (.iterator :: operands) iterators)
        (some (.running (.any :: operands) iterators))
  | jump {target operands iterators point} (there : label target point)
      (meets : (Point.running operands iterators).Meets point) :
      Checked context label (.jump target) (.running operands iterators) none
  | jumpIfFalse {target operands iterators point} (there : label target point)
      (meets : (Point.running operands iterators).Meets point) :
      Checked context label (.jumpIfFalse target) (.running (.any :: operands) iterators)
        (some (.running operands iterators))
  | jumpIfFalseKeep {target operands iterators point} (there : label target point)
      (meets : (Point.running (.any :: operands) iterators).Meets point) :
      Checked context label (.jumpIfFalseKeep target) (.running (.any :: operands) iterators)
        (some (.running operands iterators))
  | jumpIfTrueKeep {target operands iterators point} (there : label target point)
      (meets : (Point.running (.any :: operands) iterators).Meets point) :
      Checked context label (.jumpIfTrueKeep target) (.running (.any :: operands) iterators)
        (some (.running operands iterators))
  | allocFrame :
      Checked context label (.allocFrame context.shape.locals) .entry (some .opening)
  | pushDebug :
      Checked context label (.pushDebug context.shape.source.context) .opening (some (.running [] []))
  | popDebug {operands iterators} :
      Checked context label .popDebug (.running (.any :: operands) iterators)
        (some (.leaving (.any :: operands)))
  | returnValue {operands} :
      Checked context label (.returnValue context.shape.arity) (.leaving (.any :: operands)) none

theorem Checked.mono {context : CodeContext} {label wider : Nat → Point → Prop}
    {instruction : Instruction} {before : Point} {after : Option Point}
    (checked : Checked context label instruction before after)
    (included : ∀ target point, label target point → wider target point) :
    Checked context wider instruction before after := by
  cases checked with
  | plain effect => exact .plain effect
  | pop => exact .pop
  | loadKept => exact .loadKept
  | storeKept => exact .storeKept
  | loadLocal valid => exact .loadLocal valid
  | loadIterator valid known => exact .loadIterator valid known
  | loadCarrier keeps => exact .loadCarrier keeps
  | storeLocal valid free => exact .storeLocal valid free
  | storeIterator valid => exact .storeIterator valid
  | loadGlobal valid => exact .loadGlobal valid
  | storeGlobal valid => exact .storeGlobal valid
  | callFunction linked => exact .callFunction linked
  | makeCarrier => exact .makeCarrier
  | makeClosure linked => exact .makeClosure linked
  | getIterator => exact .getIterator
  | iterMoveNext => exact .iterMoveNext
  | iterCurrent => exact .iterCurrent
  | jump there meets => exact .jump (included _ _ there) meets
  | jumpIfFalse there meets => exact .jumpIfFalse (included _ _ there) meets
  | jumpIfFalseKeep there meets => exact .jumpIfFalseKeep (included _ _ there) meets
  | jumpIfTrueKeep there meets => exact .jumpIfTrueKeep (included _ _ there) meets
  | allocFrame => exact .allocFrame
  | pushDebug => exact .pushDebug
  | popDebug => exact .popDebug
  | returnValue => exact .returnValue

/-! ## Pieces of code -/

/-- A cell that can be carried out at a point. A jump out of the innermost loop is checked if that
loop leaves off at a point that is met. -/
inductive CellChecked (context : CodeContext) (label : Nat → Point → Prop) (loop : Option Point) :
    CodeCell → Point → Option Point → Prop
  | ready {instruction before after} (checked : Checked context label instruction before after) :
      CellChecked context label loop (.ready instruction) before after
  | leaveLoop {operands iterators point} (inside : loop = some point)
      (meets : (Point.running operands iterators).Meets point) :
      CellChecked context label loop .leaveLoop (.running operands iterators) none

/-- The labels outside a piece of code together with the places in it. -/
def inside (label : Nat → Point → Prop) (points : Nat → Point) (position length : Nat)
    (target : Nat) (point : Point) : Prop :=
  label target point ∨
    (position ≤ target ∧ target ≤ position + length ∧ points target = point)

/-- A piece of code that leads from one point to another. -/
def Segment (context : CodeContext) (label : Nat → Point → Prop) (loop : Option Point)
    (position : Nat) (code : Code) (before after : Point) : Prop :=
  ∃ points : Nat → Point,
    points position = before ∧ points (position + code.length) = after ∧
    ∀ index cell, code[index]? = some cell →
      ∃ next, CellChecked context (inside label points position code.length) loop cell
          (points (position + index)) next ∧
        ∀ point, next = some point → point.Meets (points (position + index + 1))

/-- A label more. -/
def withLabel (label : Nat → Point → Prop) (place : Nat) (here : Point) (target : Nat)
    (point : Point) : Prop :=
  label target point ∨ (target = place ∧ point = here)

theorem CellChecked.mono {context : CodeContext} {label wider : Nat → Point → Prop}
    {loop : Option Point} {cell : CodeCell} {before : Point} {after : Option Point}
    (checked : CellChecked context label loop cell before after)
    (included : ∀ target point, label target point → wider target point) :
    CellChecked context wider loop cell before after := by
  cases checked with
  | ready checked => exact .ready (checked.mono included)
  | leaveLoop inside meets => exact .leaveLoop inside meets

namespace Segment

variable {context : CodeContext} {label wider : Nat → Point → Prop} {loop : Option Point}
  {position : Nat} {first second code : Code} {before middle after : Point}

theorem mono (segment : Segment context label loop position code before after)
    (included : ∀ target point, label target point → wider target point) :
    Segment context wider loop position code before after := by
  rcases segment with ⟨points, start, stop, checked⟩
  refine ⟨points, start, stop, ?_⟩
  intro index cell found
  rcases checked index cell found with ⟨next, cellChecked, falls⟩
  refine ⟨next, cellChecked.mono ?_, falls⟩
  rintro target point (there | there)
  · exact .inl (included _ _ there)
  · exact .inr there

theorem nil : Segment context label loop position [] before before :=
  ⟨fun _ => before, rfl, rfl, by simp⟩

theorem cell {cell : CodeCell} {next : Option Point}
    (checked : CellChecked context label loop cell before next)
    (falls : ∀ point, next = some point → point.Meets after) :
    Segment context label loop position [cell] before after := by
  refine ⟨fun place => if place = position then before else after, by simp, by simp, ?_⟩
  intro index other found
  rcases List.getElem?_eq_some_iff.mp found with ⟨short, same⟩
  have zero : index = 0 := by simpa using short
  subst index
  simp only [List.getElem_cons_zero] at same
  subst other
  refine ⟨next, ?_, by simpa using falls⟩
  have here : (if position + 0 = position then before else after) = before := if_pos rfl
  simp only [here]
  exact checked.mono fun _ _ there => .inl there

/-- Two pieces in a row. Each may jump to the place where they meet. -/
theorem append (place : Nat) (here : position + first.length = place)
    (one : Segment context (withLabel label place middle) loop position first before middle)
    (two : Segment context (withLabel label place middle) loop place second middle after) :
    Segment context label loop position (first ++ second) before after := by
  subst place
  rcases one with ⟨left, leftStart, leftStop, leftChecked⟩
  rcases two with ⟨right, rightStart, rightStop, rightChecked⟩
  let points : Nat → Point := fun place =>
    if place < position + first.length then left place else right place
  have onLeft : ∀ place, place ≤ position + first.length → points place = left place := by
    intro place bound
    rcases Nat.lt_or_eq_of_le bound with less | same
    · exact if_pos less
    · subst place
      exact (if_neg (Nat.lt_irrefl _)).trans (rightStart.trans leftStop.symm)
  have onRight : ∀ place, position + first.length ≤ place → points place = right place :=
    fun place bound => if_neg (Nat.not_lt.mpr bound)
  have there : ∀ target point, withLabel label (position + first.length) middle target point →
      inside label points position (first ++ second).length target point := by
    rintro target point (known | ⟨rfl, rfl⟩)
    · exact .inl known
    · refine .inr ⟨by omega, by simp, ?_⟩
      rw [onRight _ (Nat.le_refl _), rightStart]
  refine ⟨points, ?_, ?_, ?_⟩
  · rw [onLeft _ (Nat.le_add_right _ _), leftStart]
  · rw [onRight _ (by simp), List.length_append, ← Nat.add_assoc, rightStop]
  · intro index cell found
    rcases Nat.lt_or_ge index first.length with early | late
    · rw [List.getElem?_append_left early] at found
      rcases leftChecked index cell found with ⟨next, checked, falls⟩
      refine ⟨next, ?_, ?_⟩
      · rw [onLeft _ (by omega)]
        refine checked.mono ?_
        rintro target point (known | ⟨lower, upper, same⟩)
        · exact there target point known
        · exact .inr ⟨lower, by simp; omega, (onLeft _ upper).trans same⟩
      · rw [onLeft _ (by omega)]
        exact falls
    · rw [List.getElem?_append_right late] at found
      rcases rightChecked _ cell found with ⟨next, checked, falls⟩
      have place : position + first.length + (index - first.length) = position + index := by omega
      rw [place] at checked falls
      refine ⟨next, ?_, ?_⟩
      · rw [onRight _ (by omega)]
        refine checked.mono ?_
        rintro target point (known | ⟨lower, upper, same⟩)
        · exact there target point known
        · exact .inr ⟨by omega, by simp; omega, (onRight _ lower).trans same⟩
      · rw [onRight _ (by omega)]
        exact falls

/-- A piece of code may jump to its own start and end. -/
theorem enclose (last : Nat) (there : position + code.length = last)
    (segment : Segment context (withLabel (withLabel label position before) last after) loop
      position code before after) :
    Segment context label loop position code before after := by
  subst last
  rcases segment with ⟨points, start, stop, checked⟩
  refine ⟨points, start, stop, ?_⟩
  intro index cell found
  rcases checked index cell found with ⟨next, cellChecked, falls⟩
  refine ⟨next, cellChecked.mono ?_, falls⟩
  rintro target point (((known | ⟨rfl, rfl⟩) | ⟨rfl, rfl⟩) | there)
  · exact .inl known
  · exact .inr ⟨Nat.le_refl _, by omega, start⟩
  · exact .inr ⟨by omega, Nat.le_refl _, stop⟩
  · exact .inr there

/-- Two pieces in a row that do not use the place where they meet. -/
theorem follow (one : Segment context label loop position first before middle)
    (two : Segment context label loop (position + first.length) second middle after) :
    Segment context label loop position (first ++ second) before after :=
  append _ rfl (one.mono fun _ _ => .inl) (two.mono fun _ _ => .inl)

theorem prepend {cell : CodeCell}
    (one : Segment context label loop position [cell] before middle)
    (rest : Segment context label loop (position + 1) code middle after) :
    Segment context label loop position (cell :: code) before after :=
  one.follow rest

theorem moved {place : Nat} (segment : Segment context label loop position code before after)
    (same : position = place) : Segment context label loop place code before after :=
  same ▸ segment

/-- The body of a loop that ends at a known place. -/
theorem closeLoop {outer : Option Point} {stop : Nat}
    (segment : Segment context label loop position code before after)
    (known : ∀ point, loop = some point → label stop point) :
    Segment context label outer position (.ofInstructions (code.closeLoop stop)) before after := by
  rcases segment with ⟨points, start, finish, checked⟩
  have length : (Code.ofInstructions (code.closeLoop stop)).length = code.length := by
    simp [Code.ofInstructions, Code.closeLoop]
  refine ⟨points, start, by rw [length, finish], ?_⟩
  intro index cell found
  rw [length]
  simp only [Code.ofInstructions, Code.closeLoop, List.map_map, List.getElem?_map,
    Option.map_eq_some_iff, Function.comp] at found
  rcases found with ⟨original, found, rfl⟩
  rcases checked index original found with ⟨next, cellChecked, falls⟩
  generalize points (position + index) = here at cellChecked ⊢
  cases cellChecked with
  | ready checked => exact ⟨next, .ready checked, falls⟩
  | leaveLoop inside meets => exact ⟨none, .ready (.jump (.inl (known _ inside)) meets), falls⟩

end Segment

end ScriptMachine
