import ScriptMachine.Proofs.Balance.Changes

/-!
# Where instructions lead on the chart

What a step does to a tower and what the chart says of its instruction go together: the operands
that are taken are those that the point knows on top, the operands in their place are known at the
point that follows, and below them nothing changes.
-/

namespace ScriptMachine

/-- What an instruction that leaves slots and frames alone may take for what it leaves. -/
inductive Instruction.Handles : Instruction → List Tag → List Tag → Prop
  | plain {instruction taken left} (effect : instruction.plainEffect? = some (taken, left)) :
      Handles instruction (List.replicate taken .any) (List.replicate left .any)
  | pop {tag} : Handles .pop [tag] []
  | loadKept : Handles .loadIndex [.any, .carrier] [.any]
  | storeKept : Handles .storeIndex [.any, .any, .carrier] []
  | getIterator : Handles .getIterator [.any] [.iterator]
  | iterMoveNext : Handles .iterMoveNext [.iterator] [.any]
  | iterCurrent : Handles .iterCurrent [.iterator] [.any]
  | jump {target} : Handles (.jump target) [] []
  | jumpIfFalse {target} : Handles (.jumpIfFalse target) [.any] []
  | falseKeeps {target} : Handles (.jumpIfFalseKeep target) [.any] [.any]
  | falseDrops {target} : Handles (.jumpIfFalseKeep target) [.any] []
  | trueKeeps {target} : Handles (.jumpIfTrueKeep target) [.any] [.any]
  | trueDrops {target} : Handles (.jumpIfTrueKeep target) [.any] []

/-- How an instruction that leaves slots and frames alone gets from a point of a function to a place,
with the numbers of operands that it takes and leaves. Either it takes operands for others, or it
puts the array of a new closure on top, or it makes the closure. -/
inductive Passage (chart : Chart) (shape : Shape) (there : Nat) :
    Instruction → Point → Nat → Nat → Prop
  | handles {instruction popped pushed tags iterators next}
      (handles : instruction.Handles popped pushed) (placed : chart there = some (shape, next))
      (meets : (Point.running (pushed ++ tags) iterators).Meets next) :
      Passage chart shape there instruction (.running (popped ++ tags) iterators) popped.length
        pushed.length
  | makeCarrier {count tags iterators} (placed : chart there = some (shape, .closing tags iterators)) :
      Passage chart shape there (.makeArray count)
        (.running (List.replicate count .any ++ tags) iterators) count 1
  | makeClosure {function tags iterators next} (placed : chart there = some (shape, next))
      (meets : (Point.running (.any :: tags) iterators).Meets next) :
      Passage chart shape there (.makeClosure function) (.closing tags iterators) 1 1

section Passages

variable {surroundings : Surroundings} {program : Program} {chart : Chart} {ip there : Nat}
  {shape : Shape} {point : Point} {instruction : Instruction} {store later : Store}
  {taken left args : List Value} {entry : FunctionEntry}

/-- An instruction that only counts operands goes on behind it. -/
theorem Instruction.Works.behind_of_plainEffect? {behind takes leaves : Nat}
    (works : instruction.Works surroundings behind store taken left later there)
    (effect : instruction.plainEffect? = some (takes, leaves)) :
    there = behind ∧ taken.length = takes ∧ left.length = leaves := by
  cases works <;> cases effect <;> exact ⟨rfl, rfl, rfl⟩

/-- The passage of an instruction that leaves slots and frames alone. -/
theorem Program.Charted.works (charted : program.Charted chart)
    (here : chart ip = some (shape, point)) (found : program.instructions[ip]? = some instruction)
    (works : instruction.Works surroundings (ip + 1) store taken left later there) :
    Passage chart shape there instruction point taken.length left.length := by
  rcases charted.checked ip shape point here with ⟨_, next, same, checked, falls⟩
  cases found.symm.trans same
  cases checked with
  | plain effect =>
      rcases works.behind_of_plainEffect? effect with ⟨rfl, rfl, rfl⟩
      rcases falls _ rfl with ⟨next, placed, meets⟩
      have passage := @Passage.handles chart shape _ _ _ _ _ _ next (.plain effect) placed meets
      rwa [List.length_replicate, List.length_replicate] at passage
  | @pop tag =>
      cases works
      rcases falls _ rfl with ⟨next, placed, meets⟩
      exact @Passage.handles _ _ _ _ [tag] [] _ _ _ .pop placed meets
  | loadKept =>
      cases works
      rcases falls _ rfl with ⟨next, placed, meets⟩
      exact @Passage.handles _ _ _ _ [.any, .carrier] [.any] _ _ _ .loadKept placed meets
  | storeKept =>
      cases works
      rcases falls _ rfl with ⟨next, placed, meets⟩
      exact @Passage.handles _ _ _ _ [.any, .any, .carrier] [] _ _ _ .storeKept placed meets
  | makeCarrier =>
      cases works
      rcases falls _ rfl with ⟨next, placed, meets⟩
      cases meets
      exact .makeCarrier placed
  | makeClosure =>
      cases works
      rcases falls _ rfl with ⟨next, placed, meets⟩
      exact .makeClosure placed meets
  | getIterator =>
      cases works
      rcases falls _ rfl with ⟨next, placed, meets⟩
      exact @Passage.handles _ _ _ _ [.any] [.iterator] _ _ _ .getIterator placed meets
  | iterMoveNext =>
      cases works
      rcases falls _ rfl with ⟨next, placed, meets⟩
      exact @Passage.handles _ _ _ _ [.iterator] [.any] _ _ _ .iterMoveNext placed meets
  | iterCurrent =>
      cases works
      rcases falls _ rfl with ⟨next, placed, meets⟩
      exact @Passage.handles _ _ _ _ [.iterator] [.any] _ _ _ .iterCurrent placed meets
  | jump placed meets =>
      cases works
      exact @Passage.handles _ _ _ _ [] [] _ _ _ .jump placed meets
  | jumpIfFalse placed meets =>
      cases works with
      | falseJumps => exact @Passage.handles _ _ _ _ [.any] [] _ _ _ .jumpIfFalse placed meets
      | falseStays =>
          rcases falls _ rfl with ⟨next, placed, meets⟩
          exact @Passage.handles _ _ _ _ [.any] [] _ _ _ .jumpIfFalse placed meets
  | jumpIfFalseKeep placed meets =>
      cases works with
      | falseKeeps => exact @Passage.handles _ _ _ _ [.any] [.any] _ _ _ .falseKeeps placed meets
      | falseDrops =>
          rcases falls _ rfl with ⟨next, placed, meets⟩
          exact @Passage.handles _ _ _ _ [.any] [] _ _ _ .falseDrops placed meets
  | jumpIfTrueKeep placed meets =>
      cases works with
      | trueKeeps => exact @Passage.handles _ _ _ _ [.any] [.any] _ _ _ .trueKeeps placed meets
      | trueDrops =>
          rcases falls _ rfl with ⟨next, placed, meets⟩
          exact @Passage.handles _ _ _ _ [.any] [] _ _ _ .trueDrops placed meets
  | loadLocal | loadIterator | loadCarrier | storeLocal | storeIterator | loadGlobal | storeGlobal
  | callFunction | allocFrame | pushDebug | popDebug | returnValue => cases works

/-- The passage of a call: it waits for one operand in the place of those that it takes, and the
called function starts at its entry. -/
theorem Program.Charted.calls {surroundings : Surroundings}
    (charted : surroundings.program.Charted chart) (here : chart ip = some (shape, point))
    (found : surroundings.program.instructions[ip]? = some instruction)
    (calls : instruction.Calls surroundings store taken args later entry) :
    (∃ tags iterators next, point = .running (List.replicate taken.length .any ++ tags) iterators ∧
      chart (ip + 1) = some (shape, next) ∧
      (Point.running (.any :: tags) iterators).Meets next) ∧
    ∃ shape, shape.arity = entry.arity ∧ chart entry.offset = some (shape, .entry) := by
  rcases charted.checked ip shape point here with ⟨_, next, same, checked, falls⟩
  cases found.symm.trans same
  cases calls with
  | function target =>
      refine ⟨?_, charted.entries _ _ _ target⟩
      cases checked with
      | plain effect => cases effect
      | callFunction =>
          rcases falls _ rfl with ⟨next, placed, meets⟩
          exact ⟨_, _, next, rfl, placed, meets⟩
  | closure _ target =>
      refine ⟨?_, charted.entries _ _ _ target⟩
      cases checked with
      | plain effect =>
          cases effect
          rcases falls _ rfl with ⟨next, placed, meets⟩
          exact ⟨_, _, next, rfl, placed, meets⟩
  | member _ _ target =>
      refine ⟨?_, charted.entries _ _ _ target⟩
      cases checked with
      | plain effect =>
          cases effect
          rcases falls _ rfl with ⟨next, placed, meets⟩
          exact ⟨_, _, next, rfl, placed, meets⟩

/-- The passage of a return: the caller goes on behind its call. -/
theorem Tower.Holds.waits {tower : Tower} {capacity base : Nat} {caller : Activation}
    {rest : List Activation} (holds : tower.Holds program chart capacity ip store)
    (small : program.size < twoTo 63) (callers : tower.callers = caller :: rest)
    (header : tower.active.Header base there) (thereSmall : there < twoTo 63) :
    caller.Waits program chart there := by
  have chained := holds.chained
  rw [callers] at chained
  rcases chained with ⟨⟨back, itsHeader, waits⟩, _⟩
  have backSmall : back < twoTo 63 := by
    rcases waits.call with ⟨call, _, rfl, called, _⟩
    have inside := (Array.getElem?_eq_some_iff.mp called).1
    simp only [Program.size] at small
    omega
  rwa [itsHeader.same_ip header backSmall thereSmall]

theorem Program.Charted.place_lt (charted : program.Charted chart)
    (here : chart ip = some (shape, point)) : ip < program.size := by
  rcases charted.checked ip shape point here with ⟨_, _, found, _⟩
  exact (Array.getElem?_eq_some_iff.mp found).1

end Passages

end ScriptMachine
