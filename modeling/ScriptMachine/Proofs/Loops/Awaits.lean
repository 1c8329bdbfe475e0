import ScriptMachine.Proofs.Loops.Slots
import ScriptMachine.Proofs.Value.Store

/-!
# Awaiting

An `await` advances an iterator until it has no more elements. It yields each element that it meets,
and its value is the last one. At each yield the host has a turn. As long as nobody else advances
the iterator or changes the array that it goes over, the elements are those that it would have given
without a pause.
-/

namespace ScriptMachine

/-! ## Iterators that are left alone -/

/-- The array that a source goes over. -/
def IteratorSource.array? : IteratorSource → Option ArrayId
  | .elements array _ => some array
  | _ => none

/-- The source behind an advance, unless it failed. -/
def Advance.source? : Advance → Option IteratorSource
  | .element _ source | .atEnd source => some source
  | .failed _ => none

/-- A source that advances goes over the same array, if it goes over one. -/
theorem IteratorSource.array?_advance {source following : IteratorSource} {store : Store}
    (moved : (source.advance store).source? = some following) :
    following.array? = source.array? := by
  cases source with
  | items rest failure => cases rest <;> cases failure <;> cases moved <;> rfl
  | elements array next =>
      simp only [advance] at moved
      cases found : (store.array array)[next]? <;> rw [found] at moved <;> cases moved <;> rfl
  | range next stop step =>
      cases next with
      | none =>
          cases moved
          rfl
      | some value =>
          simp only [advance] at moved
          generalize (if 0 < step.toInt then _ else _) = finished at moved
          cases finished <;> cases moved <;> rfl

namespace Store

/-- An iterator is where it was, and so is the array that it goes over, if it goes over one. -/
structure KeepsIterator (store later : Store) (id : IteratorId) : Prop where
  state : later.iterators[id.index]? = store.iterators[id.index]?
  array : ∀ array, (store.iterator id).source.array? = some array →
    later.array array = store.array array

theorem getElem?_setIterator (store : Store) (id : IteratorId) (state : IteratorState) :
    (store.setIterator id state).iterators[id.index]? =
      store.iterators[id.index]?.map fun _ => state := by
  simp only [setIterator, Array.getElem?_setIfInBounds, if_true]
  by_cases inside : id.index < store.iterators.size <;> simp [inside]

namespace KeepsIterator

variable {store later : Store} {id : IteratorId}

theorem iterator (keeps : store.KeepsIterator later id) :
    later.iterator id = store.iterator id := by
  simp only [Store.iterator, Array.getD_eq_getD_getElem?, keeps.state]

/-- What the source of the iterator meets is the same. -/
theorem meets (keeps : store.KeepsIterator later id) :
    (later.iterator id).source.advance later = (store.iterator id).source.advance store := by
  rw [keeps.iterator]
  cases known : (store.iterator id).source with
  | elements array next =>
      have same : later.array array = store.array array := keeps.array array (by rw [known]; rfl)
      simp only [IteratorSource.advance, same]
  | items rest failure => cases rest <;> cases failure <;> rfl
  | range next => cases next <;> rfl

theorem setIterator (keeps : store.KeepsIterator later id) {state : IteratorState}
    (origin : state.source.array? = (store.iterator id).source.array?) :
    (store.setIterator id state).KeepsIterator (later.setIterator id state) id where
  state := by rw [getElem?_setIterator, getElem?_setIterator, keeps.state]
  array items known := by
    rw [iterator_setIterator] at known
    split at known
    · exact keeps.array items (origin ▸ known)
    · exact keeps.array items known

/-- The iterator advances in the same way. -/
theorem advance (keeps : store.KeepsIterator later id) :
    (later.advance id).1 = (store.advance id).1 ∧
      (store.advance id).2.KeepsIterator (later.advance id).2 id := by
  have meets := keeps.meets
  have origin := @IteratorSource.array?_advance (store.iterator id).source
  simp only [Store.advance]
  rw [meets]
  cases met : (store.iterator id).source.advance store with
  | element value source => exact ⟨rfl, keeps.setIterator (origin (by rw [met]; rfl))⟩
  | atEnd source =>
      rw [keeps.iterator]
      exact ⟨rfl, keeps.setIterator (origin (by rw [met]; rfl))⟩
  | failed error => exact ⟨rfl, keeps⟩

/-- The next elements are the same. -/
theorem take (keeps : store.KeepsIterator later id) (count : Nat) :
    (later.take id count).1 = (store.take id count).1 := by
  induction count generalizing store later with
  | zero => rfl
  | succ count ih =>
      rcases keeps.advance with ⟨same, keepsNext⟩
      rw [Store.take, Store.take]
      rcases advanced : store.advance id with ⟨result, next⟩
      rcases advancedLater : later.advance id with ⟨resultLater, nextLater⟩
      rw [advanced, advancedLater] at same keepsNext
      cases same
      cases result with
      | error error => rfl
      | ok met =>
          cases met with
          | false => rfl
          | true => simp only [ih keepsNext, keepsNext.iterator]

end KeepsIterator

section Elements

variable {store : Store} {id : IteratorId} {count : Nat} {element : Value} {elements : List Value}
  {failure : Option HostError}

/-- An iterator with no more elements is at its end, or fails. -/
theorem advance_of_take_nil (taken : (store.take id (count + 1)).1 = ([], failure)) :
    (store.advance id).1 = failure.elim (.ok false) .error := by
  rw [take] at taken
  rcases advanced : store.advance id with ⟨_ | met, later⟩
  · rw [advanced] at taken
    cases taken
    rfl
  · rw [advanced] at taken
    cases met <;> cases taken
    rfl

/-- An iterator with more elements advances to the first of them. -/
theorem advance_of_take_cons
    (taken : (store.take id (count + 1)).1 = (element :: elements, failure)) :
    ∃ later, store.advance id = (.ok true, later) ∧ (later.iterator id).current = element ∧
      (later.take id count).1 = (elements, failure) := by
  rw [take] at taken
  rcases advanced : store.advance id with ⟨_ | met, later⟩
  · rw [advanced] at taken
    cases taken
  · rw [advanced] at taken
    cases met <;> cases taken
    exact ⟨later, rfl, rfl, rfl⟩

end Elements

end Store

/-- A host that leaves an iterator alone, and the array that it goes over. -/
def Host.KeepsIterator (host : Host) (id : IteratorId) : Prop :=
  ∀ (seen : List Value) (store : Store), store.KeepsIterator (host.act seen store) id

/-! ## The loop -/

section Loop

variable {host : Host} {program : Program} {footing : Footing} {opening iterator current : Nat}
  {slots operands : List Value} {store later : Store} {seen : List Value} {id : IteratorId}
  {value : Value} {failure : Option HostError} {elements : List Value}

/-- A turn of the loop. The iterator stands at an element now, which is kept and yielded. -/
theorem walks_turn (has : program.Has opening (Code.awaitLoop (opening + 4) iterator current))
    (iterates : slots[iterator]? = some (.iterator id)) (inside : current < slots.length)
    (room : footing.Room slots operands) (advanced : store.advance id = (.ok true, later)) :
    host.Walks program (Machine.Within opening (opening + 14) footing.depth)
      (footing.machine (opening + 4) slots operands store) seen
      (footing.machine (opening + 4) (slots.set current (later.iterator id).current) operands
        (host.act (seen ++ [(later.iterator id).current]) later))
      (seen ++ [(later.iterator id).current]) := by
  have kept : (slots.set current (later.iterator id).current)[current]? =
      some (later.iterator id).current := by simp [inside]
  refine Footing.walk (by omega) (by omega) (Footing.loadLocal (has 4 _ rfl) iterates room) ?_
  refine Footing.walk (by omega) (by omega) (Footing.iterMoveNext (has 5 _ rfl) advanced room) ?_
  refine Footing.walk (by omega) (by omega) (Footing.jumpIfFalse_stays (has 6 _ rfl) rfl) ?_
  refine Footing.walk (by omega) (by omega) (Footing.loadLocal (has 7 _ rfl) iterates room) ?_
  refine Footing.walk (by omega) (by omega) (Footing.iterCurrent (has 8 _ rfl) room) ?_
  refine Footing.walk (by omega) (by omega) (Footing.storeLocal (has 9 _ rfl) inside) ?_
  refine Footing.walk (by omega) (by omega) (Footing.loadLocal (has 10 _ rfl) kept room.set) ?_
  refine .yields (Footing.within (by omega) (by omega)) (Footing.yieldValue (has 11 _ rfl)) ?_
  change host.Walks program _ (footing.machine (opening + 12) _ operands (host.act _ later)) _ _ _
  exact Footing.walk (by omega) (by omega) (Footing.jump (has 12 _ rfl)) .stay

/-- The last turn. The iterator is at its end, and the element that was kept is the value. -/
theorem walks_end (has : program.Has opening (Code.awaitLoop (opening + 4) iterator current))
    (iterates : slots[iterator]? = some (.iterator id)) (kept : slots[current]? = some value)
    (room : footing.Room slots operands) (advanced : store.advance id = (.ok false, later)) :
    host.Walks program (Machine.Within opening (opening + 14) footing.depth)
      (footing.machine (opening + 4) slots operands store) seen
      (footing.machine (opening + 14) slots (operands ++ [value]) later) seen := by
  refine Footing.walk (by omega) (by omega) (Footing.loadLocal (has 4 _ rfl) iterates room) ?_
  refine Footing.walk (by omega) (by omega) (Footing.iterMoveNext (has 5 _ rfl) advanced room) ?_
  refine Footing.walk (by omega) (by omega) (Footing.jumpIfFalse_jumps (has 6 _ rfl) rfl) ?_
  exact Footing.walk (by omega) (by omega) (Footing.loadLocal (has 13 _ rfl) kept room) .stay

/-- A turn in which the iterator fails. -/
theorem walks_failure (has : program.Has opening (Code.awaitLoop (opening + 4) iterator current))
    (iterates : slots[iterator]? = some (.iterator id)) (room : footing.Room slots operands)
    {error : HostError} (advanced : store.advance id = (.error error, later)) :
    ∃ stopped faulted,
      host.Walks program (Machine.Within opening (opening + 14) footing.depth)
        (footing.machine (opening + 4) slots operands store) seen stopped seen ∧
      (host.surroundings program seen).Steps stopped (.error error.toFault, faulted) :=
  ⟨_, _, Footing.walk (by omega) (by omega) (Footing.loadLocal (has 4 _ rfl) iterates room) .stay,
    Footing.iterMoveNext_fails (has 5 _ rfl) advanced⟩

/-- The first instructions of the loop, which open the iterator. -/
theorem walks_opening (has : program.Has opening (Code.awaitLoop (opening + 4) iterator current))
    (insideIterator : iterator < slots.length) (insideCurrent : current < slots.length)
    (room : footing.Room slots operands)
    (opened : value.toIterator store = (.ok (.iterator id), later)) :
    host.Walks program (Machine.Within opening (opening + 14) footing.depth)
      (footing.machine opening slots (operands ++ [value]) store) seen
      (footing.machine (opening + 4) ((slots.set iterator (.iterator id)).set current .unit)
        operands later) seen := by
  refine Footing.walk (by omega) (by omega) (Footing.getIterator (has 0 _ rfl) opened room) ?_
  refine Footing.walk (by omega) (by omega) (Footing.storeLocal (has 1 _ rfl) insideIterator) ?_
  refine Footing.walk (by omega) (by omega) (Footing.pushConst (has 2 _ rfl) room.set) ?_
  exact Footing.walk (by omega) (by omega)
    (Footing.storeLocal (has 3 _ rfl) (by simpa using insideCurrent)) .stay

/-- The loop meets the elements that the iterator gives without a pause, and no others. -/
theorem walks_turns (has : program.Has opening (Code.awaitLoop (opening + 4) iterator current))
    (keeps : host.KeepsIterator id) (iterates : slots[iterator]? = some (.iterator id))
    (apart : iterator ≠ current) (kept : slots[current]? = some value)
    (room : footing.Room slots operands)
    (taken : (store.take id (elements.length + 1)).1 = (elements, failure)) :
    ∃ stopped,
      host.Walks program (Machine.Within opening (opening + 14) footing.depth)
        (footing.machine (opening + 4) slots operands store) seen
        (footing.machine (opening + 4) (slots.set current (elements.getLastD value)) operands
          stopped) (seen ++ elements) ∧
      (stopped.advance id).1 = failure.elim (.ok false) .error := by
  induction elements generalizing store slots seen value with
  | nil =>
      have same : slots.set current value = slots := by
        rcases List.getElem?_eq_some_iff.mp kept with ⟨inside, rfl⟩
        exact List.set_getElem_self inside
      refine ⟨store, ?_, Store.advance_of_take_nil taken⟩
      rw [List.getLastD_nil, same, List.append_nil]
      exact .stay
  | cons element elements ih =>
      rcases Store.advance_of_take_cons taken with ⟨later, advanced, rfl, rest⟩
      have inside := (List.getElem?_eq_some_iff.mp kept).1
      have turn := @walks_turn host _ _ _ _ _ _ _ _ _ seen _ has iterates inside room advanced
      rw [← (keeps (seen ++ [(later.iterator id).current]) later).take] at rest
      have iteratesNext : (slots.set current (later.iterator id).current)[iterator]? =
          some (.iterator id) := (List.getElem?_set_ne (Ne.symm apart)).trans iterates
      have keptNext : (slots.set current (later.iterator id).current)[current]? =
          some (later.iterator id).current := by simp [inside]
      rcases @ih _ _ (seen ++ [(later.iterator id).current]) _ iteratesNext keptNext room.set rest
        with ⟨stopped, walks, ended⟩
      refine ⟨stopped, ?_, ended⟩
      rw [List.set_set, List.append_assoc, List.singleton_append] at walks
      rw [List.getLastD_cons]
      exact turn.trans walks

end Loop

/-! ## Awaits in compiled programs -/

section Charts

variable {program : Program} {chart : Chart} {ip : Nat} {shape : Shape} {point : Point}

theorem Program.Charted.getIterator (charted : program.Charted chart)
    (here : chart ip = some (shape, point))
    (found : program.instructions[ip]? = some .getIterator) :
    ∃ tags iterators, point = .running (.any :: tags) iterators := by
  rcases charted.checked ip shape point here with ⟨_, _, same, checked, _⟩
  cases found.symm.trans same
  cases checked with
  | plain effect => cases effect
  | getIterator => exact ⟨_, _, rfl⟩

end Charts

/-- An `await` in a function of a program. The code of the iterable comes first; the loop behind it
starts at `opening` and keeps its iterator and its current element in slots that no name in scope
stands for. -/
structure Program.AwaitsAt (program : Program) (placement : Placement) (iterable : Expr)
    (site : Site) (opening iterator current : Nat) : Prop where
  evaluates : ∃ linkage before source after stop,
    LowersExpr ⟨linkage, placement.source⟩ site before iterable source after ∧
      program.Has site.position (source.closeLoop stop) ∧
      opening = site.position + source.length
  loops : program.Has opening (Code.awaitLoop (opening + 4) iterator current)
  apart : iterator ≠ current
  nameless : ∀ entry ∈ site.scope, entry.2 ≠ iterator ∧ entry.2 ≠ current
  starts : placement.offset ≤ site.position
  ends : opening + 14 ≤ placement.offset + placement.code.length

theorem Program.HasLoop.awaitsAt {program : Program} {linkage : Linkage} {placement : Placement}
    {iterable : Expr} {site : Site} {before after : Progress} {code : Code} {stop : Nat}
    (hasLoop :
      program.HasLoop ⟨linkage, placement.source⟩ (.await iterable) site before code after stop)
    (starts : placement.offset ≤ site.position)
    (ends : site.position + code.length ≤ placement.offset + placement.code.length) :
    ∃ opening iterator current,
      program.AwaitsAt placement iterable site opening iterator current := by
  have has := hasLoop.has
  cases hasLoop.lowered with
  | await lowered =>
      cases lowered with
      | @await _ _ _ source after sourceLowered =>
          have below := hasLoop.below.grow sourceLowered.grows
          rw [Code.closeLoop_append, Code.closeLoop_ofInstructions] at has
          have loops := has.back
          rw [Code.length_closeLoop] at loops
          refine ⟨site.position + source.length, _, _,
            ⟨⟨_, _, source, _, stop, sourceLowered, has.front, rfl⟩, loops, ?_, ?_, starts, ?_⟩⟩
          · simp only [Frame.slot]
            omega
          · intro entry among
            have taken := below entry among
            simp only [Frame.slot] at taken ⊢
            omega
          · rw [List.length_append, Code.length_ofInstructions, ← Nat.add_assoc] at ends
            exact ends

/-- What comes of an `await` whose iterator gives some elements, and fails behind them or not. The
run yields exactly the elements. Then either the value stands behind the operands that were waiting,
in the same frame, whose slots are what they were but for those of the loop; or the advance behind
the last element faults. -/
def Footing.Awaited (footing : Footing) (host : Host) (program : Program)
    (opening iterator current : Nat) (slots operands : List Value) (machine : Machine)
    (seen elements : List Value) : Option HostError → Prop
  | none => ∃ slotsLater store,
      host.Walks program (Machine.Within opening (opening + 14) footing.depth) machine seen
        (footing.machine (opening + 14) slotsLater (operands ++ [elements.getLastD .unit]) store)
        (seen ++ elements) ∧
      slotsLater.length = slots.length ∧
      ∀ slot, slot ≠ iterator → slot ≠ current → slotsLater[slot]? = slots[slot]?
  | some error => ∃ stopped faulted,
      host.Walks program (Machine.Within opening (opening + 14) footing.depth) machine seen stopped
        (seen ++ elements) ∧
      (host.surroundings program (seen ++ elements)).Steps stopped (.error error.toFault, faulted)

section Loop

variable {host : Host} {program : Program} {footing : Footing} {opening iterator current : Nat}
  {slots operands : List Value} {store opened : Store} {seen : List Value} {id : IteratorId}
  {value : Value} {failure : Option HostError} {elements : List Value}

theorem Footing.awaited (has : program.Has opening (Code.awaitLoop (opening + 4) iterator current))
    (apart : iterator ≠ current) (insideIterator : iterator < slots.length)
    (insideCurrent : current < slots.length) (room : footing.Room slots operands)
    (opens : value.toIterator store = (.ok (.iterator id), opened))
    (taken : (opened.take id (elements.length + 1)).1 = (elements, failure))
    (keeps : host.KeepsIterator id) :
    footing.Awaited host program opening iterator current slots operands
      (footing.machine opening slots (operands ++ [value]) store) seen elements failure := by
  have start := @walks_opening host _ _ _ _ _ _ _ _ _ seen _ _ has insideIterator insideCurrent room
    opens
  have roomFilled : footing.Room ((slots.set iterator (.iterator id)).set current .unit) operands :=
    room.set.set
  generalize initial : (slots.set iterator (.iterator id)).set current .unit = filled
    at start roomFilled
  have others : ∀ slot, slot ≠ iterator → slot ≠ current → filled[slot]? = slots[slot]? := by
    intro slot notIterator notCurrent
    rw [← initial, List.getElem?_set_ne (Ne.symm notCurrent),
      List.getElem?_set_ne (Ne.symm notIterator)]
  have iterates : filled[iterator]? = some (.iterator id) := by
    rw [← initial, List.getElem?_set_ne (Ne.symm apart)]
    simp [insideIterator]
  have kept : filled[current]? = some .unit := by simp [← initial, insideCurrent]
  have keptLast : (filled.set current (elements.getLastD .unit))[current]? =
      some (elements.getLastD .unit) := List.getElem?_set_self (by simpa [← initial])
  rcases @walks_turns host _ _ _ _ _ _ _ _ seen _ _ _ _ has keeps iterates apart kept roomFilled
    taken with ⟨stopped, turns, ended⟩
  have iteratesStill : (filled.set current (elements.getLastD .unit))[iterator]? =
      some (.iterator id) := (List.getElem?_set_ne (Ne.symm apart)).trans iterates
  rcases advanced : stopped.advance id with ⟨result, final⟩
  rw [advanced] at ended
  cases failure with
  | none =>
      cases ended
      have last := @walks_end host _ _ _ _ _ _ _ _ _ (seen ++ elements) _ _ has iteratesStill
        keptLast roomFilled.set advanced
      refine ⟨_, final, (start.trans turns).trans last, by simp [← initial], ?_⟩
      intro slot notIterator notCurrent
      rw [List.getElem?_set_ne (Ne.symm notCurrent), others slot notIterator notCurrent]
  | some error =>
      cases ended
      rcases @walks_failure host _ _ _ _ _ _ _ _ _ (seen ++ elements) _ has iteratesStill
        roomFilled.set _ advanced with ⟨before, faulted, walks, faults⟩
      exact ⟨before, faulted, (start.trans turns).trans walks, faults⟩

end Loop

section Programs

variable {units : List ProgramUnit} {globals : List String} {program : Program}
  {placed : List Placement} {placement : Placement} {chart : Chart} {capacity : Nat}
  {machine : Machine} {iterable : Expr} {site : Site} {iterator current : Nat}

/-- The frame of a machine that has evaluated what it awaits. -/
theorem Machine.Tall.awaiting (charted : program.Charted chart) (homes : chart.Homes placed)
    (member : placement ∈ placed) {tower : Tower} (tall : machine.Tall program chart capacity tower)
    (awaits : program.AwaitsAt placement iterable site machine.ip iterator current) :
    ∃ locals slots operands value,
      program.instructions[placement.offset]? = some (.allocFrame locals) ∧
      slots.length = placement.source.arity + frameHeader + locals ∧
      iterator < slots.length ∧ current < slots.length ∧
      ∃ footing : Footing,
        machine = footing.machine machine.ip slots (operands ++ [value]) machine.store ∧
        footing.Room slots operands := by
  have starts := awaits.starts
  have ends := awaits.ends
  rcases awaits.evaluates with ⟨_, _, _, _, _, _, _, opening⟩
  rcases homes placement member with ⟨locals, entry, places⟩
  have charted_at : ∀ offset, offset < 14 →
      ∃ point, chart (machine.ip + offset) = some (⟨placement.source, locals⟩, point) := by
    intro offset early
    rcases places (machine.ip + offset - placement.offset) (by omega) with ⟨point, here⟩
    rw [Nat.add_sub_cancel' (by omega)] at here
    exact ⟨point, here⟩
  have storeAt : ∀ offset slot, offset < 14 →
      program.instructions[machine.ip + offset]? = some (.storeLocal slot) →
      slot < placement.source.arity + frameHeader + locals := by
    intro offset slot early found
    rcases charted_at offset early with ⟨point, here⟩
    have valid := (charted.storesTo here found).1
    simp only [Shape.HasSlot, Shape.arity] at valid
    omega
  rcases charted.checked _ _ _ entry with ⟨_, _, first, checkedFirst, _⟩
  have allocates : program.instructions[placement.offset]? = some (.allocFrame locals) := by
    cases checkedFirst with
    | allocFrame => exact first
  rcases tall with ⟨same, holds⟩
  rcases holds.here with ⟨point, here, stands⟩
  rcases charted_at 0 (by omega) with ⟨_, known⟩
  have shape : tower.active.shape = ⟨placement.source, locals⟩ :=
    congrArg Prod.fst (Option.some.inj (here.symm.trans known))
  rcases charted.getIterator here (awaits.loops 0 _ rfl) with ⟨tags, iterators, rfl⟩
  rcases stands with ⟨length, ⟨operands, value, pending, _, _⟩, _⟩
  rw [shape] at length
  have room := holds.room
  simp only [Tower.values, Tower.floor, pending, List.length_append, List.length_singleton] at room
  refine ⟨locals, tower.active.slots, operands, value, allocates, length, ?_, ?_,
    ⟨capacity, tower.globals ++ content tower.callers, tower.callers.length + 1,
      machine.debugStack⟩, ?_, ?_⟩
  · rw [length]
    exact storeAt 1 iterator (by omega) (awaits.loops 1 _ rfl)
  · rw [length]
    exact storeAt 3 current (by omega) (awaits.loops 3 _ rfl)
  · rw [← pending, ← Tower.machine_eq_footing]
    exact same
  · simp only [Footing.Room, List.length_append]
    omega

/-- An `await` yields each element of its iterator, and nothing else, and its value is the last
element, or unit if there was none. Wherever it stands and however many operands are waiting, the
run goes on behind it in the same frame, with the same operands and with the same value in every
slot of a named local. If the iterator fails behind some elements, these are yielded and then the
run faults.

The machine is one that has evaluated the iterable. What the iterator gives is what the advances of
it would give without a pause, and the host leaves the iterator alone. Nothing is asked of the
capacity of the stack: the value had room on it. -/
theorem await_yields_each_element (accepted : compileUnits units globals = .ok program)
    (small : program.size < twoTo 63) (bounded : capacity ≤ twoTo 63) :
    ∃ placed, program.Compiled units globals placed ∧
      ∀ placement ∈ placed,
        (∀ iterable, .await iterable ∈ placement.source.loops →
          ∃ site opening iterator current,
            program.AwaitsAt placement iterable site opening iterator current) ∧
        ∀ iterable site opening iterator current,
          program.AwaitsAt placement iterable site opening iterator current →
          ∀ machine, Reached program capacity machine → machine.ip = opening →
            ∃ footing locals slots operands value,
              machine = Footing.machine footing opening slots (operands ++ [value]) machine.store ∧
              program.instructions[placement.offset]? = some (.allocFrame locals) ∧
              slots.length = placement.source.arity + frameHeader + locals ∧
              ∀ host seen id opened elements failure,
                value.toIterator machine.store = (.ok (.iterator id), opened) →
                (opened.take id (elements.length + 1)).1 = (elements, failure) →
                host.KeepsIterator id →
                footing.Awaited host program opening iterator current slots operands machine seen
                  elements failure := by
  rcases compileUnits_ok accepted with ⟨placed, compiled⟩
  rcases compiled.charted_homes with ⟨chart, charted, homes⟩
  refine ⟨placed, compiled, fun placement member => ⟨?_, ?_⟩⟩
  · intro iterable written
    rcases compiled.exists_hasLoop member written with
      ⟨site, before, code, after, stop, hasLoop, starts, ends⟩
    exact ⟨site, hasLoop.awaitsAt starts ends⟩
  · rintro iterable site opening iterator current awaits machine reached rfl
    rcases reached.tall charted bounded small with ⟨tower, tall⟩
    rcases tall.awaiting charted homes member awaits with
      ⟨locals, slots, operands, value, allocates, length, insideIterator, insideCurrent, footing,
        same, room⟩
    refine ⟨footing, locals, slots, operands, value, same, allocates, length, ?_⟩
    intro host seen id opened elements failure opens taken keeps
    rw [same]
    exact Footing.awaited awaits.loops awaits.apart insideIterator insideCurrent room opens taken
      keeps

end Programs

namespace Sample

/-- Adds what an array of two numbers is awaited for to another number. -/
def awaitUnit : ProgramUnit :=
  ⟨"await", [],
    [⟨"main", [], [.returnValue (some (.binary .add (.literal (.int 1))
      (.await (.array [.literal (.int 7), .literal (.int 8)]))))], .nowhere⟩]⟩

def awaitProgram : Program := (compileUnits [awaitUnit] []).toOption.getD ⟨#[], .empty, [], []⟩

theorem awaitProgram_accepted : compileUnits [awaitUnit] [] = .ok awaitProgram := rfl

def awaitContext : DebugContext := ⟨"await", "main", .nowhere⟩

/-- A machine of a run of the program, with one array in the store. -/
def awaitMachine (values : List Value) (ip : Nat) (debug : List DebugContext)
    (arrays : Array (Array Value)) : Machine :=
  ⟨.ofList 7 values, ip, 0, 1, debug, { Store.empty with arrays := arrays }⟩

/-- The machine that has evaluated the array, with one operand waiting. -/
def awaiting : Machine :=
  awaitMachine [.int 0, .int 0, .unit, .unit, .int 1, .array ⟨0⟩] 6 [awaitContext]
    #[#[.int 7, .int 8]]

theorem awaiting_reached : Reached awaitProgram 7 awaiting := by
  have started : Started awaitProgram 7 (awaitMachine [.int 0, .int 0] 0 [] #[]) :=
    @Started.entered awaitProgram 7 .empty .empty "main" "main" [] [] _ (emptyRegistry _)
      emptyStore nofun rfl
  have opened := (Reached.start started).proceed (@Proceeds.plain _ _
    (awaitMachine [.int 0, .int 0, .unit, .unit] 1 [] #[]) _ rfl rfl)
  have noted := opened.proceed (@Proceeds.plain _ _
    (awaitMachine [.int 0, .int 0, .unit, .unit] 2 [awaitContext] #[]) _ rfl rfl)
  have pending := noted.proceed (@Proceeds.plain _ _
    (awaitMachine [.int 0, .int 0, .unit, .unit, .int 1] 3 [awaitContext] #[]) _ rfl rfl)
  have first := pending.proceed (@Proceeds.plain _ _
    (awaitMachine [.int 0, .int 0, .unit, .unit, .int 1, .int 7] 4 [awaitContext] #[]) _ rfl rfl)
  have second := first.proceed (@Proceeds.plain _ _
    (awaitMachine [.int 0, .int 0, .unit, .unit, .int 1, .int 7, .int 8] 5 [awaitContext] #[]) _
    rfl rfl)
  exact second.proceed (.plain rfl rfl)

theorem awaiting_place {ip : Nat} (found : awaitProgram.instructions[ip]? = some .getIterator) :
    ip = 6 := by
  have inside := (Array.getElem?_eq_some_iff.mp found).1
  revert found
  revert ip
  decide

end Sample

theorem await_yields_each_element_pair :
    ∃ footing slots operands store,
      Host.idle.Walks Sample.awaitProgram (Machine.Within 6 20 1) Sample.awaiting []
        (Footing.machine footing 20 slots (operands ++ [.int 8]) store) [.int 7, .int 8] := by
  rcases @await_yields_each_element _ _ _ 7 Sample.awaitProgram_accepted (by decide) (by decide)
    with ⟨placed, compiled, each⟩
  have among : (declaredSources [Sample.awaitUnit]).head (by decide) ∈
      placed.map Placement.source := by
    rw [compiled.sources]
    exact List.mem_append_left _ (List.head_mem _)
  rcases List.mem_map.mp among with ⟨placement, member, source⟩
  rcases each placement member with ⟨written, yields⟩
  rcases written (.array [.literal (.int 7), .literal (.int 8)])
    (by rw [source]; exact List.Mem.head _) with ⟨site, opening, iterator, current, awaits⟩
  cases Sample.awaiting_place (awaits.loops 0 _ rfl)
  rcases yields _ _ _ _ _ awaits Sample.awaiting Sample.awaiting_reached rfl with
    ⟨footing, locals, slots, operands, value, same, _, _, awaited⟩
  have depth : footing.depth = 1 := congrArg Machine.depth same.symm
  have isArray : value = .array ⟨0⟩ := by
    have values := congrArg (fun machine => machine.stack.items.toList.getLast?) same
    simpa [Footing.machine, Sample.awaiting, Sample.awaitMachine, ValueStack.ofList] using
      values.symm
  subst isArray
  rcases awaited Host.idle [] ⟨0⟩ _ [.int 7, .int 8] none rfl rfl fun _ _ => ⟨rfl, fun _ _ => rfl⟩
    with ⟨slotsLater, store, walks, _⟩
  rw [depth] at walks
  exact ⟨footing, slotsLater, operands, store, walks⟩

end ScriptMachine
