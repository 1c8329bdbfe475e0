import ScriptMachine.Host.Library
import ScriptMachine.Proofs.Engine.Effects
import ScriptMachine.Proofs.Image.Bindings
import ScriptMachine.Proofs.Value.Arithmetic
import ScriptMachine.Proofs.Value.Store

/-!
# Progressions

The library's `range` gives an iterator over the numbers from a start by a step that lie before a
stop. The next number is kept in 64 bits and may not fit them, behind the last one as well as right
behind the first. Where it does not, the numbers that are still to come would lie behind the stop,
so ending there for good is what the numbers themselves say.

The induction is on how far the next number is from the stop.
-/

namespace ScriptMachine

/-! ## Numbers before a stop -/

/-- Whether a number lies before the stop. Which side that is depends on the sign of the step. -/
def liesBefore (number stop stride : Int) : Bool :=
  if 0 < stride then decide (number < stop) else decide (stop < number)

/-- The numbers from a start by a step that lie before a stop, all of them and in order. -/
def Enumerates (numbers : List Int64) (start stop stride : Int) : Prop :=
  ∀ place : Nat, (numbers[place]?).map Int64.toInt =
    if liesBefore (start + place * stride) stop stride then some (start + place * stride) else none

/-- How far a number is from the stop. -/
def distance (number stop stride : Int) : Nat :=
  if 0 < stride then (stop - number).toNat else (number - stop).toNat

section Numbers

variable {start stop stride : Int} {first : Int64} {numbers : List Int64}

/-- Behind a number that is not before the stop there is none either. -/
theorem not_liesBefore_add (past : liesBefore start stop stride = false) (place : Nat) :
    liesBefore (start + place * stride) stop stride = false := by
  unfold liesBefore at past ⊢
  split at past
  · rename_i up
    have further : 0 ≤ place * stride := Int.mul_nonneg (Int.natCast_nonneg _) (Int.le_of_lt up)
    simp only [up, if_true, decide_eq_false_iff_not] at past ⊢
    omega
  · rename_i down
    have further : place * stride ≤ 0 :=
      Int.mul_nonpos_of_nonneg_of_nonpos (Int.natCast_nonneg _) (Int.not_lt.mp down)
    simp only [down, if_false, decide_eq_false_iff_not] at past ⊢
    omega

theorem distance_lt (nonzero : stride ≠ 0) (before : liesBefore start stop stride = true) :
    distance (start + stride) stop stride < distance start stop stride := by
  unfold liesBefore at before
  unfold distance
  split at before
  · rename_i up
    simp only [up, if_true, decide_eq_true_eq] at before ⊢
    omega
  · rename_i down
    have negative := Int.lt_iff_le_and_ne.mpr ⟨Int.not_lt.mp down, nonzero⟩
    simp only [down, if_false, decide_eq_true_eq] at before ⊢
    omega

theorem enumerates_nil (past : liesBefore start stop stride = false) :
    Enumerates [] start stop stride := by
  intro place
  simp [not_liesBefore_add past place]

theorem Enumerates.cons (enumerates : Enumerates numbers (first.toInt + stride) stop stride)
    (before : liesBefore first.toInt stop stride = true) :
    Enumerates (first :: numbers) first.toInt stop stride := by
  intro place
  cases place with
  | zero => simp [before]
  | succ place =>
      have further : first.toInt + (place + 1 : Nat) * stride =
          first.toInt + stride + place * stride := by
        rw [Int.natCast_add, Int.add_mul]
        omega
      rw [further]
      exact enumerates place

theorem Enumerates.unique {others : List Int64} (enumerates : Enumerates numbers start stop stride)
    (again : Enumerates others start stop stride) : numbers = others := by
  apply List.ext_getElem?
  intro place
  apply Option.map_injective (fun _ _ => Int64.toInt_inj.mp)
  exact (enumerates place).trans (again place).symm

/-- A number that does not fit 64 bits does not lie between two that do. -/
theorem not_liesBefore_of_large {stop stride : Int64}
    (large : fitsInt64 (first.toInt + stride.toInt) = false) :
    liesBefore (first.toInt + stride.toInt) stop.toInt stride.toInt = false := by
  have lower := first.le_toInt
  have upper := first.toInt_lt
  have lowerStop := stop.le_toInt
  have upperStop := stop.toInt_lt
  rw [← Bool.not_eq_true, fitsInt64_iff] at large
  unfold liesBefore
  split <;> simp only [decide_eq_false_iff_not] <;> omega

end Numbers

/-! ## Advancing again and again -/

/-- What so many advances of an iterator tell, one after the other: the element that the iterator
then stands at, or that it is at its end. -/
def Store.reports (id : IteratorId) : Nat → Store → List (Except HostError (Option Value))
  | 0, _ => []
  | count + 1, store =>
      match store.advance id with
      | (.ok true, later) => .ok (some (later.iterator id).current) :: later.reports id count
      | (.ok false, later) => .ok none :: later.reports id count
      | (.error error, later) => .error error :: later.reports id count

/-- An iterator that gives some numbers, and is at its end from then on. -/
def Store.Runs (store : Store) (id : IteratorId) (numbers : List Int64) : Prop :=
  ∀ more, store.reports id (numbers.length + more) =
    numbers.map (fun number => .ok (some (.int number))) ++ List.replicate more (.ok none)

section Reports

variable {store : Store} {id : IteratorId} {stop stride : Int64}

/-- The iterator with another source and element. -/
theorem Store.iterator_setIterator_self (inside : id.index < store.iterators.size)
    (state : IteratorState) : (store.setIterator id state).iterator id = state := by
  rw [iterator_setIterator, if_pos ⟨rfl, inside⟩]

theorem Store.size_setIterator (state : IteratorState) :
    (store.setIterator id state).iterators.size = store.iterators.size := by
  simp [setIterator]

/-- A progression that has ended stays so. -/
theorem Store.runs_ended (inside : id.index < store.iterators.size)
    (source : (store.iterator id).source = .range none stop stride) : store.Runs id [] := by
  intro more
  simp only [List.length_nil, Nat.zero_add, List.map_nil, List.nil_append]
  induction more generalizing store with
  | zero => rfl
  | succ more ih =>
      rw [reports, advance, source]
      dsimp only [IteratorSource.advance]
      rw [List.replicate_succ]
      congr 1
      apply ih
      · rwa [size_setIterator]
      · rw [iterator_setIterator_self inside]

/-- A progression gives its next number if that is before the stop, and ends otherwise. -/
theorem IteratorSource.advance_range (next : Int64) :
    IteratorSource.advance store (.range (some next) stop stride) =
      if liesBefore next.toInt stop.toInt stride.toInt then
        .element (.int next) (.range (int64? (next.toInt + stride.toInt)) stop stride)
      else .atEnd (.range none stop stride) := by
  unfold liesBefore
  by_cases up : 0 < stride.toInt
  · by_cases before : next.toInt < stop.toInt
    · simp [IteratorSource.advance, up, before]
    · simp [IteratorSource.advance, up, before, Int.not_lt.mp before]
  · by_cases before : stop.toInt < next.toInt
    · simp [IteratorSource.advance, up, before]
    · simp [IteratorSource.advance, up, before, Int.not_lt.mp before]

/-- A progression whose next number is behind the stop ends for good. -/
theorem Store.runs_past (inside : id.index < store.iterators.size) {next : Int64}
    (source : (store.iterator id).source = .range (some next) stop stride)
    (past : liesBefore next.toInt stop.toInt stride.toInt = false) : store.Runs id [] := by
  intro more
  cases more with
  | zero => rfl
  | succ more =>
      have ended : store.advance id = (.ok false, store.setIterator id
          { store.iterator id with source := .range none stop stride }) := by
        simp [advance, source, IteratorSource.advance_range, past]
      have rest := @runs_ended (store.setIterator id
        { store.iterator id with source := .range none stop stride }) id stop stride
        (by rwa [size_setIterator]) (by rw [iterator_setIterator_self inside])
      simp only [List.length_nil, reports, ended, List.map_nil, List.nil_append,
        List.replicate_succ]
      congr 1
      simpa using rest more

/-- A progression whose next number is before the stop gives it, and goes on with the one behind it
if that fits. -/
theorem Store.runs_next (inside : id.index < store.iterators.size) {next : Int64}
    {numbers : List Int64}
    (source : (store.iterator id).source = .range (some next) stop stride)
    (before : liesBefore next.toInt stop.toInt stride.toInt = true)
    (goesOn : (store.setIterator id
      ⟨.range (int64? (next.toInt + stride.toInt)) stop stride, .int next⟩).Runs id numbers) :
    store.Runs id (next :: numbers) := by
  intro more
  have advanced : store.advance id = (.ok true, store.setIterator id
      ⟨.range (int64? (next.toInt + stride.toInt)) stop stride, .int next⟩) := by
    simp [advance, source, IteratorSource.advance_range, before]
  have length : (next :: numbers).length + more = numbers.length + more + 1 := by
    rw [List.length_cons]
    omega
  rw [length, reports, advanced]
  dsimp only
  rw [goesOn more, iterator_setIterator_self inside]
  rfl

/-- A progression gives all of its numbers. -/
theorem Store.exists_runs (nonzero : stride ≠ 0) (inside : id.index < store.iterators.size)
    {next : Int64} (source : (store.iterator id).source = .range (some next) stop stride) :
    ∃ numbers, Enumerates numbers next.toInt stop.toInt stride.toInt ∧ store.Runs id numbers := by
  have nonzeroInt : stride.toInt ≠ 0 := fun none => nonzero (Int64.toInt_inj.mp none)
  induction far : distance next.toInt stop.toInt stride.toInt using Nat.strongRecOn
    generalizing store next with
  | _ far ih =>
      cases before : liesBefore next.toInt stop.toInt stride.toInt with
      | false => exact ⟨[], enumerates_nil before, runs_past inside source before⟩
      | true =>
          let behind := store.setIterator id
            ⟨.range (int64? (next.toInt + stride.toInt)) stop stride, .int next⟩
          have insideLater : id.index < behind.iterators.size := by
            rwa [size_setIterator]
          have sourceLater : (behind.iterator id).source =
              .range (int64? (next.toInt + stride.toInt)) stop stride :=
            congrArg IteratorState.source (iterator_setIterator_self inside _)
          cases fits : fitsInt64 (next.toInt + stride.toInt) with
          | false =>
              have ended := enumerates_nil (@not_liesBefore_of_large next stop stride fits)
              refine ⟨[next], ended.cons before, runs_next inside source before ?_⟩
              apply runs_ended insideLater
              rw [sourceLater, int64?, fits]
              rfl
          | true =>
              have same := toInt_ofInt_of_fits fits
              have nearer := distance_lt nonzeroInt before
              rw [← same, far] at nearer
              have goesOn : int64? (next.toInt + stride.toInt) =
                  some (Int64.ofInt (next.toInt + stride.toInt)) := by
                rw [int64?, fits]
                rfl
              rw [goesOn] at sourceLater
              rcases ih _ nearer insideLater sourceLater rfl with ⟨numbers, enumerates, runs⟩
              rw [same] at enumerates
              exact ⟨next :: numbers, enumerates.cons before,
                runs_next inside source before runs⟩

end Reports

/-! ## The function -/

/-- The arguments of `range`, and the progression that they describe. -/
inductive RangeArgs : List Value → Int64 → Int64 → Int64 → Prop
  | stop (stop : Int64) : RangeArgs [.int stop] 0 stop 1
  | bounds (start stop : Int64) : RangeArgs [.int start, .int stop] start stop 1
  | omitted (start stop : Int64) : RangeArgs [.int start, .int stop, .useDefault] start stop 1
  | stride (start stop stride : Int64) :
      RangeArgs [.int start, .int stop, .int stride] start stop stride

section Calls

variable {registry : Registry} {binding : Option HostFunctionRef} {args : List Value}
  {start stop stride : Int64}

/-- Functions that are registered one after the other come behind those that are there. -/
theorem Registry.overloads_foldl_registerFunction (functions : List HostFunction) (name : String) :
    (functions.foldl registerFunction registry).overloads name =
      registry.overloads name ++ functions.filter (fun function => name = function.name) := by
  induction functions generalizing registry with
  | nil => simp
  | cons function rest ih =>
      rw [List.foldl_cons, ih, overloads_registerFunction, List.filter_cons]
      by_cases same : name = function.name
      · simp [same]
      · simp [same]

theorem Registry.overloads_range (free : registry.overloads "range" = []) (sink : Sink) :
    (registry.withLibrary sink).overloads "range" =
      Library.collectionFunctions.filter (fun function => "range" = function.name) := by
  rw [withLibrary, overloads_foldl_registerFunction, free, List.nil_append]
  rfl

/-- Both overloads of `range` come to the progression that the arguments describe. -/
theorem RangeArgs.callNamed (described : RangeArgs args start stop stride) (nonzero : stride ≠ 0)
    (free : registry.overloads "range" = [])
    (bound : ∀ reference ∈ binding, reference.name = "range") (sink : Sink) (store : Store) :
    Effect.callNamed (registry.withLibrary sink) "range" binding args store =
      (.ok (.iterator (store.allocIterator (.progression start stop stride)).1),
        (store.allocIterator (.progression start stop stride)).2) := by
  have overloads := Registry.overloads_range free sink
  have several : (binding.bind fun reference =>
      (registry.withLibrary sink).soleFunction? reference.name reference.signature) = none := by
    cases binding with
    | none => rfl
    | some reference =>
        simp only [Option.bind_some, Registry.soleFunction?, bound reference rfl, overloads]
        rfl
  simp only [Effect.callNamed, several, Effect.invoke, Registry.resolveFunction, overloads]
  cases described with
  | stop => rfl
  | bounds => rfl
  | omitted => rfl
  | stride =>
      have read : Library.rangeArgs ⟨[.int start, .int stop, .int stride], []⟩ store =
          .ok (start, stop, stride) := by
        unfold Library.rangeArgs
        rw [if_neg (by simp [HostCall.isDefault])]
        exact if_neg nonzero
      calc
        _ = Prod.map (Except.mapError HostError.toFault) id (Library.collectionFunctions[4].body
            ⟨[.int start, .int stop, .int stride], []⟩ store) := rfl
        _ = _ := by
          simp only [Library.collectionFunctions, List.getElem_cons_succ, List.getElem_cons_zero,
            HostFunction.withOptional, HostFunction.ofTypes, read]
          rfl

end Calls

/-- The iterator that `range` gives runs through the numbers that its arguments describe, and is at
its end from then on. -/
theorem range_enumerates {registry : Registry} (free : registry.overloads "range" = [])
    {binding : Option HostFunctionRef} (bound : ∀ reference ∈ binding, reference.name = "range")
    {start stop stride : Int64} (nonzero : stride ≠ 0) (sink : Sink) (store : Store) :
    ∃ numbers, Enumerates numbers start.toInt stop.toInt stride.toInt ∧
      ∀ args, RangeArgs args start stop stride → ∃ id opened,
        Effect.callNamed (registry.withLibrary sink) "range" binding args store =
          (.ok (.iterator id), opened) ∧ opened.Runs id numbers := by
  have opens := store.iterator_allocIterator (.progression start stop stride)
  have source := congrArg IteratorState.source
    ((opens (store.allocIterator (.progression start stop stride)).1).trans (if_pos rfl))
  have inside : (store.allocIterator (.progression start stop stride)).1.index <
      (store.allocIterator (.progression start stop stride)).2.iterators.size := by
    simp [Store.allocIterator]
  rcases Store.exists_runs nonzero inside source with ⟨numbers, enumerates, runs⟩
  refine ⟨numbers, enumerates, ?_⟩
  intro args described
  exact ⟨_, _, described.callNamed nonzero free bound sink store, runs⟩

/-- A step that leads out of 64 bits ends the progression. -/
theorem range_enumerates_to_largest :
    Registry.empty.overloads "range" = [] ∧ (5 : Int64) ≠ 0 ∧
      ∃ id opened, Effect.callNamed (Registry.empty.withLibrary .collecting) "range" none
          [.int 9223372036854775800, .int 9223372036854775807, .int 5] .empty =
          (.ok (.iterator id), opened) ∧
        opened.Runs id [9223372036854775800, 9223372036854775805] := by
  refine ⟨rfl, by decide, ?_⟩
  rcases @range_enumerates .empty rfl none (by simp) 9223372036854775800 9223372036854775807 5
    (by decide) .collecting .empty with ⟨numbers, enumerates, runs⟩
  have last : Enumerates [9223372036854775805] ((9223372036854775800 : Int64).toInt + 5)
      (9223372036854775807 : Int64).toInt 5 :=
    @Enumerates.cons _ _ 9223372036854775805 _ (enumerates_nil (by decide +kernel))
      (by decide +kernel)
  rw [← enumerates.unique (last.cons (by decide +kernel))]
  exact runs _ (.stride _ _ _)

end ScriptMachine
