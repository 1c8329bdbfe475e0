import ScriptMachine.Value.Operators

/-!
# Iterators

Advancing an iterator moves it to its next element, if there is one. An iterator over an array looks
at the array when it advances, so it meets elements that were put there meanwhile; at the end it
stays where it is and goes on if more elements come.
-/

namespace ScriptMachine

/-- What an advance of a source meets. -/
inductive Advance where
  | element (value : Value) (source : IteratorSource)
  | atEnd (source : IteratorSource)
  | failed (error : HostError)

namespace IteratorSource

/-- The progression from `start` by `step` that stops before `stop`. -/
def progression (start stop step : Int64) : IteratorSource := .range (some start) stop step

/-- Advances a source. A progression ends for good when it reaches its bound or leaves 64 bits. -/
def advance (store : Store) (source : IteratorSource) : Advance :=
  match source with
  | .items [] none => .atEnd source
  | .items [] (some error) => .failed error
  | .items (value :: rest) failure => .element value (.items rest failure)
  | .elements array next =>
      match (store.array array)[next]? with
      | some value => .element value (.elements array (next + 1))
      | none => .atEnd source
  | .range none _ _ => .atEnd source
  | .range (some value) stop step =>
      let finished :=
        if 0 < step.toInt then decide (stop.toInt ≤ value.toInt)
        else decide (value.toInt ≤ stop.toInt)
      if finished then .atEnd (.range none stop step)
      else
        let sum := value.toInt + step.toInt
        .element (.int value) (.range (int64? sum) stop step)

end IteratorSource

namespace Store

/-- Advances an iterator, and tells whether it stands at an element now. -/
def advance (store : Store) (id : IteratorId) : Except HostError Bool × Store :=
  let state := store.iterator id
  match state.source.advance store with
  | .element value source => (.ok true, store.setIterator id ⟨source, value⟩)
  | .atEnd source => (.ok false, store.setIterator id { state with source := source })
  | .failed error => (.error error, store)

/-- The next elements of an iterator, at most so many, and its failure if it met one. -/
def take (store : Store) (id : IteratorId) : Nat → (List Value × Option HostError) × Store
  | 0 => (([], none), store)
  | count + 1 =>
      match store.advance id with
      | (.ok true, store) =>
          let current := (store.iterator id).current
          let ((rest, failure), store) := store.take id count
          ((current :: rest, failure), store)
      | (.ok false, store) => (([], none), store)
      | (.error error, store) => (([], some error), store)

end Store

namespace Value

/-- The iterator over a value's elements. An iterator is its own, so that its place is shared. -/
def toIterator (store : Store) (value : Value) : Except RuntimeFault Value × Store :=
  match value with
  | .iterator _ => (.ok value, store)
  | .array id =>
      let (fresh, store) := store.allocIterator (.elements id 0)
      (.ok (.iterator fresh), store)
  | .str text =>
      let characters := text.toList.map fun character => Value.str (String.singleton character)
      let (fresh, store) := store.allocIterator (.items characters none)
      (.ok (.iterator fresh), store)
  | _ => (.error (.notIterable (value.typeName store)), store)

end Value

end ScriptMachine
