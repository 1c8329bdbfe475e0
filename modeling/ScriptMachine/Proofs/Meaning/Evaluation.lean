import ScriptMachine.Proofs.Engine.Steps

/-!
# Evaluations

What a part of a program does, without regard to any machine. There are variables, each with its
value, and a world: the store, the run's copy of the globals, and what has been yielded so far. An
evaluation changes these and ends in one of a few ways: it gives a value, leaves the innermost loop,
returns from the function, or faults.

Loops are bounded, so that an evaluation is a function. One that meets the bound is `unfinished` and
says nothing about the program.
-/

namespace ScriptMachine

/-- How an evaluation ends. -/
inductive Flow (α : Type) where
  | normal (value : α)
  /-- The innermost loop is left. -/
  | leaves
  | returns (value : Value)
  | faults (fault : RuntimeFault)
  /-- A bound was met. -/
  | unfinished

/-- What all functions of a run share. -/
structure World where
  /-- The run's copy of the globals, in the order of their slots. -/
  globals : List Value
  store : Store
  /-- The values yielded so far, in order. -/
  yielded : List Value

/-- What a part of a function finds: the variables in scope, the innermost first, and the world. -/
structure Scene where
  bindings : List (String × Value)
  world : World

/-- The scene with only so many variables: the innermost ones go out of scope. -/
def Scene.outer (count : Nat) (scene : Scene) : Scene :=
  { scene with bindings := scene.bindings.drop (scene.bindings.length - count) }

/-- Something that a part of a function does. -/
def Evaluation (α : Type) : Type := Scene → Flow α × Scene

/-- How a function ends: with a value or a fault, unless a bound was met before. -/
abbrev Ending := Option (Except RuntimeFault Value)

namespace Evaluation

variable {α β σ : Type}

/-- Goes on with a value, and passes every other end on. -/
def followedBy (first : Evaluation α) (next : α → Evaluation β) : Evaluation β := fun scene =>
  match first scene with
  | (.normal value, scene) => next value scene
  | (.leaves, scene) => (.leaves, scene)
  | (.returns value, scene) => (.returns value, scene)
  | (.faults fault, scene) => (.faults fault, scene)
  | (.unfinished, scene) => (.unfinished, scene)

instance : Monad Evaluation where
  pure value scene := (.normal value, scene)
  bind := followedBy

theorem bind_normal {first : Evaluation α} {next : α → Evaluation β} {value : α}
    {scene later : Scene} (ended : first scene = (.normal value, later)) :
    (first >>= next) scene = next value later := by
  change followedBy first next scene = _
  simp only [followedBy, ended]

theorem bind_faults {first : Evaluation α} {next : α → Evaluation β} {cause : RuntimeFault}
    {scene later : Scene} (ended : first scene = (.faults cause, later)) :
    (first >>= next) scene = (.faults cause, later) := by
  change followedBy first next scene = _
  simp only [followedBy, ended]

def fault (cause : RuntimeFault) : Evaluation α := fun scene => (.faults cause, scene)

def leaveLoop : Evaluation α := fun scene => (.leaves, scene)

def returnWith (value : Value) : Evaluation α := fun scene => (.returns value, scene)

/-- Looks at the scene. -/
def inspect (view : Scene → α) : Evaluation α := fun scene => (.normal (view scene), scene)

/-- Changes the scene. -/
def update (change : Scene → Scene) : Evaluation Unit := fun scene => (.normal (), change scene)

/-- Reads and changes the store. -/
def effect (effect : Effect α) : Evaluation α := fun scene =>
  match effect scene.world.store with
  | (.ok value, store) => (.normal value, { scene with world := { scene.world with store } })
  | (.error fault, store) => (.faults fault, { scene with world := { scene.world with store } })

/-- Yields a value. -/
def emit (value : Value) : Evaluation Unit := update fun scene =>
  { scene with world := { scene.world with yielded := scene.world.yielded ++ [value] } }

/-- Brings a variable into scope. -/
def declare (name : String) (value : Value) : Evaluation Unit := update fun scene =>
  { scene with bindings := (name, value) :: scene.bindings }

/-- Runs a function, which sees nothing of the variables. -/
def ofFunction (function : World → Ending × World) : Evaluation Value := fun scene =>
  match function scene.world with
  | (some (.ok value), world) => (.normal value, { scene with world })
  | (some (.error fault), world) => (.faults fault, { scene with world })
  | (none, world) => (.unfinished, { scene with world })

/-- A block, whose variables go out of scope at its end. -/
def block (body : Evaluation α) : Evaluation α := do
  let count ← inspect fun scene => scene.bindings.length
  let value ← body
  update (Scene.outer count)
  return value

/-- The body of a loop, once; tells whether the loop goes on, that is, was not left. -/
def untilLeft (body : Evaluation Unit) : Evaluation Bool := fun scene =>
  match body scene with
  | (.normal _, later) => (.normal true, later.outer scene.bindings.length)
  | (.leaves, later) => (.normal false, later.outer scene.bindings.length)
  | (.returns value, later) => (.returns value, later)
  | (.faults fault, later) => (.faults fault, later)
  | (.unfinished, later) => (.unfinished, later)

/-- Goes round so often at most, from state to state, until a turn gives no next one. -/
def loop (turn : σ → Evaluation (Option σ)) : Nat → σ → Evaluation σ
  | 0, _ => fun scene => (.unfinished, scene)
  | bound + 1, state => do
      match ← turn state with
      | some next => loop turn bound next
      | none => return state

/-- The iterator over the elements of a value. Nothing but an iterator is ever found. -/
def iterator (value : Value) : Evaluation IteratorId := do
  match ← effect value.toIterator with
  | .iterator id => return id
  | _ => fault (.unknown "not an iterator")

/-- The next element of an iterator, if there is one. -/
def nextElement (id : IteratorId) : Evaluation (Option Value) := do
  if ← effect (.moveNext id) then
    return some (← effect fun store => (.ok (store.iterator id).current, store))
  else return none

/-- Refuses a step that a numeric loop cannot take. -/
def checkStep (step : Value) : Evaluation Unit :=
  if step.isZeroStep then fault .zeroForStep else pure ()

end Evaluation

end ScriptMachine
