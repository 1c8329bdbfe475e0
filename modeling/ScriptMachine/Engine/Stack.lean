import ScriptMachine.Value.Basic

/-!
# The value stack

A stack of values with a fixed capacity. Slots count from the bottom. Going beyond the capacity,
below the bottom or outside the slots is a fault, and leaves the stack as it was.
-/

namespace ScriptMachine

/-- Values in the order of their slots, and how many there may be. -/
structure ValueStack where
  items : Array Value
  capacity : Nat
deriving Inhabited

/-- The result of an operation on a stack, and the stack after it. -/
abbrev StackResult (α : Type) := Except RuntimeFault α × ValueStack

namespace ValueStack

/-- An empty stack. -/
def ofCapacity (capacity : Nat) : ValueStack := ⟨#[], capacity⟩

def size (stack : ValueStack) : Nat := stack.items.size

def isEmpty (stack : ValueStack) : Bool := stack.items.isEmpty

/-- The fault of taking more values than there are. -/
def underflow : RuntimeFault := .unknown "value stack underflow"

/-- The fault of naming a slot that there is not. -/
def outside (slot : Nat) : RuntimeFault :=
  .unknown ("slot " ++ toString slot ++ " is outside the stack")

def push (value : Value) (stack : ValueStack) : StackResult Unit :=
  if stack.capacity ≤ stack.items.size then (.error (.stackOverflow stack.capacity), stack)
  else (.ok (), { stack with items := stack.items.push value })

def pop (stack : ValueStack) : StackResult Value :=
  match stack.items.back? with
  | some value => (.ok value, { stack with items := stack.items.pop })
  | none => (.error underflow, stack)

/-- Takes several values off, in the order in which they were pushed. -/
def popMany (count : Nat) (stack : ValueStack) : StackResult (List Value) :=
  if stack.items.size < count then (.error underflow, stack)
  else
    let start := stack.items.size - count
    (.ok (stack.items.extract start stack.items.size).toList,
      { stack with items := stack.items.shrink start })

def peek (stack : ValueStack) : StackResult Value :=
  match stack.items.back? with
  | some value => (.ok value, stack)
  | none => (.error underflow, stack)

def get (slot : Nat) (stack : ValueStack) : StackResult Value :=
  match stack.items[slot]? with
  | some value => (.ok value, stack)
  | none => (.error (outside slot), stack)

def set (slot : Nat) (value : Value) (stack : ValueStack) : StackResult Unit :=
  if slot < stack.items.size then
    (.ok (), { stack with items := stack.items.setIfInBounds slot value })
  else (.error (outside slot), stack)

/-- Drops the values above a height. -/
def truncate (height : Nat) (stack : ValueStack) : ValueStack :=
  { stack with items := stack.items.shrink height }

end ValueStack

end ScriptMachine
