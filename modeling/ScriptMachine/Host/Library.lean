import ScriptMachine.Host.Registry

/-!
# The default library

Printing, conversion, collections and arithmetic, as overloaded host functions. What is printed goes
to a `Sink`: it is collected in the store, or every attempt to print something fails.
-/

namespace ScriptMachine

/-- Where printed text goes. -/
inductive Sink where
  /-- Text is collected in the store. -/
  | collecting
  /-- Every text that is not empty is refused with a message. -/
  | refusing (message : String)
deriving DecidableEq

namespace Library

/-- Writes a text to a sink. -/
def write (sink : Sink) (text : String) (store : Store) : Except HostError Value × Store :=
  match sink with
  | .collecting => (.ok .unit, store.print text)
  | .refusing message =>
      if text.isEmpty then (.ok .unit, store) else (.error (.plain message), store)

/-- A body that only looks at the store. -/
def reading (body : HostCall → Store → Except HostError Value) : HostBody :=
  fun call store => (body call store, store)

/-- A body that writes the text of its argument, with something behind it. -/
def printing (sink : Sink) (terminator : String) : HostBody := fun call store =>
  match call.arg 0 with
  | .error error => (.error error, store)
  | .ok value => write sink (value.display store ++ terminator) store

/-- A whole number that is known to be a length. -/
def lengthValue (length : Nat) : Value := .int (Int64.ofNat length)

/-- The functions that print and convert. -/
def printingFunctions (sink : Sink) : List HostFunction :=
  [.ofTypes "print" [.any] (printing sink ""),
    .ofTypes "println" [.any] (printing sink "\n"),
    .ofTypes "to_string" [.any] (reading fun call store => do
      return .str ((← call.arg 0).display store))]

/-- A new iterator over a progression. -/
def rangeIterator (start stop step : Int64) (store : Store) : Except HostError Value × Store :=
  let (fresh, store) := store.allocIterator (.progression start stop step)
  (.ok (.iterator fresh), store)

/-- The bounds and the step of a range that is given by both bounds. -/
def rangeArgs (call : HostCall) (store : Store) : Except HostError (Int64 × Int64 × Int64) := do
  let step ← if call.isDefault 2 then .ok 1 else call.int store 2
  if step = 0 then throw (.plain "range step must not be zero")
  return (← call.int store 0, ← call.int store 1, step)

/-- The functions on texts, arrays and ranges. -/
def collectionFunctions : List HostFunction :=
  [.ofTypes "len" [.named "string"] (reading fun call store => do
      return lengthValue (← call.string store 0).length),
    .ofTypes "len" [.named "array"] (reading fun call store => do
      match ← call.arg 0 with
      | .array id => return lengthValue (store.array id).size
      | other => throw (.plain ("len expects an array, got " ++ other.typeName store))),
    .ofTypes "push" [.named "array", .any] (fun call store =>
      match call.arg 0, call.arg 1 with
      | .ok (.array id), .ok value =>
          let store := store.pushElement id value
          (.ok (lengthValue (store.array id).size), store)
      | .ok (.array _), .error error => (.error error, store)
      | .ok other, _ =>
          (.error (.plain ("push expects an array, got " ++ other.typeName store)), store)
      | .error error, _ => (.error error, store)),
    .ofTypes "range" [.named "int"] (fun call store =>
      match call.int store 0 with
      | .ok stop => rangeIterator 0 stop 1 store
      | .error error => (.error error, store)),
    HostFunction.withOptional
      (.ofTypes "range" [.named "int", .named "int"] fun call store =>
        match rangeArgs call store with
        | .ok (start, stop, step) => rangeIterator start stop step store
        | .error error => (.error error, store))
      (.named "int")]

/-- A whole number as a value, or a failure if it does not fit. -/
def fitting (value : Int) (overflow : String) : Except HostError Value :=
  if fitsInt64 value then .ok (.int (Int64.ofInt value)) else .error (.plain overflow)

/-- The power of a whole number, if it fits 64 bits. A base other than zero and the units leaves
the range at the sixty-fourth power at the latest. -/
def power? (base : Int) (exponent : Nat) : Option Int :=
  let small := if base.natAbs ≤ 1 then exponent % 2 + if exponent = 0 then 0 else 2 else exponent
  if 66 < small then none
  else
    let result := Int.pow base small
    if fitsInt64 result then some result else none

/-- The text of a call with two whole numbers. -/
def powerText (base : Int) (exponent : Nat) : String :=
  "pow(" ++ toString base ++ ", " ++ toString exponent ++ ")"

/-- Both arguments as whole numbers. -/
def twoInts (call : HostCall) (store : Store) : Except HostError (Int64 × Int64) := do
  return (← call.int store 0, ← call.int store 1)

/-- Both arguments as numbers. -/
def twoFloats (call : HostCall) (store : Store) : Except HostError (Binary64 × Binary64) := do
  return (← call.float store 0, ← call.float store 1)

/-- The functions on numbers. -/
def arithmeticFunctions : List HostFunction :=
  [.ofTypes "sqrt" [.named "float"] (reading fun call store => do
      let value ← call.float store 0
      if value.numLt .zero then
        throw (.plain ("sqrt of negative number " ++ Layout.plain.number value))
      return .float value.sqrt),
    .ofTypes "pow" [.named "int", .named "int"] (reading fun call store => do
      let (base, exponent) ← twoInts call store
      if exponent.toInt < 0 ∨ (twoTo 32 : Int) ≤ exponent.toInt then
        throw (.plain "pow exponent must be a non-negative int")
      match power? base.toInt exponent.toInt.toNat with
      | some result => return .int (Int64.ofInt result)
      | none =>
          throw (.plain ("integer overflow in " ++ powerText base.toInt exponent.toInt.toNat))),
    .ofTypes "pow" [.named "float", .named "float"] (reading fun call store => do
      let (base, exponent) ← twoFloats call store
      return .float (base.pow exponent)),
    .ofTypes "abs" [.named "int"] (reading fun call store => do
      let value := (← call.int store 0).toInt
      fitting value.natAbs ("integer overflow in abs(" ++ toString value ++ ")")),
    .ofTypes "abs" [.named "float"] (reading fun call store => do
      return .float (← call.float store 0).abs),
    .ofTypes "min" [.named "int", .named "int"] (reading fun call store => do
      let (left, right) ← twoInts call store
      return .int (if right.toInt < left.toInt then right else left)),
    .ofTypes "min" [.named "float", .named "float"] (reading fun call store => do
      let (left, right) ← twoFloats call store
      return .float (left.least right)),
    .ofTypes "max" [.named "int", .named "int"] (reading fun call store => do
      let (left, right) ← twoInts call store
      return .int (if left.toInt < right.toInt then right else left)),
    .ofTypes "max" [.named "float", .named "float"] (reading fun call store => do
      let (left, right) ← twoFloats call store
      return .float (left.greatest right))]

/-- All functions, in the order of their registration. -/
def functions (sink : Sink) : List HostFunction :=
  printingFunctions sink ++ collectionFunctions ++ arithmeticFunctions

end Library

/-- The registry with the default library. -/
def Registry.withLibrary (registry : Registry) (sink : Sink) : Registry :=
  (Library.functions sink).foldl registerFunction registry

end ScriptMachine
