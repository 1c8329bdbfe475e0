import ScriptMachine.Value.Rendering

/-!
# Operators on values

The built-in meaning of the operators. `none` says that an operator has no meaning for its operands;
a fault says that it has one and the operands have no result. Arithmetic on whole numbers is exact:
it is carried out on integers, and a result outside 64 bits is a fault.
-/

namespace ScriptMachine

/-- The meaning of an operator for some operands, if it has one. -/
abbrev OperatorResult := Option (Except RuntimeFault Value)

/-- A whole number as a value, or the fault if it does not fit. -/
def checkedInt (overflow : RuntimeFault) (value : Int) : Except RuntimeFault Value :=
  if fitsInt64 value then .ok (.int (Int64.ofInt value)) else .error overflow

/-- Operators on whole numbers. Division truncates toward zero. -/
def intBinary (operator : BinaryOp) (left right : Int64) : OperatorResult :=
  let a := left.toInt
  let b := right.toInt
  let overflow := RuntimeFault.unknown
    ("integer overflow in " ++ toString a ++ " " ++ operator.symbol ++ " " ++ toString b)
  match operator with
  | .add => some (checkedInt overflow (a + b))
  | .sub => some (checkedInt overflow (a - b))
  | .mul => some (checkedInt overflow (a * b))
  | .div => some (if b = 0 then .error .divisionByZero else checkedInt overflow (a.tdiv b))
  | .mod =>
      -- The remainder is refused together with the quotient, which may not fit.
      some (if b = 0 then .error .divisionByZero
        else if fitsInt64 (a.tdiv b) then checkedInt overflow (a.tmod b)
        else .error overflow)
  | .lt => some (.ok (.bool (decide (a < b))))
  | .le => some (.ok (.bool (decide (a ≤ b))))
  | .gt => some (.ok (.bool (decide (b < a))))
  | .ge => some (.ok (.bool (decide (b ≤ a))))
  | _ => none

/-- Operators on numbers of which at least one is not whole. -/
def floatBinary (operator : BinaryOp) (left right : Binary64) : OperatorResult :=
  match operator with
  | .add => some (.ok (.float (left.add right)))
  | .sub => some (.ok (.float (left.sub right)))
  | .mul => some (.ok (.float (left.mul right)))
  | .div => some (.ok (.float (left.div right)))
  | .mod => some (.ok (.float (left.rem right)))
  | .lt => some (.ok (.bool (left.numLt right)))
  | .le => some (.ok (.bool (left.numLe right)))
  | .gt => some (.ok (.bool (right.numLt left)))
  | .ge => some (.ok (.bool (right.numLe left)))
  | _ => none

/-- Comparison of texts by code points. -/
def textBinary (operator : BinaryOp) (left right : String) : OperatorResult :=
  match operator with
  | .lt => some (.ok (.bool (decide (left < right))))
  | .le => some (.ok (.bool (!decide (right < left))))
  | .gt => some (.ok (.bool (decide (right < left))))
  | .ge => some (.ok (.bool (!decide (left < right))))
  | _ => none

namespace Value

/-- Equality of values, down to `bound` levels of arrays: shared things are equal if they are the
same, and two arrays also if their elements are. -/
def equalWithin (store : Store) : Nat → Value → Value → Bool
  | _, .unit, .unit => true
  | _, .useDefault, .useDefault => true
  | _, .bool left, .bool right => left == right
  | _, .int left, .int right => left == right
  | _, .float left, .float right => left.numEq right
  | _, .int left, .float right => (Binary64.ofInt left.toInt).numEq right
  | _, .float left, .int right => (Binary64.ofInt right.toInt).numEq left
  | _, .str left, .str right => left == right
  | 0, .array left, .array right => left == right
  | bound + 1, .array left, .array right =>
      left == right ||
        ((store.array left).size == (store.array right).size &&
          ((store.array left).toList.zip (store.array right).toList).all fun pair =>
            equalWithin store bound pair.1 pair.2)
  | _, .closure left, .closure right => left == right
  | _, .iterator left, .iterator right => left == right
  | _, .object left, .object right => left == right
  | _, _, _ => false

/-- Equality of values. A chain of distinct pairs of arrays is no longer than the number of pairs,
so the bound is no limit where the comparison has an end. -/
def equal (store : Store) (left right : Value) : Bool :=
  left.equalWithin store (store.arrays.size * store.arrays.size + 1) right

/-- The built-in meaning of an operator between two values. -/
def binary (store : Store) (operator : BinaryOp) (left right : Value) : OperatorResult :=
  match operator, left, right with
  | .eq, left, right => some (.ok (.bool (left.equal store right)))
  | .ne, left, right => some (.ok (.bool (!left.equal store right)))
  | .and, .bool left, .bool right => some (.ok (.bool (left && right)))
  | .or, .bool left, .bool right => some (.ok (.bool (left || right)))
  | .add, .str left, right => some (.ok (.str (left ++ right.display store)))
  | .add, .object _, .str _ => none
  | .add, left, .str right => some (.ok (.str (left.display store ++ right)))
  | operator, .int left, .int right => intBinary operator left right
  | operator, .int left, .float right => floatBinary operator (Binary64.ofInt left.toInt) right
  | operator, .float left, .int right => floatBinary operator left (Binary64.ofInt right.toInt)
  | operator, .float left, .float right => floatBinary operator left right
  | operator, .str left, .str right => textBinary operator left right
  | _, _, _ => none

/-- The built-in meaning of an operator on one value. -/
def unary (operator : UnaryOp) (operand : Value) : OperatorResult :=
  match operator, operand with
  | .neg, .int value => some (checkedInt (.unknown "integer overflow") (-value.toInt))
  | .neg, .float value => some (.ok (.float value.neg))
  | .not, .bool value => some (.ok (.bool (!value)))
  | _, _ => none

end Value

end ScriptMachine
