import ScriptMachine.Options.Reads
import ScriptMachine.Options.Setting

/-!
# Reading days and times

A day is written as `1979-05-27` and a time as `07:32:00`, with a fraction of the second if need be.
Between the two stands a `T` or a space. How far the clock is ahead of the common one may follow, or
a `Z` for not at all.
-/

namespace ScriptMachine

namespace Reads

/-- Whether a text starts with so many digits and the mark behind them. -/
def startsWithDigits (count : Nat) (mark : Char) (text : List Char) : Bool :=
  (text.take count).length == count && (text.take count).all Reading.isDigit &&
    (text.drop count).head? == some mark

def startsWithDay (text : List Char) : Bool := startsWithDigits 4 '-' text

def startsWithTime (text : List Char) : Bool := startsWithDigits 2 ':' text

/-- A day that the calendar has. -/
def day : Reads Day := do
  let year ← fixedDigits 10 4
  expect '-'
  let month ← fixedDigits 10 2
  expect '-'
  let date : Day := ⟨year, month, ← fixedDigits 10 2⟩
  if date.isValid then return date else failure

/-- The nanoseconds of a fraction of a second; what is below them is dropped. -/
def nanosecond : Reads Nat := do
  if (← take? ['.']).isNone then return 0
  let text ← get
  let places := text.takeWhile Reading.isDigit
  if places.isEmpty then failure
  set (text.dropWhile Reading.isDigit)
  return Reading.digitsValue 0 ((places ++ List.replicate 9 '0').take 9)

/-- A time of day. -/
def clock : Reads Clock := do
  let hour ← fixedDigits 10 2
  expect ':'
  let minute ← fixedDigits 10 2
  expect ':'
  let second ← fixedDigits 10 2
  let clock : Clock := ⟨hour, minute, second, ← nanosecond⟩
  if clock.isValid then return clock else failure

/-- By how many minutes the clock is ahead of the common one, if that is said. -/
def ahead? : Reads (Option Int) := do
  match ← take? ['Z', 'z', '+', '-'] with
  | none => return none
  | some sign =>
      if sign = 'Z' ∨ sign = 'z' then return some 0
      let hour ← fixedDigits 10 2
      expect ':'
      let minute ← fixedDigits 10 2
      if hour < 24 ∧ minute < 60 then
        let minutes : Int := hour * 60 + minute
        return some (if sign = '-' then -minutes else minutes)
      else failure

/-- Whether a time follows behind a day. -/
def timeFollows : List Char → Bool
  | mark :: rest => ['T', 't', ' '].contains mark && startsWithTime rest
  | [] => false

/-- A day with a time behind it if there is one, or a time alone. -/
def moment : Reads Moment := do
  if startsWithTime (← get) then return .time (← clock)
  let date ← day
  if !timeFollows (← get) then return .day date
  modify List.tail
  let clock ← clock
  match ← ahead? with
  | none => return .dayTime date clock
  | some ahead => return .instant date clock ahead

end Reads

end ScriptMachine
