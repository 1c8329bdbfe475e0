import ScriptMachine.Number.Binary64

/-!
# Settings

What can stand behind a key of an options document. Only whole numbers and booleans say something to
the program, but a document may hold every kind of value where nothing is looked at, and it has to
be well formed there too.
-/

namespace ScriptMachine

/-- A day of the calendar. -/
structure Day where
  year : Nat
  month : Nat
  day : Nat
deriving DecidableEq

namespace Day

/-- Every fourth year is a leap year, but of the full centuries only every fourth. -/
def isLeapYear (year : Nat) : Bool :=
  year % 4 = 0 && (year % 100 ≠ 0 || year % 400 = 0)

/-- How many days a month has. -/
def daysIn (year month : Nat) : Nat :=
  if month = 2 then if isLeapYear year then 29 else 28
  else if [4, 6, 9, 11].contains month then 30
  else 31

/-- Whether the calendar has the day. -/
def isValid (date : Day) : Bool :=
  1 ≤ date.month && date.month ≤ 12 && 1 ≤ date.day && date.day ≤ daysIn date.year date.month

end Day

/-- A time of day, to the nanosecond. -/
structure Clock where
  hour : Nat
  minute : Nat
  second : Nat
  nanosecond : Nat
deriving DecidableEq

/-- A minute may have a sixty-first second, which clocks now and then insert. -/
def Clock.isValid (clock : Clock) : Bool :=
  clock.hour < 24 && clock.minute < 60 && clock.second ≤ 60

/-- A point in time, or a part of one. -/
inductive Moment where
  | day (date : Day)
  | time (clock : Clock)
  | dayTime (date : Day) (clock : Clock)
  /-- A day and a time so many minutes ahead of the common clock. -/
  | instant (date : Day) (clock : Clock) (ahead : Int)
deriving DecidableEq

/-- A value in an options document. The members of a table stand under the names of their keys. -/
inductive Setting where
  | integer (value : Int)
  | boolean (value : Bool)
  | real (value : Binary64)
  | text (value : String)
  | moment (value : Moment)
  | list (items : List Setting)
  | table (members : List (List String × Setting))

/-- Whether two keys can stand in one table: neither leads to, or into, what the other names. -/
def keysAgree (left right : List String) : Bool := !left.isPrefixOf right && !right.isPrefixOf left

/-- Whether every two of the keys can stand in one table. -/
def keysAgreeAll : List (List String) → Bool
  | [] => true
  | key :: rest => rest.all (keysAgree key) && keysAgreeAll rest

/-- The table with the given members, if their keys agree. -/
def Setting.table? (members : List (List String × Setting)) : Option Setting :=
  if keysAgreeAll (members.map Prod.fst) then some (.table members) else none

/-- A line that says something. -/
inductive SettingLine where
  | header (path : List String)
  | assignment (path : List String) (value : Setting)

end ScriptMachine
