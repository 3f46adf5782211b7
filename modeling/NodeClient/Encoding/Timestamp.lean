import NodeClient.Encoding.Bytes

/-!
# Timestamp — instants in the RFC 3339 profile

`Timestamp.decode` reads a text from left to right and then checks the ranges of its fields.  Dates
are those of the proleptic Gregorian calendar from the year 0 on.  A leap second stands for the last
nanosecond before it, and only at the end of a month in UTC.
-/

namespace NodeClient

/-- An instant: seconds since the start of 1970 in UTC, rounded down, the nanoseconds after them,
and the UTC offset it was written with, in seconds. -/
structure Timestamp where
  unix : Int
  nanos : Nat
  offset : Int
deriving DecidableEq, Repr, Inhabited

namespace Timestamp

/-- The fields of the written form. -/
inductive Field where
  | year
  | month
  | day
  | separator
  | hour
  | minute
  | second
  | subsecond
  | offsetHour
  | offsetMinute
deriving DecidableEq, Repr

/-- The name of a field in messages. -/
def Field.name : Field → String
  | .year => "year"
  | .month => "month"
  | .day => "day"
  | .separator => "separator"
  | .hour => "hour"
  | .minute => "minute"
  | .second => "second"
  | .subsecond => "subsecond"
  | .offsetHour => "offset hour"
  | .offsetMinute => "offset minute"

/-- Why a text is no instant. -/
inductive Error where
  /-- A field does not have its form. -/
  | unparsed (field : Field)
  /-- A dash or colon is missing. -/
  | literal
  /-- A field has its form but not a value that it can have. -/
  | range (field : Field)
  /-- Something follows the instant. -/
  | trailing
deriving DecidableEq, Repr

/-- The text of an error. -/
def Error.message : Error → String
  | .unparsed field => "the '" ++ field.name ++ "' component could not be parsed"
  | .literal => "a character literal was not valid"
  | .range field => field.name ++ " was not in range"
  | .trailing => "unexpected trailing characters; the end of input was expected"

/-! ### Reading fields -/

/-- Whether the byte is an ASCII digit. -/
def isDigit (b : UInt8) : Bool :=
  48 ≤ b && b ≤ 57

/-- Exactly `n` digits: their value and the rest. -/
def digits? : Nat → Nat → Bytes → Option (Nat × Bytes)
  | 0, value, rest => some (value, rest)
  | n + 1, value, b :: rest =>
    if isDigit b then digits? n (value * 10 + (b.toNat - 48)) rest else none
  | _ + 1, _, [] => none

/-- A reader of a part of the text: a value and what is left. -/
abbrev Part (α : Type) := StateT Bytes (Except Error) α

/-- A field of exactly `n` digits. -/
def number (n : Nat) (field : Field) : Part Nat := fun input =>
  match digits? n 0 input with
  | some r => .ok r
  | none => .error (.unparsed field)

/-- This byte. -/
def literal (b : UInt8) : Part Unit
  | c :: rest => if c = b then .ok ((), rest) else .error .literal
  | [] => .error .literal

/-- Any one byte between the date and the time. -/
def separator : Part Unit
  | _ :: rest => .ok ((), rest)
  | [] => .error (.unparsed .separator)

/-- The value of the digits of a fraction in units of `unit` nanoseconds and below; what comes after
nine digits does not count. -/
def nanosOf (unit : Nat) : Bytes → Nat
  | [] => 0
  | b :: rest => (b.toNat - 48) * unit + nanosOf (unit / 10) rest

/-- The fraction of a second, if there is one. -/
def fraction : Part Nat
  | 46 :: rest =>
    let ds := rest.takeWhile isDigit
    if ds.isEmpty then .error (.unparsed .subsecond)
    else .ok (nanosOf 100000000 ds, rest.dropWhile isDigit)
  | input => .ok (0, input)

/-- The UTC offset: whether it is negative, its hours and its minutes. -/
def zone : Part (Bool × Nat × Nat) := do
  match ← get with
  | [] => throw (.unparsed .offsetHour)
  | b :: rest =>
    set rest
    if b = 90 ∨ b = 122 then
      pure (false, 0, 0)
    else if b = 43 ∨ b = 45 then
      let hours ← number 2 .offsetHour
      if 23 < hours then throw (.unparsed .offsetHour)
      literal 58
      let minutes ← number 2 .offsetMinute
      pure (b = 45, hours, minutes)
    else
      throw (.unparsed .offsetHour)

/-- The fields as they are written. -/
structure Fields where
  year : Nat
  month : Nat
  day : Nat
  hour : Nat
  minute : Nat
  second : Nat
  nanos : Nat
  west : Bool
  offsetHour : Nat
  offsetMinute : Nat

/-- Reads the fields. -/
def fields : Part Fields := do
  let year ← number 4 .year
  literal 45
  let month ← number 2 .month
  if month = 0 then throw (.unparsed .month)
  literal 45
  let day ← number 2 .day
  separator
  let hour ← number 2 .hour
  literal 58
  let minute ← number 2 .minute
  literal 58
  let second ← number 2 .second
  let nanos ← fraction
  let (west, offsetHour, offsetMinute) ← zone
  pure { year, month, day, hour, minute, second, nanos, west, offsetHour, offsetMinute }

/-! ### The calendar -/

/-- Whether the year has a leap day. -/
def isLeap (year : Int) : Bool :=
  year % 4 = 0 && (year % 100 ≠ 0 || year % 400 = 0)

/-- The number of days of a month. -/
def daysIn (year : Int) (month : Nat) : Nat :=
  match month with
  | 2 => if isLeap year then 29 else 28
  | 4 | 6 | 9 | 11 => 30
  | _ => 31

/-- The number of days from the start of 1970 to a date. -/
def dayNumber (year : Int) (month day : Nat) : Int :=
  -- years that start in March, so that the leap day comes last
  let y := if month ≤ 2 then year - 1 else year
  let m := if month ≤ 2 then month + 9 else month - 3
  365 * y + y.fdiv 4 - y.fdiv 100 + y.fdiv 400 + (153 * m + 2) / 5 + day - 719469

/-- Whether a day number is that of the last day of a month: the day after it is a first. -/
def isMonthEnd (number : Int) : Bool :=
  -- the month of a day number, by counting days in years that start in March
  let z := number + 719468
  let era := z.fdiv 146097
  let doe := (z - era * 146097).toNat
  let yoe := (doe - doe / 1460 + doe / 36524 - doe / 146096) / 365
  let doy := doe - (365 * yoe + yoe / 4 - yoe / 100)
  let mp := (5 * doy + 2) / 153
  let day := doy - (153 * mp + 2) / 5 + 1
  let month := if mp < 10 then mp + 3 else mp - 9
  let year : Int := yoe + era * 400 + (if month ≤ 2 then 1 else 0)
  day = daysIn year month

/-! ### Reading -/

/-- The instant that the fields name, after the ranges of the fields are checked in order. -/
def Fields.toTimestamp (f : Fields) : Except Error Timestamp := do
  if 12 < f.month then throw (.range .month)
  if f.day = 0 ∨ daysIn f.year f.month < f.day then throw (.range .day)
  if 23 < f.hour then throw (.range .hour)
  if 59 < f.minute then throw (.range .minute)
  if 60 < f.second then throw (.range .second)
  let leap := f.second = 60
  let second := if leap then 59 else f.second
  let nanos := if leap then 999999999 else f.nanos
  let size : Int := f.offsetHour * 3600 + f.offsetMinute * 60
  let offset := if f.west then -size else size
  let clock : Int := f.hour * 3600 + f.minute * 60 + second
  let unix := dayNumber f.year f.month f.day * 86400 + clock - offset
  if leap ∧ ¬(unix.emod 86400 = 86399 ∧ isMonthEnd (unix.ediv 86400)) then
    throw (.range .second)
  pure { unix, nanos, offset }

/-- The instant of a text. -/
def decode (text : String) : Except Error Timestamp := do
  let (f, rest) ← fields (Text.utf8 text)
  if 59 < f.offsetMinute then throw (.range .offsetMinute)
  if !rest.isEmpty then throw .trailing
  f.toTimestamp

end Timestamp
end NodeClient
