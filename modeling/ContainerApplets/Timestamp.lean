import ContainerApplets.Text.Blank

/-!
Points in time, in universal time to the nanosecond. They are written in the usual form of the
internet, with the fewest groups of three digits after the second, and read in a relaxed one.
-/

namespace ContainerApplets

/-- Days are counted from the first of January 1970. A leap second is the last second of its minute
with a billion nanoseconds or more. -/
structure Timestamp where
  day : Int
  /-- The second of the day. -/
  second : Nat
  nanosecond : Nat
  deriving DecidableEq, Inhabited

namespace Timestamp

/-! ### The calendar -/

structure Date where
  year : Int
  month : Nat
  day : Nat
  deriving DecidableEq

/-- The years of a calendar that begins in March, so that a leap day ends a year. -/
def dayOfDate (date : Date) : Int :=
  let year := if date.month ≤ 2 then date.year - 1 else date.year
  let era := year / 400
  let yearOfEra := year % 400
  let shifted : Int := (date.month + 9) % 12
  let dayOfYear := (153 * shifted + 2) / 5 + date.day - 1
  let dayOfEra := yearOfEra * 365 + yearOfEra / 4 - yearOfEra / 100 + dayOfYear
  era * 146097 + dayOfEra - 719468

def dateOfDay (day : Int) : Date :=
  let shifted := day + 719468
  let era := shifted / 146097
  let dayOfEra := shifted % 146097
  let yearOfEra := (dayOfEra - dayOfEra / 1460 + dayOfEra / 36524 - dayOfEra / 146096) / 365
  let dayOfYear := dayOfEra - (365 * yearOfEra + yearOfEra / 4 - yearOfEra / 100)
  let shiftedMonth := (5 * dayOfYear + 2) / 153
  let month := if shiftedMonth < 10 then shiftedMonth + 3 else shiftedMonth - 9
  let year := yearOfEra + era * 400
  ⟨if month ≤ 2 then year + 1 else year, month.toNat,
    (dayOfYear - (153 * shiftedMonth + 2) / 5 + 1).toNat⟩

def isLeapYear (year : Int) : Bool := year % 4 == 0 && (year % 100 != 0 || year % 400 == 0)

def daysIn (year : Int) (month : Nat) : Nat :=
  if month = 2 then (if isLeapYear year then 29 else 28)
  else if month ∈ [4, 6, 9, 11] then 30 else 31

def earliestYear : Int := -262143

def latestYear : Int := 262142

def isValidDate (date : Date) : Bool :=
  earliestYear ≤ date.year && date.year ≤ latestYear && 1 ≤ date.month && date.month ≤ 12 &&
    1 ≤ date.day && date.day ≤ daysIn date.year date.month

/-! ### Writing -/

def padded (width value : Nat) : String :=
  let digits := toString value
  String.ofList (List.replicate (width - digits.length) '0') ++ digits

/-- A year that has not four digits has a sign. -/
def yearText (year : Int) : String :=
  if 0 ≤ year ∧ year ≤ 9999 then padded 4 year.toNat
  else (if year < 0 then "-" else "+") ++ padded 4 year.natAbs

def fractionText (nanosecond : Nat) : String :=
  if nanosecond = 0 then ""
  else if nanosecond % 1000000 = 0 then "." ++ padded 3 (nanosecond / 1000000)
  else if nanosecond % 1000 = 0 then "." ++ padded 6 (nanosecond / 1000)
  else "." ++ padded 9 nanosecond

def text (time : Timestamp) : String :=
  let date := dateOfDay time.day
  let isLeap := 1000000000 ≤ time.nanosecond
  let second := time.second % 60 + if isLeap then 1 else 0
  let nanosecond := if isLeap then time.nanosecond - 1000000000 else time.nanosecond
  yearText date.year ++ "-" ++ padded 2 date.month ++ "-" ++ padded 2 date.day ++ "T" ++
    padded 2 (time.second / 3600) ++ ":" ++ padded 2 (time.second / 60 % 60) ++ ":" ++
    padded 2 second ++ fractionText nanosecond ++ "Z"

/-! ### Reading -/

def digitsValue (digits : List Char) : Nat :=
  digits.foldl (fun value char => value * 10 + (char.toNat - '0'.toNat)) 0

/-- Up to this many digits, and at least one. -/
def number? (width : Nat) (text : List Char) : Option (Nat × List Char) :=
  let digits := (text.take width).takeWhile Char.isDigit
  if digits.isEmpty then none else some (digitsValue digits, text.drop digits.length)

/-- A number after blanks. -/
def item? (width : Nat) (text : List Char) : Option (Nat × List Char) :=
  number? width (Text.trimStart text)

/-- A year after blanks; one with a sign may have any number of digits. -/
def year? (text : List Char) : Option (Int × List Char) :=
  match Text.trimStart text with
  | '-' :: rest => (number? rest.length rest).map fun found => (-(found.1 : Int), found.2)
  | '+' :: rest => (number? rest.length rest).map fun found => ((found.1 : Int), found.2)
  | rest => (number? 4 rest).map fun found => ((found.1 : Int), found.2)

/-- A sign of punctuation after blanks. -/
def mark? (mark : Char) (text : List Char) : Option (List Char) :=
  match Text.trimStart text with
  | char :: rest => if char = mark then some rest else none
  | [] => none

/-- A fraction of a second, of which nine digits count. -/
def fraction? (text : List Char) : Option (Nat × List Char) :=
  match text with
  | '.' :: rest =>
      (number? 9 rest).map fun found =>
        (found.1 * Nat.pow 10 (9 - (rest.length - found.2.length)),
          found.2.dropWhile Char.isDigit)
  | _ => some (0, text)

def twoDigits? : List Char → Option (Nat × List Char)
  | tens :: units :: rest =>
      if tens.isDigit ∧ units.isDigit then some (digitsValue [tens, units], rest) else none
  | _ => none

/-- The seconds of an offset from universal time. -/
def offset? (text : List Char) : Option (Int × List Char) := do
  if (text.take 3).map Char.toUpper = ['U', 'T', 'C'] then return (0, text.drop 3)
  match text with
  | [] => none
  | sign :: rest =>
      if sign = 'Z' ∨ sign = 'z' then return (0, rest)
      if ¬ (sign = '+' ∨ sign = '-' ∨ sign = '\u2212') then none
      let (hours, afterHours) ← twoDigits? rest
      let (minutes, after) ← twoDigits? (afterHours.dropWhile fun char =>
        char == ':' || Text.isBlank char)
      if 60 ≤ minutes ∨ 24 ≤ hours then none
      let seconds : Int := hours * 3600 + minutes * 60
      return (if sign = '+' then seconds else -seconds, after)

/-- Between the date and the time. -/
def dropSeparator? : List Char → Option (List Char)
  | char :: rest => if char = 'T' ∨ char = 't' ∨ char = ' ' then some rest else none
  | [] => none

/-- A point in time by a local date and time and the offset of the place. -/
def ofLocal? (date : Date) (hour minute second nanosecond : Nat) (offset : Int) :
    Option Timestamp :=
  if isValidDate date ∧ hour < 24 ∧ minute < 60 ∧ second ≤ 60 then
    let leap := if second = 60 then 1000000000 else 0
    let clock : Int := hour * 3600 + minute * 60 + min second 59
    let shifted := clock - offset
    let day := dayOfDate date + shifted / 86400
    if isValidDate (dateOfDay day) then
      some ⟨day, (shifted % 86400).toNat, leap + nanosecond⟩
    else none
  else none

def ofText? (text : String) : Option Timestamp := do
  let (year, rest) ← year? text.toList
  let rest ← mark? '-' rest
  let (month, rest) ← item? 2 rest
  let rest ← mark? '-' rest
  let (day, rest) ← item? 2 rest
  let rest ← dropSeparator? rest
  let (hour, rest) ← item? 2 rest
  let rest ← mark? ':' rest
  let (minute, rest) ← item? 2 rest
  let rest ← mark? ':' rest
  let (second, rest) ← item? 2 rest
  let (nanosecond, rest) ← fraction? rest
  let (offset, rest) ← offset? (Text.trimStart rest)
  if (Text.trimStart rest).isEmpty then
    ofLocal? ⟨year, month, day⟩ hour minute second nanosecond offset
  else none

end Timestamp

end ContainerApplets
