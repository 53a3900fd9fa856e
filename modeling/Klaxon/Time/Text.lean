import Klaxon.Time.Instant
import Klaxon.Time.Calendar
import Klaxon.Json.Record
import Klaxon.Text.Blank

/-!
# Timestamps as text

Timestamps are written as RFC 3339 in UTC, with three, six or nine digits of fraction, the fewest
that hold it, or none. `Instant.text` ends in `Z` and `Instant.offsetText` in `+00:00`.

Reading is lenient: blanks may stand before a number and around a separator, the `T` may be small or
a space, and the offset may be written `Z`, `z`, `UTC`, or as hours and minutes with or without a
colon. Dates have to be on the calendar, hours end at 23 and minutes at 59; second 60 is a leap
second.
-/

namespace Klaxon

namespace Time

/-- Writes a number with at least `width` digits. -/
def padded (width : Nat) (n : Nat) : List Char :=
  let digits := Nat.toDigits 10 n
  List.replicate (width - digits.length) '0' ++ digits

/-- Writes a year. -/
def yearText (year : Int) : List Char :=
  if 0 ≤ year ∧ year ≤ 9999 then padded 4 year.toNat
  else (if year < 0 then '-' else '+') :: padded 4 year.natAbs

/-- Writes the nanoseconds into a second. -/
def fractionText (nano : Nat) : List Char :=
  if nano = 0 then []
  else if nano % 1000000 = 0 then '.' :: padded 3 (nano / 1000000)
  else if nano % 1000 = 0 then '.' :: padded 6 (nano / 1000)
  else '.' :: padded 9 nano

/-- Writes a time of day. -/
def timeChars (t : TimeOfDay) : List Char :=
  let inLeap := 1000000000 ≤ t.nano
  let second := if inLeap then t.second % 60 + 1 else t.second % 60
  let nano := if inLeap then t.nano - 1000000000 else t.nano
  padded 2 (t.second / 3600) ++ ':' :: padded 2 (t.second / 60 % 60) ++ ':' :: padded 2 second ++
    fractionText nano

/-- Writes an instant without its offset. -/
def instantChars (t : Instant) : List Char :=
  let date := dateOfDay (t.split.1 / 86400)
  yearText date.year ++ '-' :: padded 2 date.month ++ '-' :: padded 2 date.day ++
    'T' :: timeChars t.timeOfDay

/-- A number of one up to `width` decimal digits at the front of a text, and the rest. -/
def readDigits (width : Nat) (cs : List Char) : Option (Nat × List Char) :=
  let digits := (cs.take width).takeWhile Char.isDigit
  if digits.isEmpty then none
  else
    some (digits.foldl (fun n c => n * 10 + (c.toNat - '0'.toNat)) 0, cs.drop digits.length)

/-- A number of at most two digits behind blanks, and the rest. -/
def readPair (cs : List Char) : Option (Nat × List Char) := readDigits 2 (Text.trimStart cs)

/-- A year behind blanks: four digits at most, or any number behind a sign. -/
def readYear (cs : List Char) : Option (Int × List Char) :=
  match Text.trimStart cs with
  | '-' :: rest => (readDigits rest.length rest).map fun (n, rest) => (-n, rest)
  | '+' :: rest => (readDigits rest.length rest).map fun (n, rest) => (n, rest)
  | rest => (readDigits 4 rest).map fun (n, rest) => (n, rest)

/-- The rest behind blanks and a separator. -/
def readSeparator (separator : Char) (cs : List Char) : Option (List Char) :=
  match Text.trimStart cs with
  | c :: rest => if c = separator then some rest else none
  | [] => none

/-- The nanoseconds of a fraction, if there is one, and the rest; digits behind the ninth are
dropped. -/
def readFraction : List Char → Option (Nat × List Char)
  | '.' :: rest => do
    let (n, _) ← readDigits 9 rest
    let count := ((rest.take 9).takeWhile Char.isDigit).length
    some (n * Nat.pow 10 (9 - count), rest.dropWhile Char.isDigit)
  | cs => some (0, cs)

/-- Seconds and their fraction behind a colon, and the rest. -/
def readSeconds (cs : List Char) : Option (Nat × Nat × List Char) := do
  let rest ← readSeparator ':' cs
  let (second, rest) ← readPair rest
  if 60 < second then none
  else
    let (nano, rest) ← readFraction rest
    some (second, nano, rest)

/-- Hours and minutes, and the rest. -/
def readHourMinute (cs : List Char) : Option (Nat × Nat × List Char) := do
  let (hour, rest) ← readPair cs
  let rest ← readSeparator ':' rest
  let (minute, rest) ← readPair rest
  if hour ≤ 23 ∧ minute ≤ 59 then some (hour, minute, rest) else none

/-- The time of day of a clock reading; second 60 is the leap second behind second 59. -/
def timeOf (hour minute second nano : Nat) : TimeOfDay :=
  if second = 60 then ⟨hour * 3600 + minute * 60 + 59, nano + 1000000000⟩
  else ⟨hour * 3600 + minute * 60 + second, nano⟩

/-- A time of day: hours and minutes, and seconds if they can be read. -/
def timeOfText? (text : String) : Option TimeOfDay := do
  let (hour, minute, rest) ← readHourMinute text.toList
  -- Without seconds the text may end right behind the minutes.
  let (second, nano, rest) := (readSeconds rest).getD (0, 0, rest)
  if (Text.trimStart rest).isEmpty then some (timeOf hour minute second nano) else none

/-- Whether a character may stand between the hours and minutes of an offset. -/
def isOffsetGap (c : Char) : Bool := c == ':' || Text.isBlank c

/-- An offset as a number of two digits of each hours and minutes, behind its sign. -/
def readOffsetDigits (cs : List Char) : Option (Nat × List Char) := do
  match cs with
  | h₁ :: h₂ :: rest =>
    if h₁.isDigit && h₂.isDigit then
      let (hours, _) ← readDigits 2 [h₁, h₂]
      match rest.dropWhile isOffsetGap with
      | m₁ :: m₂ :: rest =>
        if '0' ≤ m₁ && m₁ ≤ '5' && m₂.isDigit then
          let (minutes, _) ← readDigits 2 [m₁, m₂]
          some (hours * 3600 + minutes * 60, rest)
        else none
      | _ => none
    else none
  | _ => none

/-- The seconds of an offset, and the rest. -/
def readOffset (cs : List Char) : Option (Int × List Char) :=
  match cs with
  | 'Z' :: rest => some (0, rest)
  | 'z' :: rest => some (0, rest)
  | '+' :: rest => (readOffsetDigits rest).map fun (n, rest) => (n, rest)
  | '-' :: rest => (readOffsetDigits rest).map fun (n, rest) => (-n, rest)
  -- The minus sign of mathematics does for a hyphen.
  | '\u2212' :: rest => (readOffsetDigits rest).map fun (n, rest) => (-n, rest)
  | u :: t :: c :: rest =>
    if u.toLower == 'u' && t.toLower == 't' && c.toLower == 'c' then some (0, rest) else none
  | _ => none

/-- The date and the rest. -/
def readDate (cs : List Char) : Option (Date × List Char) := do
  let (year, rest) ← readYear cs
  let rest ← readSeparator '-' rest
  let (month, rest) ← readPair rest
  let rest ← readSeparator '-' rest
  let (day, rest) ← readPair rest
  some (⟨year, month, day⟩, rest)

/-- The first instant of the range of timestamps. -/
def minInstant : Instant := ⟨dayNumber ⟨minYear, 1, 1⟩ * day, false⟩

/-- The last instant of the range of timestamps. -/
def maxInstant : Instant := ⟨(dayNumber ⟨maxYear, 12, 31⟩ + 1) * day - 1, false⟩

/-- The instant of a date and time of day at an offset in seconds. -/
def instantOf (date : Date) (time : TimeOfDay) (offset : Int) : Instant :=
  ⟨((dayNumber date * 86400 + time.second - offset) * second) + time.nano,
    decide (1000000000 ≤ time.nano)⟩

/-- The instant that a timestamp writes. -/
def instantOfText? (text : String) : Option Instant := do
  let (date, rest) ← readDate text.toList
  let rest ← match rest with
    | c :: rest => if c == 'T' || c == 't' || c == ' ' then some rest else none
    | [] => none
  let (hour, minute, rest) ← readHourMinute rest
  let (second, nano, rest) ← readSeconds rest
  let (offset, rest) ← readOffset (Text.trimStart rest)
  let inRange := date.isValid && minYear ≤ date.year && date.year ≤ maxYear &&
    offset.natAbs < 86400 && (Text.trimStart rest).isEmpty
  let t := instantOf date (timeOf hour minute second nano) offset
  if inRange && decide (minInstant ≤ t) && decide (t ≤ maxInstant) then some t else none

end Time

/-- The text of an instant, ending in `Z`. -/
def Instant.text (t : Instant) : String := String.ofList (Time.instantChars t ++ ['Z'])

/-- The text of an instant, ending in `+00:00`. -/
def Instant.offsetText (t : Instant) : String :=
  String.ofList (Time.instantChars t ++ "+00:00".toList)

instance : ToJson Instant := ⟨fun t => .string t.text⟩
instance : FromJson Instant := ⟨fun j => j.text?.bind Time.instantOfText?⟩

instance : ToJson TimeOfDay := ⟨fun t => .string (String.ofList (Time.timeChars t))⟩
instance : FromJson TimeOfDay := ⟨fun j => j.text?.bind Time.timeOfText?⟩

end Klaxon
