import ProofLedger.Json.Basic
import ProofLedger.Text.Blank

/-!
# Points in time

An instant is a second of UTC, counted from the beginning of 1970, and a fraction of it. A leap
second is part of the second before it, whose fraction then runs on up to two seconds. The text
of an instant is the date and time in UTC with as many fraction digits as are exact in groups of
three: none, three, six or nine. A year outside 0 to 9999 has a sign.

Reading is lenient: numbers may miss leading zeros, blanks may stand before a number or a mark,
date and time may be parted by a blank, the zone may be any offset from UTC, and a leap second may
end any minute. Of the digits of a fraction nine count. Instants end with the years that have
one: what is read, and where a step leads, is none beyond them.
-/

namespace ProofLedger

/-- A point in time: a second, counted from the beginning of 1970, and the nanoseconds since
    that second began, a thousand million or more in the leap second that follows it. -/
structure Instant where
  second : Int
  fraction : Nat
  deriving DecidableEq, Repr, Inhabited

namespace Instant

instance : LT Instant :=
  ⟨fun a b => a.second < b.second ∨ (a.second = b.second ∧ a.fraction < b.fraction)⟩

instance : LE Instant :=
  ⟨fun a b => a.second < b.second ∨ (a.second = b.second ∧ a.fraction ≤ b.fraction)⟩

instance (a b : Instant) : Decidable (a < b) :=
  inferInstanceAs (Decidable (a.second < b.second ∨
    (a.second = b.second ∧ a.fraction < b.fraction)))

instance (a b : Instant) : Decidable (a ≤ b) :=
  inferInstanceAs (Decidable (a.second < b.second ∨
    (a.second = b.second ∧ a.fraction ≤ b.fraction)))

/-- The nanoseconds of a second. -/
def nanosPerSecond : Nat := 1000000000

/-- Whether an instant lies in a leap second. -/
def inLeapSecond (t : Instant) : Bool := nanosPerSecond ≤ t.fraction

/-- The instant a number of nanoseconds after the beginning of 1970, leap seconds not counted. -/
def ofNanos (n : Int) : Instant := ⟨n / nanosPerSecond, (n % nanosPerSecond).toNat⟩

/-- The point a number of nanoseconds later, whether or not it has a year. A leap second is left
    only by a step that leads out of it; a step forward then takes it for the second before, a
    step back for the second after. -/
def addNanos (t : Instant) (n : Int) : Instant :=
  let total : Int := t.second * nanosPerSecond + t.fraction + n
  if t.inLeapSecond then
    if -nanosPerSecond < n && t.fraction + n < 2 * nanosPerSecond then
      ⟨t.second, (t.fraction + n).toNat⟩
    else if 0 ≤ n then ofNanos (total - nanosPerSecond)
    else ofNanos total
  else ofNanos total

/-- The second of the day that an instant belongs to. -/
def secondOfDay (t : Instant) : Int := t.second % 86400

/-- The seconds to add for a leap second between two instants: one that the earlier lies in
    counts if the later stands at a later time of day, and the other way round. -/
def leapBetween (later earlier : Instant) : Int :=
  if earlier.inLeapSecond && earlier.secondOfDay < later.secondOfDay then 1
  else if later.inLeapSecond && later.secondOfDay < earlier.secondOfDay then -1
  else 0

/-- Nanoseconds from one instant to a later one. -/
def nanosSince (later earlier : Instant) : Int :=
  (later.second - earlier.second + leapBetween later earlier) * nanosPerSecond +
    (later.fraction - earlier.fraction : Int)

/-- Whole milliseconds from one instant to a later one, towards zero. -/
def millisSince (later earlier : Instant) : Int :=
  Int.tdiv (nanosSince later earlier) 1000000

-- ── Calendar ──────────────────────────────────────────────────────────────────

/-- Whether a year has a 29th of February. -/
def isLeapYear (year : Int) : Bool := year % 4 == 0 && (year % 100 != 0 || year % 400 == 0)

/-- The number of days of a month, counted from one. -/
def monthLength (year : Int) (month : Nat) : Nat :=
  match month with
  | 2 => if isLeapYear year then 29 else 28
  | 4 | 6 | 9 | 11 => 30
  | _ => 31

/-- The days of a year before a month. -/
def daysBeforeMonth (year : Int) : Nat → Nat
  | 0 => 0
  | 1 => 0
  | m + 2 => daysBeforeMonth year (m + 1) + monthLength year (m + 1)

/-- The days before a year, counted from the beginning of year one; negative for a year before
    it, the first of which is year zero. -/
def daysBeforeYear (year : Int) : Int :=
  let y := year - 1
  365 * y + y / 4 - y / 100 + y / 400

/-- The days from the beginning of year one to the beginning of 1970. -/
def epochDay : Int := 719162

/-- The number of a date, counted from the beginning of year one. -/
def dayNumber (year : Int) (month day : Nat) : Int :=
  daysBeforeYear year + (daysBeforeMonth year month + (day - 1) : Nat)

/-- The month, counted from `month`, and day of the month that lie `offset` days after the
    beginning of that month. -/
def monthDay (year : Int) : Nat → Nat → Nat → Nat × Nat
  | 0, month, offset => (month, offset + 1)
  | left + 1, month, offset =>
    if offset < monthLength year month then (month, offset + 1)
    else monthDay year left (month + 1) (offset - monthLength year month)

/-- The year of a day: of the two years around the mean the last that has begun. -/
def yearOf (day : Int) : Int :=
  let guess := day * 400 / 146097 + 1
  if daysBeforeYear (guess + 1) ≤ day then guess + 1
  else if daysBeforeYear guess ≤ day then guess
  else guess - 1

/-- Year, month and day of the month of a day number. -/
def dateOf (day : Int) : Int × Nat × Nat :=
  let year := yearOf day
  let (month, d) := monthDay year 11 1 (day - daysBeforeYear year).toNat
  (year, month, d)

-- ── Range ─────────────────────────────────────────────────────────────────────

/-- The first year. -/
def firstYear : Int := -262143

/-- The last year. -/
def lastYear : Int := 262142

/-- Whether a point in time lies between the beginning of the first year and the end of the
    last. -/
def inRange (t : Instant) : Bool :=
  (daysBeforeYear firstYear - epochDay) * 86400 ≤ t.second &&
    t.second < (daysBeforeYear (lastYear + 1) - epochDay) * 86400

/-- The instant at a point in time, if there is one. -/
def within? (t : Instant) : Option Instant := if t.inRange then some t else none

/-- The instant a number of milliseconds later. -/
def addMillis? (t : Instant) (ms : Int) : Option Instant := (t.addNanos (ms * 1000000)).within?

/-- The instant a number of seconds earlier. -/
def subSeconds? (t : Instant) (s : Nat) : Option Instant :=
  (t.addNanos (-(s * nanosPerSecond : Nat))).within?

-- ── Text ──────────────────────────────────────────────────────────────────────

/-- A number with leading zeros up to a width. -/
def padded (width n : Nat) : List Char :=
  let digits := Nat.toDigits 10 n
  List.replicate (width - digits.length) '0' ++ digits

/-- The fraction of a second, with its point, in the fewest groups of three digits. -/
def fractionText (nanos : Nat) : List Char :=
  if nanos == 0 then []
  else if nanos % 1000000 == 0 then '.' :: padded 3 (nanos / 1000000)
  else if nanos % 1000 == 0 then '.' :: padded 6 (nanos / 1000)
  else '.' :: padded 9 nanos

/-- A year in four digits; with its sign if it has more, or lies before year zero. -/
def yearText (year : Int) : List Char :=
  if year < 0 then '-' :: padded 4 year.natAbs
  else if 9999 < year then '+' :: padded 4 year.natAbs
  else padded 4 year.natAbs

/-- Date and time in UTC, followed by a mark for the zone. A leap second is second sixty. -/
def textWith (zone : List Char) (t : Instant) : String :=
  let (year, month, d) := dateOf (t.second / 86400 + epochDay)
  let time := t.secondOfDay.toNat
  let (second, fraction) :=
    if t.inLeapSecond then (time % 60 + 1, t.fraction - nanosPerSecond)
    else (time % 60, t.fraction)
  String.ofList (yearText year ++ '-' :: padded 2 month ++ '-' :: padded 2 d ++
    'T' :: padded 2 (time / 3600) ++ ':' :: padded 2 (time / 60 % 60) ++
    ':' :: padded 2 second ++ fractionText fraction ++ zone)

/-- The text of an instant. -/
def text (t : Instant) : String := textWith ['Z'] t

-- ── Reading ───────────────────────────────────────────────────────────────────

/-- The number that digits spell. -/
def digitsFold (cs : List Char) : Nat :=
  cs.foldl (fun acc c => acc * 10 + (c.toNat - '0'.toNat)) 0

/-- The number of a text that is nothing but digits. -/
def digitsValue (cs : List Char) : Option Nat :=
  if cs.all Char.isDigit then some (digitsFold cs) else none

/-- Nanoseconds of fraction digits, of which nine count. -/
def fractionValue (digits : List Char) : Nat :=
  let kept := digits.take 9
  digitsFold kept * Nat.pow 10 (9 - kept.length)

/-- A number of at least one digit and at most `width` at the beginning of a text, and what
    follows it. -/
def readNumber (width : Nat) (cs : List Char) : Option (Nat × List Char) :=
  let digits := (cs.take width).takeWhile Char.isDigit
  if digits.isEmpty then none else some (digitsFold digits, cs.drop digits.length)

/-- The year at the beginning of a text, and what follows it: up to four digits, or a sign and
    any number of digits. -/
def readYear (cs : List Char) : Option (Int × List Char) :=
  match Text.trimStart cs with
  | '+' :: r => (readNumber r.length r).map fun (year, rest) => ((year : Int), rest)
  | '-' :: r => (readNumber r.length r).map fun (year, rest) => (-(year : Int), rest)
  | r => (readNumber 4 r).map fun (year, rest) => ((year : Int), rest)

/-- A number of one or two digits within bounds, and what follows it. -/
def readField (least most : Nat) (cs : List Char) : Option (Nat × List Char) :=
  (readNumber 2 (Text.trimStart cs)).filter fun (n, _) => least ≤ n && n ≤ most

/-- What follows a mark. -/
def readMark (mark : Char) (cs : List Char) : Option (List Char) :=
  match Text.trimStart cs with
  | c :: rest => if c = mark then some rest else none
  | [] => none

/-- A number behind a mark, and what follows it. -/
def readNext (mark : Char) (least most : Nat) (cs : List Char) : Option (Nat × List Char) :=
  (readMark mark cs).bind (readField least most)

/-- Year, month and day of the month, and what follows them. -/
def readDate (cs : List Char) : Option ((Int × Nat × Nat) × List Char) := do
  let (year, rest) ← readYear cs
  let (month, rest) ← readNext '-' 1 12 rest
  let (day, rest) ← readNext '-' 1 31 rest
  return ((year, month, day), rest)

/-- What follows the sign between date and time. -/
def readSeparator : List Char → Option (List Char)
  | 'T' :: rest => some rest
  | 't' :: rest => some rest
  | ' ' :: rest => some rest
  | _ => none

/-- The nanoseconds of a fraction, if there is one, and what follows it. -/
def readFraction : List Char → Option (Nat × List Char)
  | '.' :: r =>
    let digits := r.takeWhile Char.isDigit
    if digits.isEmpty then none
    else some (fractionValue digits, r.dropWhile Char.isDigit)
  | r => some (0, r)

/-- The second of a day and its fraction, and what follows them. -/
def readTime (cs : List Char) : Option ((Nat × Nat) × List Char) := do
  let (hour, rest) ← readField 0 23 cs
  let (minute, rest) ← readNext ':' 0 59 rest
  let (second, rest) ← readNext ':' 0 60 rest
  let (fraction, rest) ← readFraction rest
  let time := hour * 3600 + minute * 60
  return (if second == 60 then (time + 59, nanosPerSecond + fraction)
    else (time + second, fraction), rest)

/-- The sign of an offset; the minus may be the hyphen or the sign of its own. -/
def signOf? : Char → Option Int
  | '+' => some 1
  | '-' => some (-1)
  | '\u2212' => some (-1)
  | _ => none

/-- The offset from UTC in seconds, and what follows it: `Z`, `UTC`, or a sign, hours and
    minutes, which may be parted by colons and blanks. -/
def readZone (cs : List Char) : Option (Int × List Char) :=
  if (cs.take 3).map Char.toUpper = ['U', 'T', 'C'] then some (0, cs.drop 3)
  else match cs with
    | 'Z' :: rest => some (0, rest)
    | 'z' :: rest => some (0, rest)
    | sign :: h1 :: h2 :: r =>
      match r.dropWhile fun c => c == ':' || Text.isBlank c with
      | m1 :: m2 :: rest => do
        let sign ← signOf? sign
        let hours ← digitsValue [h1, h2]
        let minutes ← digitsValue [m1, m2]
        if hours ≤ 23 && minutes ≤ 59 then
          some (sign * (hours * 3600 + minutes * 60 : Nat), rest)
        else none
      | _ => none
    | _ => none

/-- The instant of a date and a time of day in a zone, if there is one. -/
def ofLocal? (date : Int × Nat × Nat) (time : Nat × Nat) (zone : Int) : Option Instant :=
  let (year, month, day) := date
  if firstYear ≤ year && year ≤ lastYear && day ≤ monthLength year month then
    within? ⟨(dayNumber year month day - epochDay) * 86400 + time.1 - zone, time.2⟩
  else none

/-- Reads a date and time with its offset from UTC. -/
def readChars (cs : List Char) : Option Instant := do
  let (date, rest) ← readDate cs
  let rest ← readSeparator rest
  let (time, rest) ← readTime rest
  let (zone, rest) ← readZone (Text.trimStart rest)
  if rest.all Text.isBlank then ofLocal? date time zone else none

/-- Reads the text of an instant. -/
def ofText? (s : String) : Option Instant := readChars s.toList

/-- An instant in JSON. -/
def toJson (t : Instant) : Json := .string t.text

/-- Reads an instant from JSON. -/
def ofJson? (v : Json) : Option Instant := v.asString?.bind ofText?

end Instant

end ProofLedger
