import ForthFrontend.Text.Decimal

/-!
# Points in time

An unquoted text of a YAML document is a point in time if it is a date, or a date followed by a time
of day. Months, days, hours, minutes and seconds have one or two digits; a fraction of a second may
follow after a point or comma. After `T` or `t` a zone is required, after a space none is allowed.
-/

namespace ForthFrontend.Yaml

/-- A point in time. The zone is given in minutes; a date alone, or a time without a zone, is in the
zone zero. -/
structure Timestamp where
  year : Nat
  month : Nat
  day : Nat
  hour : Nat := 0
  minute : Nat := 0
  second : Nat := 0
  nanosecond : Nat := 0
  zone : Int := 0
  deriving Repr, DecidableEq, Inhabited

namespace Timestamp

/-- Takes one or two digits off the front of a text. -/
def shortNumber? : Bytes → Option (Nat × Bytes)
  | a :: b :: rest =>
    if Bytes.isDigit a then
      if Bytes.isDigit b then some (Bytes.digitValue a * 10 + Bytes.digitValue b, rest)
      else some (Bytes.digitValue a, b :: rest)
    else none
  | [a] => if Bytes.isDigit a then some (Bytes.digitValue a, []) else none
  | [] => none

/-- Takes a given byte off the front of a text. -/
def expect? (b : UInt8) : Bytes → Option Bytes
  | a :: rest => if a == b then some rest else none
  | [] => none

/-- Does the year have a leap day? -/
def isLeap (year : Nat) : Bool :=
  year % 4 == 0 && (year % 100 != 0 || year % 400 == 0)

/-- The number of days of a month. -/
def daysIn (month year : Nat) : Nat :=
  if month == 2 then (if isLeap year then 29 else 28)
  else if [4, 6, 9, 11].contains month then 30 else 31

/-- Takes a date off the front of a text: a year of four digits, a month and a day. -/
def date? (s : Bytes) : Option (Timestamp × Bytes) := do
  let year ← Decimal.digitsValue? 10 (s.take 4)
  let rest ← expect? 0x2D (s.drop 4)
  let (month, rest) ← shortNumber? rest
  let rest ← expect? 0x2D rest
  let (day, rest) ← shortNumber? rest
  if 1 ≤ month && month ≤ 12 && 1 ≤ day && day ≤ daysIn month year then
    return ({ year, month, day }, rest)
  else none

/-- Takes a fraction of a second off the front of a text, in nanoseconds; there may be none. -/
def fraction (s : Bytes) : Nat × Bytes :=
  match s with
  | p :: d :: rest =>
    if (p == 0x2E || p == 0x2C) && Bytes.isDigit d then
      let digits := (d :: rest).takeWhile Bytes.isDigit
      let nine := (digits ++ Bytes.fill 9 0x30).take 9
      ((Decimal.digitsValue? 10 nine).getD 0, (d :: rest).dropWhile Bytes.isDigit)
    else (0, s)
  | _ => (0, s)

/-- Takes a time of day off the front of a text. -/
def time? (t : Timestamp) (s : Bytes) : Option (Timestamp × Bytes) := do
  let (hour, rest) ← shortNumber? s
  let rest ← expect? 0x3A rest
  let (minute, rest) ← shortNumber? rest
  let rest ← expect? 0x3A rest
  let (second, rest) ← shortNumber? rest
  let (nanosecond, rest) := fraction rest
  if hour < 24 && minute < 60 && second < 60 then
    return ({ t with hour, minute, second, nanosecond }, rest)
  else none

/-- Reads a zone: `Z`, or a sign, two digits, a colon and two digits. -/
def zone? (t : Timestamp) (s : Bytes) : Option Timestamp :=
  match s with
  | [0x5A] => some t
  | [sign, a, b, 0x3A, c, d] => do
    let hours ← Decimal.digitsValue? 10 [a, b]
    let minutes ← Decimal.digitsValue? 10 [c, d]
    let offset : Int := hours * 60 + minutes
    if 24 < hours || 60 < minutes then none
    else if sign == 0x2B then some { t with zone := offset }
    else if sign == 0x2D then some { t with zone := -offset }
    else none
  | _ => none

/-- The point in time that a text names. -/
def read? (s : Bytes) : Option Timestamp := do
  if (s.takeWhile Bytes.isDigit).length != 4 then none
  let (t, rest) ← date? s
  match rest with
  | [] => some t
  | b :: rest =>
    if b == 0x54 || b == 0x74 then
      let (t, rest) ← time? t rest
      zone? t rest
    else if b == Bytes.space then
      let (t, rest) ← time? t (rest.dropWhile (· == Bytes.space))
      if rest.isEmpty then some t else none
    else none

/-- A number with at least `width` digits. -/
def padded (width n : Nat) : Bytes :=
  let ds := Decimal.ofNat n
  Bytes.fill (width - ds.length) 0x30 ++ ds

/-- The fraction of a second without zeros at its end. -/
def fractionText (n : Nat) : Bytes :=
  if n == 0 then []
  else Bytes.dot :: Bytes.dropEndWhile (· == 0x30) (padded 9 n)

/-- The zone as a sign and four digits. -/
def zoneText (zone : Int) : Bytes :=
  (if zone < 0 then 0x2D else 0x2B) ::
    (padded 2 (zone.natAbs / 60) ++ padded 2 (zone.natAbs % 60))

/-- Date, time of day and zone, the zone zero also under its name. -/
def render (t : Timestamp) : Bytes :=
  padded 4 t.year ++ "-" ++ padded 2 t.month ++ "-" ++ padded 2 t.day ++ " "
    ++ padded 2 t.hour ++ ":" ++ padded 2 t.minute ++ ":" ++ padded 2 t.second
    ++ fractionText t.nanosecond ++ " " ++ zoneText t.zone ++ " "
    ++ (if t.zone == 0 then Bytes.ofString "UTC" else zoneText t.zone)

end Timestamp

end ForthFrontend.Yaml
