import BoundSql.Calendar.Date

/-!
# Points in time

A `DateTime` is a date with a time of day to the nanosecond.  A leap second is the second 59 with a
second or more of nanoseconds.  `DateTime.text` is the text it is stored as, `DateTime.instant` its
distance from the start of 1970.
-/

namespace BoundSql

namespace Calendar

/-- A time of day. -/
structure Time where
  hour : Nat
  minute : Nat
  second : Nat
  nano : Nat
  hour_lt : hour < 24
  minute_lt : minute < 60
  second_lt : second < 60
  nano_lt : nano < 2000000000
  leap : 1000000000 ≤ nano → second = 59
deriving DecidableEq, Repr

namespace Time

/-- The time of day with these parts, if there is one. -/
def ofHms? (hour minute second nano : Nat) : Option Time :=
  if h : hour < 24 ∧ minute < 60 ∧ second < 60 ∧ nano < 2000000000 ∧
      (1000000000 ≤ nano → second = 59) then
    some ⟨hour, minute, second, nano, h.1, h.2.1, h.2.2.1, h.2.2.2.1, h.2.2.2.2⟩
  else none

/-- The fraction of a second: nothing if it is zero, else a point and three, six or nine digits, the
fewest that are exact. -/
def fractionText (nano : Nat) : List Char :=
  if nano = 0 then []
  else if nano % 1000000 = 0 then '.' :: Text.padded 3 (nano / 1000000)
  else if nano % 1000 = 0 then '.' :: Text.padded 6 (nano / 1000)
  else '.' :: Text.padded 9 nano

/-- Hour, minute and second with colons, and the fraction; a leap second is second 60. -/
def text (t : Time) : List Char :=
  Text.padded 2 t.hour ++ ':' :: (Text.padded 2 t.minute ++ ':' ::
    (Text.padded 2 (t.second + t.nano / 1000000000) ++ fractionText (t.nano % 1000000000)))

end Time

/-- A date and a time of day. -/
structure DateTime where
  date : Date
  time : Time
deriving DecidableEq, Repr

namespace DateTime

/-- The point so many seconds and nanoseconds after the start of 1970, if there is one. -/
def ofTimestamp? (seconds : Int) (nano : Nat) : Option DateTime := do
  let date ← Date.ofDayNumber? (seconds / 86400)
  let s := (seconds % 86400).toNat
  let time ← Time.ofHms? (s / 3600) (s / 60 % 60) (s % 60) nano
  return ⟨date, time⟩

/-- The number of nanoseconds since the start of 1970. -/
def instant (t : DateTime) : Int :=
  (((t.date.dayNumber * 24 + t.time.hour) * 60 + t.time.minute) * 60 + t.time.second) *
    1000000000 + t.time.nano

/-- Date and time with a space in between. -/
def text (t : DateTime) : List Char :=
  t.date.text ++ ' ' :: t.time.text

end DateTime

end Calendar

end BoundSql
