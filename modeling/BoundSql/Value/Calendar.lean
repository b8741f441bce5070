import BoundSql.Calendar.DateTime
import BoundSql.Value.Basic

/-!
# Dates as values

Dates and points in time are stored as text.
-/

namespace BoundSql

namespace Value

/-- A date is stored as its text. -/
def ofDate (d : Calendar.Date) : Value := .text (String.ofList d.text)

/-- A point in time is stored as its text. -/
def ofDateTime (t : Calendar.DateTime) : Value := .text (String.ofList t.text)

end Value

end BoundSql
