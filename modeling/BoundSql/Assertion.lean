import BoundSql.Build
import BoundSql.Query.Fragment

/-!
# Assertions

Beside the errors that a call can give, the library asserts something of itself: what a builder of
one statement makes is aligned, and so is a batch that is about to be run.  A program built for
development checks its assertions, and the first that fails stops it, with neither a result nor an
error; a program built for release leaves them out.  The builders and the operations of a database
are defined without assertions; `Build.asserted` and `Database.call` are the same with them.

What may be stopped is an `OptionT`, in which `none` says that it was.
-/

namespace BoundSql

/-- Whether assertions are checked or left out. -/
inductive Assertions where
  | checked
  | omitted
deriving DecidableEq, Repr

namespace Assertions

variable {m : Type → Type} [Monad m]

/-- Stops if what is asserted does not hold, unless assertions are left out. -/
def assert (a : Assertions) (holds : Bool) : OptionT m Unit :=
  match a with
  | checked => if holds then pure () else failure
  | omitted => pure ()

end Assertions

/-- Builds one statement, which is asserted to be aligned.  So do the builders of selects, updates,
deletions, inserts of one row, creations and removals of tables. -/
def Build.asserted (a : Assertions) (x : Build Statement) : OptionT Build Statement := do
  let s ← OptionT.lift x
  a.assert s.isAligned
  return s

end BoundSql
