import Annals.Record.Basic
import Annals.Time.Rfc3339

namespace Annals

open Annals.Time

/-- A revision with its change statistics. -/
structure Commit where
  ident : Ident := {}
  revision : String
  authorId : Option EntityId := none
  branchId : Option EntityId := none
  committedAt : Instant
  message : String := ""
  linesAdded : Int64 := 0
  linesRemoved : Int64 := 0
  deriving DecidableEq

namespace Commit

instance : Record Commit where
  ident := Commit.ident
  withIdent c i := { c with ident := i }

/-- All lines touched, unless their number leaves the 64-bit range. -/
def churn? (c : Commit) : Option Int64 :=
  Number.int64? (c.linesAdded.toInt + c.linesRemoved.toInt)

end Commit

end Annals
