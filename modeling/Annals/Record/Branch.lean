import Annals.Record.Basic
import Annals.Time.Rfc3339

namespace Annals

open Annals.Time

structure Branch where
  ident : Ident := {}
  name : String
  createdAt : Instant
  /-- When the branch was merged back, if it was. -/
  mergedAt : Option Instant := none
  deriving DecidableEq

namespace Branch

instance : Record Branch where
  ident := Branch.ident
  withIdent b i := { b with ident := i }

def isMerged (b : Branch) : Bool := b.mergedAt.isSome

end Branch

end Annals
