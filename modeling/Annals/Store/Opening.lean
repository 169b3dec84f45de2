import Annals.Database.Connection
import Annals.Store.Transaction

namespace Annals

open Annals.Log Annals.Sql

namespace Config

/-- Connects to the database of a configuration.  `reachable` says which files
can be opened. -/
def connect (reachable : String → Bool) (c : Config) :
    Except Failure Database := do
  c.validate
  match c.dialect, c.path with
  | .sqlite, some path =>
    if path = inMemoryPath ∨ reachable path then return {}
    else throw (Failure.backend ("unable to open database file: " ++ path))
  | .sqlite, none => throw (missing c.dialect "path")
  | d, _ =>
    throw (Failure.configuration ("no " ++ d.name ++
      " driver is linked into this build; attach a session with StoreHandle::with_session"))

end Config

namespace Store

def fromConfig (reachable : String → Bool) (c : Config) :
    Except Failure (Store Database) × List Event :=
  let target := [("target", c.descriptor)]
  let started := Event.started writeComponent "open"
    ((Detail.dialect.name, c.dialect.name) :: target)
  match c.connect reachable with
  | .ok database =>
    (.ok (ofSession database c.options),
      [started, .finished writeComponent "open" target])
  | .error f => (.error f, [started, .failed writeComponent "open" f target])

end Store

end Annals
