import Annals.Session.Basic

namespace Annals

open Annals.Sql Annals.Stream

/-- Answers that are ready to be given. -/
structure Canned where
  dialect : Dialect
  executions : List (Except Failure Nat) := []
  results : List (Except Failure (List Cursor)) := []
  beginnings : List (Except Failure Unit) := []
  commits : List (Except Failure Unit) := []
  rollbacks : List (Except Failure Unit) := []
  closings : List (Except Failure Unit) := []

namespace Canned

/-- Gives the first answer of a queue, or `otherwise` when it is empty. -/
def take {α : Type} (queue : Canned → List (Except Failure α))
    (withQueue : Canned → List (Except Failure α) → Canned) (otherwise : α) :
    Access Canned α :=
  ExceptT.mk fun c =>
    match queue c with
    | [] => (.ok otherwise, c)
    | answer :: rest => (answer, withQueue c rest)

/-- One row is affected, and a result without rows is opened once, unless the
queues say otherwise. -/
instance : Session Canned where
  dialect := Canned.dialect
  execute _ _ := take executions (fun c rest => { c with executions := rest }) 1
  query _ _ := take results (fun c rest => { c with results := rest })
    [{ fetches := [] }]
  beginTransaction :=
    take beginnings (fun c rest => { c with beginnings := rest }) ()
  commit := take commits (fun c rest => { c with commits := rest }) ()
  rollback := take rollbacks (fun c rest => { c with rollbacks := rest }) ()
  close := take closings (fun c rest => { c with closings := rest }) ()

end Canned

end Annals
