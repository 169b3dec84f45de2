import Annals.Stream.Basic

namespace Annals.Stream

inductive Request where
  | hasNext
  /-- The next record; a failure is the reply. -/
  | next
  | rest
  /-- As `rest`, but no more than so many answers. -/
  | take (limit : Nat)
  /-- The next record; a failure stops the reading. -/
  | demand
  /-- All records that follow; a failure stops the reading. -/
  | demandRest
  deriving DecidableEq, Repr

inductive Reply (α : Type) where
  | follows (outcome : Except Failure Bool)
  | record (outcome : Except Failure α)
  | answers (outcomes : List (Except Failure α))
  /-- The answers up to the end, and whether the stream stays at its end when
  asked again. -/
  | ended (outcomes : List (Except Failure α)) (stays : Bool)
  | records (rs : List α)

def Request.put {α : Type} (s : RecordStream α) :
    Request → Except Failure (Reply α) × RecordStream α
  | hasNext => let (outcome, s) := s.hasNext; (.ok (.follows outcome), s)
  | next => let (outcome, s) := s.next; (.ok (.record outcome), s)
  | rest =>
    let (outcomes, s) := s.entities
    -- after a failure nothing more is asked of the stream
    if outcomes.any (fun outcome =>
      !outcome.isOk) then (.ok (.ended outcomes true), s)
    else
      let (again, s) := s.step
      (.ok (.ended outcomes again.isNone), s)
  | take limit =>
    let (outcomes, s) := s.walk limit; (.ok (.answers outcomes), s)
  | demand =>
    let (outcome, s) := s.next; (outcome.map fun a => .record (.ok a), s)
  | demandRest => let (outcome, s) := s.collect; (outcome.map .records, s)

/-- A reading up to the request that stops it: the replies, the failure that
stopped it, and the stream. -/
def read {α : Type} (s : RecordStream α) :
    List Request → List (Reply α) × Option Failure × RecordStream α
  | [] => ([], none, s)
  | request :: requests =>
    match request.put s with
    | (.error f, s) => ([], some f, s)
    | (.ok reply, s) =>
      let (replies, stopped, s) := read s requests
      (reply :: replies, stopped, s)

end Annals.Stream
