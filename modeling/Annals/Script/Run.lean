import Annals.Script.Deeds

namespace Annals.Script

open Annals.Sql Annals.Stream Annals.Log

namespace Run

variable {σ α : Type}

def scopeFailed : Failure :=
  { kind := .internal, operation := some "body", message := "scope failed" }

def collectingAnswers (work : Run σ α) :
    Run σ (Except Stop α × List Answer) := do
  let before := (← get).memory.answers
  remember fun m => { m with answers := [] }
  let outcome ← Action.observe work
  let noted := (← get).memory.answers
  remember fun m => { m with answers := before }
  return (outcome, noted)

def collectingNotes (work : Run σ α) : Run σ (Except Stop α × List Note) := do
  let before := (← get).memory.notes
  remember fun m => { m with notes := [] }
  let outcome ← Action.observe work
  let noted := (← get).memory.notes
  remember fun m => { m with notes := before }
  return (outcome, noted)

def noteAnswer (a : Answer) : Run σ Unit :=
  remember fun m => { m with answers := m.answers ++ [a] }

def noteReading (n : Note) : Run σ Unit :=
  remember fun m => { m with notes := m.notes ++ [n] }

def outcomeOf : Except Stop Unit → Run σ Outcome
  | .ok () => return .done .nothing
  | .error (.failed f) => return .failed f
  | .error .abandoned => throw .abandoned

def finish : Ending → Run σ Unit
  | .ok => return
  | .fail => Action.fail scopeFailed
  | .abandon => throw .abandoned

variable [Session σ]

def scanRange : (range : Range) →
    (Scan (Scripted σ) range.subject.Entity → Run σ α) → Run σ α
  | .everything s, visit => s.adapter.loadWith visit
  | .window start stop, visit => Commit.scanBetween start stop visit

mutual

def step : Step → Run σ Answer
  | .deed d => deed d
  | .write op entity steps ending ignore => do
    let (outcome, noted) ← collectingAnswers
      (Store.write op entity (do body ignore steps; finish ending))
    return .scope (← outcomeOf outcome) noted
  | .read range inquiries => do
    let (outcome, noted) ← collectingNotes
      (scanRange range fun s => reading range.subject inquiries s)
    return .reading (← outcomeOf outcome) noted
  | .malformed => return .plain .malformed

/-- Runs steps and notes their answers.  Unless failures are ignored the first
one ends the work. -/
def body (ignore : Bool) : List Step → Run σ Unit
  | [] => return
  | first :: rest => do
    let answer ← step first
    noteAnswer answer
    match answer.failure?, ignore with
    | some f, false => Action.fail f
    | _, _ => body ignore rest

def reading (s : Subject) : List Inquiry → Scan (Scripted σ) s.Entity →
    Run σ Unit
  | [], _ => return
  | .request r :: rest, scan => do
    let (outcome, stream) := r.put scan.stream
    let reply ← Action.ofExcept outcome
    noteReading (.reply s reply)
    reading s rest { scan with stream }
  | .body steps :: rest, scan => do
    let ((outcome, noted), scan) ← Store.interrupt scan
      (collectingAnswers (body false steps))
    noteReading (.body noted)
    Action.ofOutcome outcome
    reading s rest scan

end

end Run

/-- A step of a whole script. -/
inductive Command where
  | step (s : Step)
  /-- Closes the store, for good unless it is reopened. -/
  | close
  | reopen

/-- What is known after a step of a whole script. -/
inductive Result where
  | answered (a : Answer)
  | abandoned
  | closed

/-- The result of a step with the calls and events that it caused. -/
structure Entry where
  result : Result
  calls : List Call
  events : List Event

/-- A store, what the script keeps, and whether the store is open. -/
structure Stage (σ : Type) where
  world : World (Scripted σ) Memory
  isOpen : Bool := true

namespace Stage

variable {σ : Type}

def ofSession [Session σ] (session : σ) (options : Options) : Stage σ :=
  { world := { store := Store.ofSession { inner := session } options,
               memory := {} } }

def after (stage : Stage σ) (work : Run σ Answer) : Result × Stage σ :=
  let (outcome, world) := work.run stage.world
  match outcome with
  | .ok a => (.answered a, { stage with world })
  | .error (.failed f) => (.answered (.plain (.failed f)), { stage with world })
  | .error .abandoned => (.abandoned, { stage with world })

variable [Session σ]

def command (stage : Stage σ) : Command → Result × Stage σ
  | .reopen =>
    let store := { stage.world.store with writing := false }
    (.answered (.plain (.done .nothing)),
      { world := { stage.world with store }, isOpen := true })
  | .close =>
    if stage.isOpen then
      let (result, stage) := stage.after do
        return .plain (← Run.capture do
          Store.use Session.close; return .nothing)
      (result, { stage with isOpen := false })
    else (.closed, stage)
  | .step s =>
    if stage.isOpen then stage.after (Run.step s) else (.closed, stage)

def next (stage : Stage σ) (c : Command) : Entry × Stage σ :=
  let calls := stage.world.store.session.calls.length
  let events := stage.world.store.events.length
  let (result, stage) := stage.command c
  ({ result, calls := stage.world.store.session.calls.drop calls,
     events := stage.world.store.events.drop events }, stage)

def run (stage : Stage σ) : List Command → List Entry
  | [] => []
  | c :: rest =>
    let (entry, stage) := stage.next c
    entry :: stage.run rest

end Stage

end Annals.Script
