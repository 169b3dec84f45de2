import Annals.Proofs.Additions
import Annals.Script.Run

/-!
Every step of a script is a program of what is done with adapters, unless it
hands statements of its own to the session that do more than read.  So whatever
holds of the stores to which adapters lead holds in the midst of a script and
behind it.
-/

namespace Annals.Script

open Annals.Database Annals.Sql Annals.Stream

variable {σ α : Type}

theorem Stage.world_after (stage : Stage σ) (work : Run σ Answer) :
    (stage.after work).2.world = (work.exec stage.world).2 := by
  unfold Stage.after
  change _ = (work.run stage.world).2
  rcases work.run stage.world with ⟨(f | _) | a, world⟩ <;> rfl

variable [Backed σ]

/-- What a deed does is done with adapters.  Statements that it hands to the
session only read. -/
def Deed.ByAdapter : Deed → Prop
  | .execute .. | .perform .. => False
  | .askNumber statement _ | .askRows statement .. => IsReading statement
  | .nextId entity => ∃ s : Subject, entity ∈ s.adapter.sequences
  | _ => True

mutual

/-- What a step does, also in the midst of writes and readings, is done with
adapters. -/
def Step.ByAdapter : Step → Prop
  | .deed d => d.ByAdapter
  | .write _ _ steps _ _ => stepsByAdapter steps
  | .read _ inquiries => inquiriesByAdapter inquiries
  | .malformed => True

def stepsByAdapter : List Step → Prop
  | [] => True
  | first :: rest => first.ByAdapter ∧ stepsByAdapter rest

def inquiriesByAdapter : List Inquiry → Prop
  | [] => True
  | .request _ :: rest => inquiriesByAdapter rest
  | .body steps :: rest => stepsByAdapter steps ∧ inquiriesByAdapter rest

end

namespace Run

/-- A step does what is done with adapters. -/
abbrev IsProgram (m : Run σ α) : Prop := Program Operation m

theorem program_of_reading {m : Run σ α}
    (h : Program (Elementary IsReading) m) : IsProgram m :=
  h.flatten fun hm => .basic (.reading hm)

theorem program_of_edits (s : Subject) {m : Run σ α}
    (h : Program (Acts (Edits s)) m) :
    IsProgram m := h.flatten fun hm => .basic (.edit s hm)

theorem remember_program (f : Memory → Memory) :
    IsProgram (remember f : Run σ Unit) :=
  .basic (.reading (.remember fun m => ((), f m)))

theorem get_program : IsProgram (get : Run σ (World (Scripted σ) Memory)) := by
  change IsProgram (do
    let store ← Store.see id
    let memory ← Action.remember fun m => (m, m)
    pure ({ store, memory } : World (Scripted σ) Memory))
  refine Program.andThen (.basic (.reading (.plain (.see _)))) fun store => ?_
  exact Program.andThen (.basic (.reading (.remember _))) fun memory => .done _

theorem rig_program (f : Scripted σ → Scripted σ)
    (hinner : ∀ s, (f s).inner = s.inner) :
    IsProgram (rig f) := by
  refine .basic (.aside f fun s => ?_)
  change Backed.database (f s).inner = Backed.database s.inner
  rw [hinner]

theorem capture_program {work : Run σ Content} (h : IsProgram work) :
    IsProgram (capture work) := by
  refine (Program.attempt h).andThen ?_
  rintro ((f | _) | c)
  · exact .done _
  · exact .abandon
  · exact .done _

theorem withSlot_program (s : Subject) (slot : String)
    {work : s.Entity → Run σ Outcome} (h : ∀ r, IsProgram (work r)) :
    IsProgram (withSlot s slot work) := by
  refine get_program.andThen fun w => ?_
  split
  · exact h _
  · exact .done _

theorem withId_program (value : Int64) {work : EntityId → Run σ Content}
    (h : ∀ id, IsProgram (work id)) : IsProgram (withId value work) := by
  unfold withId
  cases EntityId.ofValue value with
  | error e => exact .done _
  | ok id => exact capture_program (h id)

theorem read_program (s : Subject) (slot : String) (json : Json) :
    IsProgram (read s slot json : Run σ Outcome) := by
  unfold read
  cases s.codec.decode json with
  | error message => exact .done _
  | ok r => exact (remember_program _).andThen fun _ => .done _

theorem writeSlots_program (s : Subject) (slots : List String)
    {write : List s.Entity → Run σ (Written s.Entity)}
    (h : ∀ batch, IsProgram (write batch)) :
    IsProgram (writeSlots s slots write) := by
  refine get_program.andThen fun w => ?_
  dsimp only
  split
  · exact .done _
  · refine (h _).andThen fun written => ?_
    refine (remember_program _).andThen fun _ => ?_
    split
    · exact .done _
    · exact .done _
    · exact .abandon

theorem changeAliases_program (slot : String) (change : AliasChange) :
    IsProgram (changeAliases slot change : Run σ Outcome) := by
  have hput : ∀ (i : Identity) added removed,
      IsProgram (putChanged slot i added removed : Run σ Outcome) := by
    intro i added removed
    exact (remember_program _).andThen fun _ => .done _
  refine withSlot_program .identity slot fun (i : Identity) => ?_
  cases change with
  | add json | remove json =>
      dsimp only
      split
      · exact .done _
      · exact hput _ _ _
  | setId index value =>
      dsimp only
      split
      · exact .done _
      · split
        · exact .done _
        · exact hput _ _ _

/-- A deed is a program of what is done with adapters. -/
theorem deed_program (d : Deed) (h : d.ByAdapter) :
    IsProgram (deed d : Run σ Answer) := by
  cases d with
  | createScheme s =>
      refine (capture_program ?_).map _
      exact Program.andThen (.basic (.createScheme s)) fun _ => .done _
  | createIndexes s =>
      refine (capture_program ?_).map _
      exact Program.andThen (.basic (.createIndexes s)) fun _ => .done _
  | capabilities s => exact .done _
  | put s slot json => exact (read_program s slot json).map _
  | patch s slot fields =>
      refine (withSlot_program s slot fun r => ?_).map _
      split
      · exact read_program s slot _
      · exact read_program s slot _
  | showSlot s slot => exact (withSlot_program s slot fun r => .done _).map _
  | setId s slot value =>
      refine (withSlot_program s slot fun r => ?_).map _
      split
      · exact .done _
      · exact (remember_program _).andThen fun _ => .done _
  | save s slots =>
      exact writeSlots_program s slots fun batch => .basic (.save s batch)
  | update s slots =>
      exact writeSlots_program s slots fun batch => .basic (.updateAll s batch)
  | delete s slot =>
      refine (withSlot_program s slot fun r => capture_program ?_).map _
      have hdelete : IsProgram (s.adapter.deleteOne r : Run σ Bool) :=
        Program.andThen (.basic (.deleteAll s [r])) fun _ => .done _
      exact hdelete.andThen fun _ => .done _
  | deleteAll s slots =>
      refine get_program.andThen fun w => ?_
      dsimp only
      split
      · exact .done _
      · refine (capture_program ?_).map _
        exact Program.andThen (.basic (.deleteAll s _)) fun _ => .done _
  | load s value into =>
      refine (withId_program value fun id => ?_).map _
      refine (program_of_reading (s.load_program id)).andThen fun found => ?_
      split
      · exact (remember_program _).andThen fun _ => .done _
      · exact .done _
  | loadMany s values =>
      simp only [deed]
      split
      · exact .done _
      · refine (capture_program ?_).map _
        exact (program_of_reading (s.loadMany_program _)).andThen
          fun _ => .done _
  | loadAll s =>
      refine (capture_program ?_).map _
      exact (program_of_reading s.loadAll_program).andThen fun _ => .done _
  | create s row =>
      refine (capture_program ?_).map _
      exact (Program.ofExcept _).andThen fun _ => .done _
  | updateRow s slot =>
      refine (withSlot_program s slot fun r => capture_program ?_).map _
      exact (program_of_edits s (s.update_acts r)).andThen fun _ => .done _
  | deleteRow s value =>
      refine (withId_program value fun id => ?_).map _
      exact (program_of_edits s (s.delete_acts id)).andThen fun _ => .done _
  | changeAliases slot change => exact (changeAliases_program slot change).map _
  | nextId entity =>
      obtain ⟨s, hentity⟩ := h
      refine (capture_program ?_).map _
      exact (program_of_edits s (Acts.nextId s hentity)).andThen
        fun _ => .done _
  | execute statement params => exact h.elim
  | perform statement params => exact h.elim
  | askNumber statement params =>
      have hask : Program (Plain IsReading)
          (Store.use (Session.queryNumber statement params) :
            Run σ (Option Int64)) :=
        Plain.queryNumber h params
      refine (capture_program ?_).map _
      exact (program_of_reading (hask.elementary fun _ hs => hs)).andThen
        fun _ => .done _
  | askRows statement params limit =>
      refine (capture_program (Store.query_program ?_ fun cursor => ?_)).map _
      · exact .reading (.plain (.query h params))
      · exact (Program.ofExcept _).andThen fun _ => .done _
  | arm fault =>
      have hrig : IsProgram (rig (·.arm fault) : Run σ Unit) :=
        rig_program _ fun _ => rfl
      exact hrig.andThen fun _ => .done _
  | failCommit =>
      have hrig : IsProgram (rig fun s => { s with failCommit := true } :
          Run σ Unit) :=
        rig_program _ fun _ => rfl
      exact hrig.andThen fun _ => .done _
  | failRollback =>
      have hrig : IsProgram (rig fun s => { s with failRollback := true } :
          Run σ Unit) :=
        rig_program _ fun _ => rfl
      exact hrig.andThen fun _ => .done _
  | describe =>
      exact Program.andThen (.basic (.reading (.plain (.see _))))
        fun _ => .done _
  | abandon => exact .abandon

theorem collecting_program {ν : Type} (clear : Memory → Memory)
    (restore : World (Scripted σ) Memory → Memory → Memory)
    (noted : World (Scripted σ) Memory → ν) {work : Run σ α}
    (h : IsProgram work) :
    IsProgram (do
      let before ← get
      remember clear
      let outcome ← Action.observe work
      let behind ← get
      remember (restore before)
      return (outcome, noted behind)) := by
  refine get_program.andThen fun before => ?_
  refine (remember_program _).andThen fun _ => ?_
  refine (Program.attempt h).andThen fun outcome => ?_
  refine get_program.andThen fun behind => ?_
  exact (remember_program _).andThen fun _ => .done _

theorem collectingAnswers_program {work : Run σ α} (h : IsProgram work) :
    IsProgram (collectingAnswers work) :=
  collecting_program (fun m => { m with answers := [] })
    (fun before m => { m with answers := before.memory.answers })
    (·.memory.answers) h

theorem collectingNotes_program {work : Run σ α} (h : IsProgram work) :
    IsProgram (collectingNotes work) :=
  collecting_program (fun m => { m with notes := [] })
    (fun before m => { m with notes := before.memory.notes }) (·.memory.notes) h

theorem outcomeOf_program (outcome : Except Stop Unit) :
    IsProgram (outcomeOf outcome : Run σ Outcome) := by
  obtain (f | _) | ⟨⟩ := outcome
  · exact .done _
  · exact .abandon
  · exact .done _

theorem finish_program (ending : Ending) :
    IsProgram (finish ending : Run σ Unit) := by
  cases ending with
  | ok => exact .done _
  | fail => exact .fail _
  | abandon => exact .abandon

theorem interrupt_program {ρ : Type} (scan : Scan (Scripted σ) ρ)
    {work : Run σ α} (h : IsProgram work) :
    IsProgram (Store.interrupt scan work) := by
  have hsee : IsProgram (Store.see Store.session : Run σ (Scripted σ)) :=
    .basic (.reading (.plain (.see _)))
  have hholding : IsProgram (Store.holding work) := by
    refine Program.andThen (.basic (.reading (.plain .hold))) fun _ => ?_
    refine (Program.attempt h).andThen fun outcome => ?_
    refine Program.andThen (.basic (.reading (.plain .release))) fun _ => ?_
    exact Program.ofOutcome outcome
  refine hsee.andThen fun before => ?_
  dsimp only
  split
  · exact hholding.andThen fun b => hsee.andThen fun now => .done _
  · exact h.andThen fun b => hsee.andThen fun now => .done _

theorem scanRange_program (range : Range)
    {visit : Scan (Scripted σ) range.subject.Entity → Run σ α}
    (h : ∀ scan, IsProgram (visit scan)) :
    IsProgram (scanRange range visit) := by
  have hreads : ∀ {α : Type} {m : Run σ α}, Plain IsReading α m →
      Operation α m :=
    fun hm => .reading (.plain hm)
  cases range with
  | everything s => exact s.loadWith_program hreads h
  | window start stop => exact Commit.scanBetween_program hreads start stop h

mutual

theorem step_program :
    ∀ s : Step, s.ByAdapter → IsProgram (step s : Run σ Answer)
  | .deed d, h => deed_program d h
  | .write op entity steps ending ignore, h => by
      have hbody : IsProgram (do body ignore steps; finish ending :
          Run σ Unit) :=
        (body_program ignore steps h).andThen fun _ => finish_program ending
      refine (collectingAnswers_program (.write op entity hbody)).andThen
        fun found => ?_
      exact (outcomeOf_program _).andThen fun _ => .done _
  | .read range inquiries, h => by
      have hscan : IsProgram (scanRange range fun s =>
          reading range.subject inquiries s : Run σ Unit) :=
          scanRange_program range fun scan =>
            reading_program range.subject inquiries h scan
      refine (collectingNotes_program hscan).andThen fun found => ?_
      exact (outcomeOf_program _).andThen fun _ => .done _
  | .malformed, _ => .done _

theorem body_program (ignore : Bool) :
    ∀ steps : List Step, stepsByAdapter steps →
    IsProgram (body ignore steps : Run σ Unit)
  | [], _ => .done _
  | first :: rest, h => by
      refine (step_program first h.1).andThen fun answer => ?_
      refine (remember_program _).andThen fun _ => ?_
      split
      · exact .fail _
      · exact body_program _ rest h.2

theorem reading_program (s : Subject) :
    ∀ inquiries : List Inquiry, inquiriesByAdapter inquiries →
    ∀ scan : Scan (Scripted σ) s.Entity, IsProgram (reading s inquiries scan)
  | [], _, _ => .done _
  | .request r :: rest, h, scan => by
      refine (Program.ofExcept _).andThen fun reply => ?_
      exact (remember_program _).andThen fun _ => reading_program s rest h _
  | .body steps :: rest, h, scan => by
      have hsteps := collectingAnswers_program (body_program false steps h.1 :
        IsProgram (_ : Run σ Unit))
      refine (interrupt_program scan hsteps).andThen fun found => ?_
      refine (remember_program _).andThen fun _ => ?_
      exact (Program.ofOutcome _).andThen fun _ => reading_program s rest h.2 _

end

end Run

def Command.ByAdapter : Command → Prop
  | .step s => s.ByAdapter
  | .close | .reopen => True

namespace Stage

variable {stage : Stage σ}

def through (stage : Stage σ) (commands : List Command) : Stage σ :=
  commands.foldl (fun stage c => (stage.next c).2) stage

theorem run_cons (stage : Stage σ) (c : Command) (rest : List Command) :
    stage.run (c :: rest) = (stage.next c).1 :: (stage.next c).2.run rest := rfl

/-- What is known after the steps of a script does not depend on those that
follow. -/
theorem run_append (stage : Stage σ) (first rest : List Command) :
    stage.run (first ++ rest) = stage.run first ++ (stage.through first).run
      rest := by
  induction first generalizing stage with
  | nil => rfl
  | cons c first ih =>
      rw [List.cons_append, run_cons, run_cons, ih, List.cons_append]
      rfl

theorem exec_close (w : World (Scripted σ) Memory) :
    ((do return .plain (← Run.capture do
      Store.use Session.close; return .nothing) :
      Run σ Answer).exec w).2 =
        w.withSession (Session.close.run w.store.session).2 := by
  unfold Run.capture
  rw [Action.exec_bind, Action.exec_bind, Action.exec_observe, Action.exec_bind,
    Store.exec_use]
  rcases Session.close.run w.store.session with ⟨f | _, s⟩ <;> rfl

section Closing

variable (hclose :
    ∀ s : σ, Backed.database (Session.close.run s).2 = Backed.database s)
include hclose

theorem reached_command (h : Reached stage.world) {c : Command}
    (hc : c.ByAdapter) :
    Reached (stage.command c).2.world := by
  cases c with
  | step s =>
      change Reached (if stage.isOpen then stage.after (Run.step s)
        else (.closed, stage)).2.world
      split
      · rw [world_after]
        exact h.run (Run.step_program s hc)
      · exact h
  | reopen => exact h.aside rfl
  | close =>
      simp only [command]
      split
      · change Reached (stage.after _).2.world
        rw [world_after, exec_close]
        exact h.aside (hclose _)
      · exact h

/-- Wherever adapters have led to, scripts lead to where adapters lead,
whichever of their steps fail, and in whatever way their steps stand in each
other. -/
theorem reached_through (h : Reached stage.world) {commands : List Command}
    (hcommands : ∀ c ∈ commands, c.ByAdapter) :
    Reached (stage.through commands).world := by
  induction commands generalizing stage with
  | nil => exact h
  | cons c rest ih =>
      have hfirst : Reached (stage.next c).2.world :=
        reached_command hclose h (hcommands c List.mem_cons_self)
      apply ih hfirst
      intro d hd
      exact hcommands d (List.mem_cons_of_mem c hd)

end Closing

/-- After every script on a new database each row is that of a record, and no
reference is broken. -/
theorem recorded_through (options : Options) {commands : List Command}
    (hcommands : ∀ c ∈ commands, c.ByAdapter) :
    ((ofSession ({} : Database) options).through
      commands).world.contents.Recorded := by
  have hstart : Reached (ofSession ({} : Database) options).world := .start rfl
  exact (reached_through (fun _ => rfl) hstart hcommands).recorded.now

end Stage

end Annals.Script
