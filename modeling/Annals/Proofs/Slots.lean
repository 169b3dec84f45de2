import Annals.Database.Connection
import Annals.Proofs.Assignment
import Annals.Proofs.Programs

namespace Annals

open Annals.Log Annals.Sql Annals.Stream Annals.Script

namespace Script.Memory

theorem lookup_filter_ne {α : Type} {slot other : String} (h : other ≠ slot)
    (l : List (String × α)) : (l.filter (·.1 != slot)).lookup other =
      l.lookup other := by
  induction l with
  | nil => rfl
  | cons entry l ih =>
      obtain ⟨name, a⟩ := entry
      rw [List.filter_cons]
      split
      case isTrue => rw [List.lookup_cons, List.lookup_cons, ih]
      case isFalse hname =>
        have hname : name = slot := by simpa using hname
        have hother : (other == name) = false := by simpa [hname] using h
        rw [List.lookup_cons, hother]
        exact ih

theorem get?_put_self (m : Memory) (s : Subject) (slot : String)
    (r : s.Entity) :
    (m.put s slot r).get? s slot = some r := by
  cases s <;> exact List.lookup_cons_self

theorem get?_put_other (m : Memory) {s t : Subject} {slot other : String}
    (r : s.Entity) (h : t = s → other ≠ slot) : (m.put s slot r).get? t other =
      m.get? t other := by
  by_cases hst : t = s
  · subst hst
    have hne : (other == slot) = false := by simpa using h rfl
    cases t with
    | commit | branch | identity =>
        change List.lookup other (_ :: _) = _
        rw [List.lookup_cons, hne]
        exact lookup_filter_ne (h rfl) _
  · cases s <;> cases t <;> first | rfl | exact absurd rfl hst

theorem get?_putAll_other (m : Memory) {s t : Subject} {slots : List String}
    {other : String} (rs : List s.Entity) (h : t = s → other ∉ slots) :
    (m.putAll s slots rs).get? t other = m.get? t other := by
  induction slots generalizing m rs with
  | nil => rfl
  | cons slot slots ih =>
      cases rs with
      | nil => rfl
      | cons r rs =>
          have hrest : t = s → other ∉ slots :=
            fun hts hmem => h hts (List.mem_cons_of_mem _ hmem)
          have hfirst : t = s → other ≠ slot :=
            fun hts heq => h hts (heq ▸ List.mem_cons_self)
          exact (ih (m.put s slot r) rs hrest).trans (get?_put_other m r hfirst)

/-- Records that were taken from their slots and have changed are found there
once they are back. -/
theorem get?_putAll_mem {s : Subject} {P : s.Entity → s.Entity → Prop}
    {before : Memory} {slots : List String} {batch batch' : List s.Entity}
    (hbatch : slots.mapM (before.get? s) = some batch)
    (hchanged : List.Forall₂ P batch batch')
    (m : Memory) {slot : String} (hslot : slot ∈ slots) {r : s.Entity}
    (hr : before.get? s slot = some r) :
    ∃ r', (m.putAll s slots batch').get? s slot = some r' ∧ P r r' := by
  induction slots generalizing m batch batch' with
  | nil => cases hslot
  | cons first slots ih =>
      rw [List.mapM_cons] at hbatch
      obtain ⟨r₁, hfirst, hbatch⟩ := Option.bind_eq_some_iff.mp hbatch
      obtain ⟨rest, hrest, hbatch⟩ := Option.bind_eq_some_iff.mp hbatch
      cases hbatch
      cases hchanged with
      | @cons _ r₁' _ rest' hone hchanged =>
          by_cases hmem : slot ∈ slots
          · exact ih hrest hchanged (m.put s first r₁') hmem
          · have heq : slot = first :=
              (List.mem_cons.mp hslot).resolve_right hmem
            subst heq
            cases hfirst.symm.trans hr
            refine ⟨r₁', ?_, hone⟩
            exact (get?_putAll_other (m.put s slot r₁') rest' fun _ =>
              hmem).trans (get?_put_self m s slot r₁')

end Script.Memory

namespace Script.Subject

/-- The identifiers of a record and of its parts, as far as they have been
assigned. -/
def idents : (s : Subject) → s.Entity → List (Option EntityId)
  | .commit => fun (c : Commit) => [Record.id? c]
  | .branch => fun (b : Branch) => [Record.id? b]
  | .identity => fun (i : Identity) => Record.id? i :: i.aliases.map Record.id?

def Complete (s : Subject) (r : s.Entity) : Prop := ∀ i ∈ s.idents r, i.isSome

end Script.Subject

def Stays (i j : Option EntityId) : Prop := ∀ id, i = some id → j = some id

theorem stays_refl (is : List (Option EntityId)) :
    List.Forall₂ Stays is is := by
  induction is with
  | nil => exact .nil
  | cons i is ih => exact .cons (fun _ h => h) ih

theorem stays_trans {is js ks : List (Option EntityId)}
    (h : List.Forall₂ Stays is js) (h' : List.Forall₂ Stays js ks) :
    List.Forall₂ Stays is ks := by
  induction h generalizing ks with
  | nil => exact h'
  | cons hfirst _ ih =>
      cases h' with
      | cons hfirst' hrest =>
          exact .cons (fun id hid => hfirst' id (hfirst id hid)) (ih hrest)

theorem eq_of_stays {is js : List (Option EntityId)}
    (h : List.Forall₂ Stays is js) (hall : ∀ i ∈ is, i.isSome) : js = is := by
  induction h with
  | nil => rfl
  | @cons i j is js hfirst _ ih =>
      obtain ⟨id, rfl⟩ :=
        Option.isSome_iff_exists.mp (hall i List.mem_cons_self)
      rw [hfirst id rfl, ih fun k hk => hall k (List.mem_cons_of_mem _ hk)]

theorem Alias.stays_of_filled {as as' : List Alias}
    (h : List.Forall₂ Record.Filled as as') :
    List.Forall₂ Stays (as.map Record.id?) (as'.map Record.id?) ∧
      ∀ i ∈ as'.map Record.id?, i.isSome := by
  induction h with
  | nil => exact ⟨.nil, fun i hi => by cases hi⟩
  | @cons a a' as as' hfirst _ ih =>
      obtain ⟨id, rfl, hfits⟩ := hfirst
      refine ⟨.cons (fun old hold => congrArg some (hfits old hold).symm) ih.1,
        ?_⟩
      intro i hi
      rcases List.mem_cons.mp hi with rfl | hi
      · rfl
      · exact ih.2 i hi

namespace Script.Subject

theorem Filled.stays {s : Subject} {r r' : s.Entity} (h : s.Filled r r') :
    List.Forall₂ Stays (s.idents r) (s.idents r') ∧ s.Complete r' := by
  cases s with
  | commit | branch =>
      obtain ⟨id, rfl, hfits⟩ := h
      refine ⟨.cons (fun old hold => congrArg some (hfits old hold).symm) .nil,
        ?_⟩
      intro i hi
      cases List.mem_singleton.mp hi
      rfl
  | identity =>
      obtain ⟨as, has, id, rfl, hfits⟩ := h
      obtain ⟨hstays, hall⟩ := Alias.stays_of_filled has
      refine ⟨.cons (fun old hold => congrArg some (hfits old hold).symm)
        hstays, ?_⟩
      intro i hi
      rcases List.mem_cons.mp hi with rfl | hi
      · rfl
      · exact hall i hi

end Script.Subject

/-- Which slots were submitted as a batch, and whether that succeeded. -/
structure Report where
  subject : Subject
  slots : List String
  ok : Bool
  deriving DecidableEq

def Report.Covers (report : Report) (s : Subject) (slot : String) : Prop :=
  report.subject = s ∧ slot ∈ report.slots ∧ report.ok = true

/-- What a caller keeps: records in slots, reports on the batches so far, and
anything else. -/
structure Desk (ω : Type) where
  memory : Memory
  reports : List Report := []
  own : ω

def Desk.after {ω : Type} (d : Desk ω) (s : Subject) (slots : List String)
    (written : Written s.Entity) : Desk ω :=
  { d with
    memory := d.memory.putAll s slots written.batch
    reports := d.reports ++
      [{ subject := s, slots, ok := written.outcome.isOk }] }

variable {σ ω α : Type}

/-- Submits the records of some slots as one batch, which the slots hold as it
has become.  Nothing happens if a slot is empty. -/
def submitSlots (s : Subject) (slots : List String)
    (submit : List s.Entity → Action σ (Desk ω) (Written s.Entity)) :
    Action σ (Desk ω) (Except Stop Unit) := do
  let desk := (← get).memory
  match slots.mapM (desk.memory.get? s) with
  | none => return .ok ()
  | some batch =>
    let written ← submit batch
    modify fun w => { w with memory := w.memory.after s slots written }
    return written.outcome

/-- What a caller with a desk does in one go: something plain, something with
what else it keeps, or a batch that is saved or updated. -/
inductive Deskwork [Session σ] : (α : Type) → Action σ (Desk ω) α → Prop where
  | plain {α : Type} {m : Action σ (Desk ω) α} (h : Plain (fun _ => True) α m) :
      Deskwork α m
  | own {α : Type} (f : Desk ω → α × ω) :
      Deskwork α (Action.remember fun d => ((f d).1, { d with own := (f d).2 }))
  | save (s : Subject) (slots : List String) :
      Deskwork (Except Stop Unit) (submitSlots s slots s.adapter.save)
  | update (s : Subject) (slots : List String) :
      Deskwork (Except Stop Unit) (submitSlots s slots s.adapter.updateAll)

/-- How a desk may change: a record in a slot gets its identifiers when a batch
with it succeeds, and stays as it is otherwise. -/
def Desk.Becomes (d d' : Desk ω) : Prop :=
  ∃ reports, d'.reports = d.reports ++ reports ∧
    ∀ (s : Subject) (slot : String) (r : s.Entity),
      d.memory.get? s slot = some r →
      ∃ r', d'.memory.get? s slot = some r' ∧
        List.Forall₂ Stays (s.idents r) (s.idents r') ∧
        ((∃ report ∈ reports, report.Covers s slot) → s.Complete r') ∧
        ((∀ report ∈ reports, ¬ report.Covers s slot) → r' = r)

namespace Desk.Becomes

theorem refl (d : Desk ω) : d.Becomes d := by
  refine ⟨[], (List.append_nil _).symm, fun s slot r hr =>
    ⟨r, hr, stays_refl _, ?_, fun _ => rfl⟩⟩
  rintro ⟨report, hreport, -⟩
  cases hreport

theorem trans {d d' d'' : Desk ω} (h : d.Becomes d') (h' : d'.Becomes d'') :
    d.Becomes d'' := by
  obtain ⟨reports, hreports, hslots⟩ := h
  obtain ⟨reports', hreports', hslots'⟩ := h'
  refine ⟨reports ++ reports', by rw [hreports', hreports, List.append_assoc],
    ?_⟩
  intro s slot r hr
  obtain ⟨r', hr', hstays, hcomplete, hsame⟩ := hslots s slot r hr
  obtain ⟨r'', hr'', hstays', hcomplete', hsame'⟩ := hslots' s slot r' hr'
  refine ⟨r'', hr'', stays_trans hstays hstays', ?_, ?_⟩
  · rintro ⟨report, hreport, hcovers⟩
    rcases List.mem_append.mp hreport with hreport | hreport
    · have hall := hcomplete ⟨report, hreport, hcovers⟩
      unfold Subject.Complete
      rw [eq_of_stays hstays' hall]
      exact hall
    · exact hcomplete' ⟨report, hreport, hcovers⟩
  · intro hnone
    rw [hsame' fun report hreport =>
      hnone report (List.mem_append_right _ hreport)]
    exact hsame fun report hreport =>
      hnone report (List.mem_append_left _ hreport)

end Desk.Becomes

theorem Desk.becomes_after (d : Desk ω) {s : Subject} {slots : List String}
    {batch : List s.Entity} {written : Written s.Entity}
    (hbatch : slots.mapM (d.memory.get? s) = some batch)
    (hwritten : written.outcome = .ok () ∧
      List.Forall₂ s.Filled batch written.batch ∨
      written.outcome ≠ .ok () ∧ written.batch = batch) :
    d.Becomes (d.after s slots written) := by
  refine ⟨_, rfl, ?_⟩
  intro t slot r hr
  by_cases hmem : s = t ∧ slot ∈ slots
  · obtain ⟨rfl, hslot⟩ := hmem
    rcases hwritten with ⟨hok, hfilled⟩ | ⟨hne, hsame⟩
    · obtain ⟨r', hr', hfilled'⟩ :=
        Memory.get?_putAll_mem hbatch hfilled d.memory hslot hr
      obtain ⟨hstays, hcomplete⟩ := hfilled'.stays
      refine ⟨r', hr', hstays, fun _ => hcomplete, fun hnone => ?_⟩
      exact absurd ⟨rfl, hslot, by rw [hok]; rfl⟩
        (hnone _ (List.mem_singleton.mpr rfl))
    -- the records are put back as they were taken
    · have heq : List.Forall₂ Eq batch written.batch := by
        rw [hsame]
        clear hbatch hsame
        induction batch with
        | nil => exact .nil
        | cons r rs ih => exact .cons rfl ih
      obtain ⟨r', hr', rfl⟩ :=
        Memory.get?_putAll_mem hbatch heq d.memory hslot hr
      refine ⟨r, hr', stays_refl _, ?_, fun _ => rfl⟩
      rintro ⟨report, hreport, -, -, hok⟩
      cases List.mem_singleton.mp hreport
      cases houtcome : written.outcome with
      | ok u => exact absurd houtcome hne
      | error stop =>
          rw [houtcome] at hok
          cases hok
  · have hother : (d.after s slots written).memory.get? t slot = some r := by
      rw [← hr]
      exact Memory.get?_putAll_other d.memory written.batch fun hts hslot =>
        hmem ⟨hts.symm, hslot⟩
    refine ⟨r, hother, stays_refl _, ?_, fun _ => rfl⟩
    rintro ⟨report, hreport, hsubject, hslot, -⟩
    cases List.mem_singleton.mp hreport
    exact absurd ⟨hsubject, hslot⟩ hmem

section Desks

variable [Session σ]

theorem becomes_of_submitSlots (s : Subject) (slots : List String)
    (needed : List s.Entity → List Capability) (op : String)
    (w : World σ (Desk ω)) :
    w.memory.Becomes ((submitSlots s slots fun batch =>
      s.adapter.submit (needed batch) op batch).exec w).2.memory := by
  have hget : (get : Action σ (Desk ω) (World σ (Desk ω))).exec w =
      (.ok w, w) := rfl
  unfold submitSlots
  rw [Action.exec_bind_ok hget]
  cases hbatch : slots.mapM (w.memory.memory.get? s) with
  | none =>
      simp only [hbatch]
      exact Desk.Becomes.refl w.memory
  | some batch =>
      simp only [hbatch]
      have hmemory :=
        (Subject.submit_program s (needed batch) op batch).memory_eq w
      have hsubmitted := Subject.submitted_submit s (needed batch) op batch w
      rcases hrun : (s.adapter.submit (needed batch) op batch).exec w
        with ⟨outcome, v⟩
      rw [hrun] at hmemory hsubmitted
      obtain ⟨written, rfl, hwritten⟩ := hsubmitted.exists_written
      rw [Action.exec_bind_ok hrun]
      change w.memory.Becomes (v.memory.after s slots written)
      rw [show v.memory = w.memory from hmemory]
      exact w.memory.becomes_after hbatch hwritten

theorem Deskwork.becomes {m : Action σ (Desk ω) α} (h : Deskwork α m)
    (w : World σ (Desk ω)) :
    w.memory.Becomes (m.exec w).2.memory := by
  cases h with
  | plain h =>
      have hm : Program (Plain fun _ => True) m := .basic h
      rw [hm.memory_eq w]
      exact Desk.Becomes.refl w.memory
  | own f => exact Desk.Becomes.refl w.memory
  | save s slots => exact becomes_of_submitSlots s slots _ _ w
  | update s slots => exact becomes_of_submitSlots s slots _ _ w

theorem Program.becomes {m : Action σ (Desk ω) α} (h : Program Deskwork m)
    (w : World σ (Desk ω)) : w.memory.Becomes (m.exec w).2.memory :=
  h.keeps_throughout (R := fun u v : World σ (Desk ω) =>
    u.memory.Becomes v.memory)
      (fun u => .refl u.memory) (fun huv hvx => huv.trans hvx)
      (fun u _ => .refl u.memory) (fun u _ => .refl u.memory)
      (fun u => .refl u.memory) (fun u => .refl u.memory)
      (fun u => .refl u.memory) (fun hm u => hm.becomes u) w

/-- After a write that ends without a result, the outermost one as well, a
record in a slot has the identifiers that it had before exactly if it had all of
them then, or if no batch with it succeeded within the write. -/
theorem idents_after_failed_write {work : Action σ (Desk ω) α}
    (hwork : Program Deskwork work) (op entity : String)
    {w w' : World σ (Desk ω)} {stop : Stop}
    (h : (Store.write op entity work).exec w = (.error stop, w')) :
    ∃ reports, w'.memory.reports = w.memory.reports ++ reports ∧
      ∀ (s : Subject) (slot : String) (r : s.Entity),
        w.memory.memory.get? s slot = some r →
        ∃ r', w'.memory.memory.get? s slot = some r' ∧
          (s.idents r' = s.idents r ↔
            s.Complete r ∨ ∀ report ∈ reports, ¬ report.Covers s slot) := by
  obtain ⟨reports, hreports, hslots⟩ :=
    (Program.write op entity hwork).becomes w
  rw [h] at hreports hslots
  refine ⟨reports, hreports, fun s slot r hr => ?_⟩
  obtain ⟨r', hr', hstays, hcomplete, hsame⟩ := hslots s slot r hr
  refine ⟨r', hr', ?_, ?_⟩
  · intro hidents
    by_cases hcovers : ∃ report ∈ reports, report.Covers s slot
    · left
      intro i hi
      rw [← hidents] at hi
      exact hcomplete hcovers i hi
    · right
      exact fun report hreport hcover => hcovers ⟨report, hreport, hcover⟩
  · rintro (hall | hnone)
    · exact eq_of_stays hstays hall
    · rw [hsame hnone]

end Desks

def deskWithTables : World (Scripted Database) (Desk Unit) :=
  (Identity.adapter.createScheme.exec
    { store := Store.ofSession { inner := {} } {}
      memory := { memory := { identities := [("a", { name := "ada" })] },
                  own := () } }).2

def saveAndFail : Action (Scripted Database) (Desk Unit) Unit := do
  let outcome ← submitSlots .identity ["a"] Identity.adapter.save
  Action.ofOutcome outcome
  Action.fail (Failure.backend "refused later")

theorem saveAndFail_program : Program Deskwork saveAndFail :=
  .andThen (.basic (.save .identity ["a"])) fun outcome =>
    .andThen (Program.ofOutcome outcome) fun _ => .fail _

theorem fails_saveAndFail :
    ∃ stop w', (Store.write "save_all" "identity" saveAndFail).exec
      deskWithTables = (.error stop, w') := by
  have hfails : ((Store.write "save_all" "identity" saveAndFail).exec
      deskWithTables).1.isOk = false := by
    decide +kernel
  exact Action.exists_stop hfails

theorem idents_after_saveAndFail :
    ∃ stop w', (Store.write "save_all" "identity" saveAndFail).exec
      deskWithTables = (.error stop, w') ∧
      ∃ reports, w'.memory.reports = deskWithTables.memory.reports ++ reports ∧
        ∀ (s : Subject) (slot : String) (r : s.Entity),
          deskWithTables.memory.memory.get? s slot = some r →
            ∃ r', w'.memory.memory.get? s slot = some r' ∧
              (s.idents r' = s.idents r ↔
                s.Complete r ∨ ∀ report ∈ reports, ¬ report.Covers s slot) := by
  obtain ⟨stop, w', h⟩ := fails_saveAndFail
  exact ⟨stop, w', h, idents_after_failed_write saveAndFail_program "save_all"
    "identity" h⟩

/-- It is not so that a record keeps its identifiers whenever the outermost
write fails around a batch with it: here a new identity has the identifier 1
then, although its row has been taken back. -/
theorem ident_without_row :
    ¬ ∀ (work : Action (Scripted Database) (Desk Unit) Unit),
      Program Deskwork work →
      ∀ (op entity : String) (w w' : World (Scripted Database) (Desk Unit))
        (stop : Stop),
        w.store.writing = false →
        (Store.write op entity work).exec w = (.error stop, w') →
        ∀ (s : Subject) (slot : String) (r r' : s.Entity) (report : Report),
          w'.memory.reports = w.memory.reports ++ [report] →
          report.subject = s → slot ∈ report.slots →
          w.memory.memory.get? s slot = some r →
          w'.memory.memory.get? s slot = some r' →
          s.idents r' = s.idents r := by
  intro hclaim
  obtain ⟨stop, w', h⟩ := fails_saveAndFail
  have hbefore : deskWithTables.memory.memory.get? .identity "a" =
      some { name := "ada" } := by
    decide +kernel
  have hafter : ((Store.write "save_all" "identity"
      saveAndFail).exec deskWithTables).2.memory.memory.get? .identity "a" =
        some { ident := ⟨some ⟨1, by decide⟩⟩, name := "ada" } := by
    decide +kernel
  have hreports : ((Store.write "save_all" "identity"
      saveAndFail).exec deskWithTables).2.memory.reports =
        deskWithTables.memory.reports ++ [⟨.identity, ["a"], true⟩] := by
    decide +kernel
  rw [h] at hafter hreports
  have hidents :=
    hclaim saveAndFail saveAndFail_program _ _ _ _ _ (by decide +kernel) h
      .identity "a" _ _ _ hreports rfl (List.mem_singleton.mpr rfl)
        hbefore hafter
  cases hidents

end Annals
