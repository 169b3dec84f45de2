import Annals.Proofs.Placeholders
import Annals.Proofs.Plans

namespace Annals

open Annals.Sql Annals.Stream

variable {σ ω : Type} [Session σ]

/-- A row that is to be written: its table, whether it is a new row, and what
each column is to hold, by its name. -/
structure RowWrite where
  table : Table
  fresh : Bool
  field : String → Option Value

namespace RowWrite

def statement (x : RowWrite) : Statement :=
  if x.fresh then .insert x.table else .update x.table

/-- A call writes a row.  It passes one value for each column, and in all
dialects the text of its statement gives that value to the column whose field it
is.  Only a row that is there already is chosen by its key. -/
structure Carries (x : RowWrite) (call : Statement × List Value) : Prop where
  statement_eq : call.1 = x.statement
  length_eq : call.2.length = x.table.columns.length
  placed : ∃ p : Placement Value, (∀ d, call.1.placed? d call.2 = some p) ∧
    (p.entries.map Prod.fst).Perm x.table.columnNames ∧
    (∀ entry ∈ p.entries, x.field entry.1 = some entry.2) ∧
    p.key?.map Prod.fst = if x.fresh then none else some x.table.keyName

theorem carries_of_fields {t : Table} (h : t.Readable) {key : Column}
    {others : List Column} (hcolumns : t.columns = key :: others)
    {field : String → Option Value} {id : Value}
    {values : List Value} (hid : field key.name = some id)
    (hlength : others.length = values.length)
    (hfields : ∀ entry ∈ (others.map Column.name).zip values,
      field entry.1 = some entry.2) :
    Carries ⟨t, true, field⟩ (.insert t, id :: values) ∧
      Carries ⟨t, false, field⟩ (.update t, values ++ [id]) := by
  have hnames : t.columnNames = key.name :: others.map Column.name := by
    unfold Table.columnNames
    rw [hcolumns, List.map_cons]
  have hkey : t.keyName = key.name := by
    unfold Table.keyName
    rw [hnames]
    rfl
  have hzip : ((others.map Column.name).zip values).map Prod.fst =
      others.map Column.name :=
    List.map_fst_zip (by rw [List.length_map, hlength])
  constructor
  · refine ⟨rfl, by simp [hcolumns, hlength],
      ⟨t.columnNames.zip (id :: values), none⟩,
      fun d => h.placed_insert d (by simp [hcolumns, hlength]), ?_, ?_, rfl⟩
    · simp [Placement.entries, hnames, hzip]
    · simpa [Placement.entries, hnames, hid] using hfields
  · refine ⟨rfl, by simp [hcolumns, hlength],
      ⟨(others.map Column.name).zip values, some (key.name, id)⟩,
      fun d => h.placed_update d hcolumns hlength id, ?_, ?_,
        congrArg some hkey.symm⟩
    · simp [Placement.entries, hnames, hzip]
    · intro entry hentry
      rcases List.mem_append.mp hentry with hentry | hentry
      · exact hfields entry hentry
      · rw [List.mem_singleton.mp hentry]
        exact hid

end RowWrite

def Commit.field (c : Commit) (id : EntityId) : String → Option Value
  | "id" => some (Value.ofId id)
  | "revision" => some (.text c.revision)
  | "author_id" => some (Value.ofOption Value.ofId c.authorId)
  | "branch_id" => some (Value.ofOption Value.ofId c.branchId)
  | "committed_at" => (Value.ofInstant c.committedAt).toOption
  | "message" => some (.text c.message)
  | "lines_added" => some (.integer c.linesAdded)
  | "lines_removed" => some (.integer c.linesRemoved)
  | _ => none

def Branch.field (b : Branch) (id : EntityId) : String → Option Value
  | "id" => some (Value.ofId id)
  | "name" => some (.text b.name)
  | "created_at" => (Value.ofInstant b.createdAt).toOption
  | "merged_at" => (Value.ofOptionalInstant b.mergedAt).toOption
  | _ => none

def Identity.field (i : Identity) (id : EntityId) : String → Option Value
  | "id" => some (Value.ofId id)
  | "name" => some (.text i.name)
  | "primary_email" => some (Value.ofOption Value.text i.primaryEmail)
  | _ => none

def Alias.field (owner : EntityId) (a : Alias) (id : EntityId) :
    String → Option Value
  | "id" => some (Value.ofId id)
  | "identity_id" => some (Value.ofId owner)
  | "name" => some (.text a.name)
  | "email" => some (.text a.email)
  | _ => none

namespace Script.Subject

/-- The rows of a record that is written under some identifiers, in the order in
which they are written.  An alias always has a new row, since those of an
identity that is there are removed before. -/
def rowWrites : (s : Subject) → s.Entity → Keys → List RowWrite
  | .commit =>
    fun (c : Commit) keys => [⟨commits, (Record.id? c).isNone, c.field keys.id⟩]
  | .branch => fun (b : Branch) keys =>
    if (Record.id? b).isNone then [⟨branches, true, b.field keys.id⟩] else []
  | .identity => fun (i : Identity) keys =>
    ⟨identities, (Record.id? i).isNone, i.field keys.id⟩ ::
      List.zipWith (fun a id => ⟨identityAliases, true, a.field keys.id id⟩)
        i.aliases keys.parts

end Script.Subject

theorem readable_of_storeTables : ∀ t ∈ storeTables, t.Readable := by
  have hcolumns : ∀ t ∈ storeTables, t.columns ≠ [] := by decide
  have hclear : ∀ t ∈ storeTables, Clear t.name ∧
      ∀ c ∈ t.columns, Clear c.name := by decide
  intro t ht
  exact ⟨hcolumns t ht, (hclear t ht).1, (hclear t ht).2⟩

theorem Commit.carries (c : Commit) (id : EntityId) {values : List Value}
    (h : c.payload = .ok values) :
    RowWrite.Carries ⟨commits, true, c.field id⟩
      (.insert commits, Value.ofId id :: values) ∧
      RowWrite.Carries ⟨commits, false, c.field id⟩
        (.update commits, values ++ [Value.ofId id]) := by
  obtain ⟨v, hv, h⟩ := bind_eq_ok.mp h
  cases h
  refine RowWrite.carries_of_fields
    (readable_of_storeTables commits (by decide)) rfl rfl rfl ?_
  simp [Column.required, Column.optional, Commit.field, hv, Except.toOption]

theorem Branch.carries (b : Branch) (id : EntityId) {values : List Value}
    (h : b.payload = .ok values) :
    RowWrite.Carries ⟨branches, true, b.field id⟩
      (.insert branches, Value.ofId id :: values) := by
  obtain ⟨v, hv, h⟩ := bind_eq_ok.mp h
  obtain ⟨v', hv', h⟩ := bind_eq_ok.mp h
  cases h
  refine (RowWrite.carries_of_fields
    (readable_of_storeTables branches (by decide)) rfl rfl rfl ?_).1
  simp [Column.required, Column.optional, Branch.field, hv, hv',
    Except.toOption]

theorem Identity.carries (i : Identity) (id : EntityId) :
    RowWrite.Carries ⟨identities, true, i.field id⟩
        (.insert identities,
          [Value.ofId id, .text i.name,
            Value.ofOption Value.text i.primaryEmail]) ∧
      RowWrite.Carries ⟨identities, false, i.field id⟩
        (.update identities,
          [.text i.name, Value.ofOption Value.text i.primaryEmail,
            Value.ofId id]) := by
  refine RowWrite.carries_of_fields
    (readable_of_storeTables identities (by decide)) rfl rfl rfl ?_
  simp [Column.required, Column.optional, Identity.field]

theorem Alias.carries (owner : EntityId) (a : Alias) (id : EntityId) :
    RowWrite.Carries ⟨identityAliases, true, a.field owner id⟩
      (.insert identityAliases, a.values owner id) := by
  refine (RowWrite.carries_of_fields
    (readable_of_storeTables identityAliases (by decide)) rfl rfl rfl ?_).1
  simp [Column.required, Column.referencing, Alias.field]

def Sql.Statement.writesRow : Statement → Bool
  | .insert _ | .update _ => true
  | _ => false

def Exchange.rowCall? : Exchange → Option (Statement × List Value)
  | executed statement params _ =>
    if statement.writesRow then some (statement, params) else none
  | _ => none

def PlanStep.rowCall? :
    PlanStep → Option (Statement × Except Failure (List Value))
  | execute statement params _ =>
    if statement.writesRow then some (statement, params) else none
  | draw _ _ => none

/-- A call is made with the parameters that have been planned. -/
def Planned (step : Statement × Except Failure (List Value))
    (call : Statement × List Value) : Prop :=
  step.1 = call.1 ∧ step.2 = .ok call.2

theorem planned_execute (statement : Statement) (params : List Value)
    (accept : Nat → Except Failure Unit) (answer : Except Failure Nat) :
    Option.Rel Planned (PlanStep.execute statement (.ok params) accept).rowCall?
      (Exchange.executed statement params answer).rowCall? := by
  unfold PlanStep.rowCall? Exchange.rowCall?
  dsimp only
  split
  · exact .some ⟨rfl, rfl⟩
  · exact .none

theorem forall₂_planned_cons {step : PlanStep} {call : Exchange}
    {steps : List PlanStep} {calls : List Exchange}
    (h : Option.Rel Planned step.rowCall? call.rowCall?)
    (hrest : List.Forall₂ Planned (steps.filterMap PlanStep.rowCall?)
      (calls.filterMap Exchange.rowCall?)) :
    List.Forall₂ Planned ((step :: steps).filterMap PlanStep.rowCall?)
      ((call :: calls).filterMap Exchange.rowCall?) := by
  rw [List.filterMap_cons, List.filterMap_cons]
  generalize step.rowCall? = planned at h ⊢
  generalize call.rowCall? = made at h ⊢
  cases h with
  | none => exact hrest
  | some hmade => exact .cons hmade hrest

theorem Completes.rowCalls {steps : List PlanStep} {calls : List Exchange}
    (h : Completes steps calls) :
    List.Forall₂ Planned (steps.filterMap PlanStep.rowCall?)
      (calls.filterMap Exchange.rowCall?) := by
  induction h with
  | nil => exact .nil
  | cons hstep _ ih =>
      refine forall₂_planned_cons ?_ ih
      cases hstep with
      | draw => exact .none
      | execute => exact planned_execute _ _ _ _

theorem PlanStep.Fails.rowCalls {step : PlanStep} {calls : List Exchange}
    {f : Failure} (h : step.Fails calls f) :
    ∃ planned, planned <+: [step].filterMap PlanStep.rowCall? ∧
      List.Forall₂ Planned planned (calls.filterMap Exchange.rowCall?) := by
  cases h with
  | unanswered | undrawn | unencodable => exact ⟨[], List.nil_prefix, .nil⟩
  | unexecuted | unaccepted =>
      exact ⟨_, List.prefix_refl _,
        forall₂_planned_cons (planned_execute _ _ _ _) .nil⟩

theorem Breaks.rowCalls {steps : List PlanStep} {calls : List Exchange}
    {f : Failure} (h : Breaks steps calls f) :
    ∃ planned, planned <+: steps.filterMap PlanStep.rowCall? ∧
      List.Forall₂ Planned planned (calls.filterMap Exchange.rowCall?) := by
  obtain @⟨front, back, step, before, last, _, hfront, hstep⟩ := h
  obtain ⟨planned, hfirst, hlast⟩ := hstep.rowCalls
  refine ⟨front.filterMap PlanStep.rowCall? ++ planned, ?_, ?_⟩
  · rw [← List.singleton_append, List.filterMap_append, List.filterMap_append,
      List.prefix_append_right_inj]
    exact hfirst.trans (List.prefix_append _ _)
  · rw [List.filterMap_append]
    exact List.rel_append hfront.rowCalls hlast

/-- A row is what a planned call is to write, if the parameters of the call can
be encoded. -/
def RowWrite.PlannedBy (x : RowWrite)
    (step : Statement × Except Failure (List Value)) : Prop :=
  ∀ values, step.2 = .ok values → x.Carries (step.1, values)

theorem RowWrite.carries_of_planned {xs : List RowWrite}
    {steps : List (Statement × Except Failure (List Value))}
    {calls : List (Statement × List Value)}
    (h : List.Forall₂ RowWrite.PlannedBy xs steps)
    (hcalls : List.Forall₂ Planned steps calls) :
    List.Forall₂ RowWrite.Carries xs calls := by
  induction h generalizing calls with
  | nil =>
      cases hcalls
      exact .nil
  | @cons x step xs steps hstep _ ih =>
      obtain ⟨call, rest, hcall, hrest, rfl⟩ :=
        List.forall₂_cons_left_iff.mp hcalls
      have hcarries := hstep call.2 hcall.2
      rw [hcall.1] at hcarries
      exact .cons hcarries (ih hrest)

theorem Identity.planned_aliases (i : Identity) (owner : EntityId)
    (parts : List EntityId) (hfits : List.Forall₂ Record.Fits i.aliases parts) :
    List.Forall₂ RowWrite.PlannedBy
      (List.zipWith (fun a id => ⟨identityAliases, true, a.field owner id⟩)
        i.aliases parts)
      ((i.aliasSteps owner parts).filterMap PlanStep.rowCall?) := by
  unfold aliasSteps
  generalize i.aliases = aliases at hfits
  induction hfits with
  | nil => exact .nil
  | @cons a id aliases parts hid _ ih =>
      have hone : (a.steps owner id).filterMap PlanStep.rowCall? =
          [(.insert identityAliases, .ok (a.values owner id))] := by
        unfold Alias.steps
        cases hown : Record.id? a with
        | none => rfl
        | some own =>
            rw [hid own hown]
            rfl
      rw [List.zipWith_cons_cons, List.zipWith_cons_cons, List.flatten_cons,
        List.filterMap_append, hone]
      refine .cons (fun values hvalues => ?_) ih
      cases hvalues
      exact Alias.carries owner a id

namespace Script.Subject

theorem planned_rowWrites (s : Subject) {r : s.Entity} {keys : Keys}
    (hfits : s.Fits r keys) :
    List.Forall₂ RowWrite.PlannedBy (s.rowWrites r keys)
      ((s.steps r keys).filterMap PlanStep.rowCall?) := by
  cases s with
  | commit =>
      change Commit at r
      change List.Forall₂ _ [_] ((Commit.steps r keys).filterMap _)
      unfold Commit.steps
      cases hid : Record.id? r with
      | none =>
          refine .cons (fun values hvalues => ?_) .nil
          obtain ⟨payload, hpayload, rfl⟩ := map_eq_ok.mp hvalues
          exact (r.carries keys.id hpayload).1
      | some id =>
          refine .cons (fun values hvalues => ?_) .nil
          obtain ⟨payload, hpayload, rfl⟩ := map_eq_ok.mp hvalues
          rw [hfits id hid]
          exact (r.carries keys.id hpayload).2
  | branch =>
      change Branch at r
      change List.Forall₂ _ (if _ then _ else _)
        ((Branch.steps r keys).filterMap _)
      unfold Branch.steps
      cases hid : Record.id? r with
      | none =>
          refine .cons (fun values hvalues => ?_) .nil
          obtain ⟨payload, hpayload, rfl⟩ := map_eq_ok.mp hvalues
          exact r.carries keys.id hpayload
      | some id => exact .nil
  | identity =>
      change Identity at r
      obtain ⟨hown, hparts⟩ := hfits
      change List.Forall₂ _ (_ :: _) ((Identity.steps r keys).filterMap _)
      unfold Identity.steps
      cases hid : Record.id? r with
      | none =>
          rw [List.filterMap_append]
          refine .cons (fun values hvalues => ?_)
            (r.planned_aliases keys.id keys.parts hparts)
          cases hvalues
          exact (r.carries keys.id).1
      | some id =>
          rw [hown id hid, List.filterMap_append]
          refine .cons (fun values hvalues => ?_)
            (r.planned_aliases keys.id keys.parts hparts)
          cases hvalues
          exact (r.carries keys.id).2

/-- On any session, the calls that write a record pass the fields of the record
for the columns of its rows, one row after the other.  If the record is written
then all of its rows are. -/
theorem rows_written (s : Subject) (r : s.Entity) (w : World (Traced σ) ω) :
    ∃ keys calls, s.Fits r keys ∧
      ((s.adapter.writeOne r).exec w).2.exchanges = w.exchanges ++ calls ∧
      ∃ written, written <+: s.rowWrites r keys ∧
        List.Forall₂ RowWrite.Carries written
          (calls.filterMap Exchange.rowCall?) ∧
        ∀ keys', ((s.adapter.writeOne r).exec w).1 = .ok keys' →
          keys' = keys ∧ written = s.rowWrites r keys := by
  by_cases hallowed : s = .branch → Record.id? r = none
  · obtain ⟨calls, hcalls, hwent⟩ := (s.keepsTo_writeOne r hallowed).went w
    generalize (s.adapter.writeOne r).exec w = after at hcalls hwent ⊢
    obtain ⟨outcome, w'⟩ := after
    cases hwent with
    | @completed keys hfits hcompletes =>
        refine ⟨keys, calls, hfits, hcalls, _, List.prefix_refl _,
          RowWrite.carries_of_planned (s.planned_rowWrites hfits)
            hcompletes.rowCalls, ?_⟩
        rintro keys' ⟨⟩
        exact ⟨rfl, rfl⟩
    | @broken keys f hfits hbreaks =>
        obtain ⟨planned, ⟨more, hmore⟩, hmade⟩ := hbreaks.rowCalls
        have hplanned := s.planned_rowWrites hfits
        rw [← hmore] at hplanned
        exact ⟨keys, calls, hfits, hcalls, _, List.take_prefix _ _,
          RowWrite.carries_of_planned (List.forall₂_take_append _ _ _ hplanned)
            hmade, nofun⟩
  · -- a stored branch is refused before any call is made
    obtain ⟨rfl, hstored⟩ := Classical.not_imp.mp hallowed
    obtain ⟨id, hid⟩ := Option.ne_none_iff_exists'.mp hstored
    have hexec : (Branch.adapter.writeOne r).exec w =
        (.error
          (.failed (Failure.unsupported Capability.update.name
            Branch.entityName)), w) := by
      rw [Adapter.writeOne_stored hid]
      rfl
    refine ⟨{ id }, [], Record.fits_own hid, ?_, [], List.nil_prefix, .nil, ?_⟩
    · change ((Branch.adapter.writeOne r).exec w).2.exchanges = _
      rw [hexec, List.append_nil]
    · change ∀ keys', ((Branch.adapter.writeOne r).exec w).1 = .ok keys' → _
      rw [hexec]
      exact nofun

end Script.Subject

/-- Statements and parameters line up.  Read from left to right, an insert into
a table has one placeholder for each column, the first for the first column
listed and so on; an update has one for each column too, of which the last is
for the key.  Where placeholders have numbers these go up in the order of the
text, so that in every dialect a list of values is given to the columns in the
same way.  What an adapter passes for a record, on any session, is one value for
each column of a row: the field with the name of the column, and for the key of
an update the identifier. -/
theorem parameters_line_up :
    (∀ (d : Dialect) (t : Table), t.Readable →
      Placeholder.inText ((Statement.insert t).render d) =
        d.marks t.columns.length ∧
      Placement.ofInsert t.name ((Statement.insert t).render d) =
        some { assigned := t.columnNames.zip (d.marks t.columns.length) } ∧
      Placeholder.inText ((Statement.update t).render d) =
        d.marks t.columns.length ∧
      Placement.ofUpdate t.name ((Statement.update t).render d) =
        some
          { assigned :=
              t.columnNames.tail.zip (d.marks (t.columns.length - 1)),
            key? := some (t.keyName, d.mark t.columns.length) }) ∧
    (∀ count k, k < count → (Dialect.postgres.marks count)[k]? =
      some (.numbered (k + 1))) ∧
    (∀ (t : Table) (values : List Value) (last : Value), t.Readable →
      values.length + 1 = t.columns.length →
      ∀ d, (Statement.insert t).placed? d (values ++ [last]) =
          some { assigned := t.columnNames.zip (values ++ [last]) } ∧
        (Statement.update t).placed? d (values ++ [last]) =
          some { assigned := t.columnNames.tail.zip values,
                 key? := some (t.keyName, last) }) ∧
    ∀ {σ ω : Type} [Session σ] (s : Script.Subject) (r : s.Entity)
      (w : World (Traced σ) ω), ∃ keys calls, s.Fits r keys ∧
        ((s.adapter.writeOne r).exec w).2.exchanges = w.exchanges ++ calls ∧
        ∃ written, written <+: s.rowWrites r keys ∧
          List.Forall₂ RowWrite.Carries written
            (calls.filterMap Exchange.rowCall?) ∧
          ∀ keys', ((s.adapter.writeOne r).exec w).1 = .ok keys' →
            keys' = keys ∧ written = s.rowWrites r keys := by
  have hparts : ∀ {t : Table} {key : Column} {others : List Column},
      t.columns = key :: others →
      t.columnNames.tail = others.map Column.name ∧ t.keyName = key.name ∧
        t.columns.length = others.length + 1 := by
    intro t key others hcolumns
    unfold Table.keyName Table.columnNames
    rw [hcolumns]
    exact ⟨rfl, rfl, rfl⟩
  refine ⟨fun d t h => ?_, fun count k hk => ?_,
    fun t values last h hlength d => ⟨?_, ?_⟩, fun s r w => s.rows_written r w⟩
  · obtain ⟨key, others, hcolumns⟩ := List.exists_cons_of_ne_nil h.nonempty
    obtain ⟨htail, hkey, hcount⟩ := hparts hcolumns
    refine ⟨Placement.inText_insert d h, Placement.ofInsert_render d h,
      Placement.inText_update d h, ?_⟩
    rw [Placement.ofUpdate_render d hcolumns h, htail, hkey, hcount]
    rfl
  · simp [Dialect.marks, Dialect.mark, hk]
  · exact h.placed_insert d (by simp [hlength])
  · obtain ⟨key, others, hcolumns⟩ := List.exists_cons_of_ne_nil h.nonempty
    obtain ⟨htail, hkey, hcount⟩ := hparts hcolumns
    rw [htail, hkey, h.placed_update d hcolumns (by omega) last]

/-- A table whose names read like parts of statements. -/
def oddTable : Table where
  name := "odd (table"
  columns := [.identifier, .required ") VALUES (" .text,
    .required " WHERE id = " .bigInt]

theorem parameters_line_up_odd :
    oddTable.Readable ∧ 2 < 3 ∧ [Value.text "a", .integer 5].length + 1 =
      oddTable.columns.length ∧
      Placeholder.inText ((Statement.update oddTable).render .postgres) =
        [.numbered 1, .numbered 2, .numbered 3] ∧
      (Dialect.postgres.marks 3)[2]? = some (.numbered 3) ∧
      (Statement.update oddTable).placed? .postgres [.text "a", .integer 5,
        .integer 7] = some
          { assigned := [(") VALUES (", .text "a"),
            (" WHERE id = ", .integer 5)], key? := some ("id", .integer 7) } ∧
      ∃ keys calls,
        ((Commit.adapter.writeOne missingCommit).exec numberless).1 = .ok keys ∧
        ((Commit.adapter.writeOne missingCommit).exec numberless).2.exchanges =
          calls ∧
        List.Forall₂ RowWrite.Carries
          [⟨commits, false, missingCommit.field keys.id⟩]
          (calls.filterMap Exchange.rowCall?) := by
  have hreadable : oddTable.Readable := ⟨by decide, by decide, by decide⟩
  obtain ⟨htexts, hnumbers, hvalues, hrows⟩ := parameters_line_up
  obtain ⟨keys, calls, -, hcalls, written, -, hcarries, hall⟩ :=
    hrows .commit missingCommit numberless
  obtain ⟨rfl, rfl⟩ := hall { id := ⟨999, by decide⟩ } rfl
  exact ⟨hreadable, by decide, rfl, (htexts .postgres oddTable hreadable).2.2.1,
    hnumbers 3 2 (by decide),
    (hvalues oddTable [.text "a", .integer 5] (.integer 7) hreadable rfl
      .postgres).2, _, calls, rfl, hcalls, hcarries⟩

end Annals
