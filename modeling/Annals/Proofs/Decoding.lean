import Annals.Proofs.Instants
import Annals.Proofs.Merging
import Annals.Script.Basic

/-!
A layout makes a record of a row just if every column that it reads holds what
it expects there, and the record carries exactly the values of these columns.
Any other row is a decoding failure, unless all is well up to the own identifier
of the record and that is an integer which is not positive: then the failure is
that of an argument.
-/

namespace Annals

open Annals.Sql Annals.Stream

namespace Sql

/-- What a layout expects of a column. -/
inductive Expected where
  | text
  | integer
  | id
  | optional (e : Expected)

def Expected.admits : Expected → Value → Bool
  | text, .text _ => true
  | integer, .integer _ => true
  | id, .integer n => 0 < n
  | optional _, .null => true
  | optional e, v => e.admits v
  | _, _ => false

namespace Row

/-- Whether a column exists and holds what is expected of it. -/
def admits (r : Row) (column : Nat) (e : Expected) : Bool :=
  r.values[column]?.any e.admits

def fits (r : Row) (columns : List (Nat × Expected)) : Bool :=
  columns.all fun c => r.admits c.1 c.2

end Row

end Sql

/-- What a computation on a row comes to.  It makes the values that fit, which
exist just if the row is `accepted`; otherwise it fails, as on an argument just
if the row is `misnumbered` and to decode in all other cases. -/
structure Decodes {α : Type} (x : Except Failure α) (Fits : α → Prop)
    (accepted misnumbered : Prop) :
    Prop where
  ok_iff (a : α) : x = .ok a ↔ Fits a
  accepted_iff : (∃ a, x = .ok a) ↔ accepted
  misnumbered_iff : (∃ f, x = .error f ∧ f.kind = .invalidArgument) ↔
    misnumbered
  kind (f : Failure) : x = .error f → f.kind = .decode ∨
    f.kind = .invalidArgument

namespace Decodes

variable {α β : Type} {x : Except Failure α} {Fits : α → Prop}
    {accepted misnumbered : Prop}

theorem congr {Fits' : α → Prop} {accepted' misnumbered' : Prop}
    (h : Decodes x Fits accepted misnumbered) (hfits : ∀ a, Fits a ↔ Fits' a)
    (haccepted : accepted ↔ accepted')
    (hmisnumbered : misnumbered ↔ misnumbered') :
    Decodes x Fits' accepted' misnumbered' where
  ok_iff a := (h.ok_iff a).trans (hfits a)
  accepted_iff := h.accepted_iff.trans haccepted
  misnumbered_iff := h.misnumbered_iff.trans hmisnumbered
  kind := h.kind

theorem ok (a : α) : Decodes (.ok a) (a = ·) True False where
  ok_iff b := Except.ok.injEq a b ▸ Iff.rfl
  accepted_iff := by simp
  misnumbered_iff := by simp
  kind f h := by cases h

theorem error {f : Failure}
    (hkind : f.kind = .decode ∨ f.kind = .invalidArgument)
    (hnone : ∀ a, ¬ Fits a) (haccepted : ¬ accepted) :
    Decodes (.error f) Fits accepted (f.kind = .invalidArgument) where
  ok_iff a := by simpa using hnone a
  accepted_iff := by simpa using haccepted
  misnumbered_iff := by simp
  kind f' h := by
    cases h
    exact hkind

theorem undecoded {f : Failure} (hkind : f.kind = .decode)
    (hnone : ∀ a, ¬ Fits a) (haccepted : ¬ accepted) :
    Decodes (.error f) Fits accepted False :=
  (error (.inl hkind) hnone haccepted).congr (fun _ => Iff.rfl) Iff.rfl
    (by simp [hkind])

theorem exists_fits_iff (h : Decodes x Fits accepted misnumbered) :
    (∃ a, Fits a) ↔ accepted :=
  (exists_congr fun a => (h.ok_iff a).symm).trans h.accepted_iff

/-- What is accepted of the rest of a computation may depend on the value that
it goes on with. -/
theorem bind {k : α → Except Failure β} {FitsNext : α → β → Prop}
    {acceptedNext misnumberedNext : α → Prop}
    (h : Decodes x Fits accepted misnumbered)
    (hk : ∀ a, Decodes (k a) (FitsNext a) (acceptedNext a)
      (misnumberedNext a)) :
    Decodes (x >>= k) (fun b => ∃ a, Fits a ∧ FitsNext a b) (∃ a, Fits a ∧
      acceptedNext a) (misnumbered ∨ ∃ a, Fits a ∧ misnumberedNext a) := by
  cases x with
  | error f =>
      have hnone : ∀ a, ¬ Fits a := fun a ha => by cases (h.ok_iff a).mpr ha
      refine ⟨fun b => ?_, ?_, ?_, fun f' hf' => ?_⟩
      · change Except.error f = .ok b ↔ _
        simp [hnone]
      · change (∃ b, Except.error f = .ok b) ↔ _
        simp [hnone]
      · change (∃ f', Except.error f = (.error f' : Except Failure β) ∧ _) ↔ _
        simp [← h.misnumbered_iff, hnone]
      · cases hf'
        exact h.kind f rfl
  | ok a =>
      have hfits : ∀ a', Fits a' ↔ a = a' :=
        fun a' => by rw [← h.ok_iff, Except.ok.injEq]
      have hnumbered : ¬ misnumbered := by simp [← h.misnumbered_iff]
      change Decodes (k a) _ _ _
      exact (hk a).congr (by simp [hfits]) (by simp [hfits])
        (by simp [hfits, hnumbered])

theorem andThen {k : α → Except Failure β} {FitsNext : α → β → Prop}
    {acceptedNext misnumberedNext : Prop}
    (h : Decodes x Fits accepted misnumbered)
    (hk : ∀ a, Decodes (k a) (FitsNext a) acceptedNext misnumberedNext) :
    Decodes (x >>= k) (fun b => ∃ a, Fits a ∧ FitsNext a b) (accepted ∧
      acceptedNext) (misnumbered ∨ accepted ∧ misnumberedNext) :=
  (h.bind hk).congr (fun _ => Iff.rfl)
    (by rw [exists_and_right, h.exists_fits_iff])
    (by rw [exists_and_right, h.exists_fits_iff])

theorem map (h : Decodes x Fits accepted misnumbered) (g : α → β) :
    Decodes (g <$> x) (fun b => ∃ a, Fits a ∧ g a = b) accepted
      misnumbered := by
  rw [map_eq_pure_bind]
  exact (h.andThen fun a => ok (g a)).congr (fun _ => Iff.rfl) (by simp)
    (by simp)

end Decodes

namespace Sql.Row

variable (r : Row) (column : Nat)

theorem decodes_value {α : Type} {read : Value → Except Failure α}
    (make : α → Value) {e : Expected}
    (hmade : ∀ a, read (make a) = .ok a ∧ e.admits (make a) = true)
    (hother : ∀ v, (∀ a, v ≠ make a) →
      (∃ f, read v = .error f ∧ f.kind = .decode) ∧ e.admits v = false) :
    Decodes (r.value column >>= read)
      (fun a => r.values[column]? = some (make a))
      (r.admits column e) False := by
  unfold value admits
  cases r.values[column]? with
  | none => exact .undecoded rfl (by simp) (by simp)
  | some v =>
      change Decodes (read v) _ _ _
      by_cases hv : ∃ a, v = make a
      · obtain ⟨a, rfl⟩ := hv
        obtain ⟨hread, hadmits⟩ := hmade a
        rw [hread]
        refine (Decodes.ok a).congr (fun b => ?_) (by simp [hadmits]) Iff.rfl
        constructor
        · rintro rfl
          rfl
        · intro hmake
          have hsame : read (make a) = read (make b) :=
            congrArg read (Option.some.inj hmake)
          rw [hread, (hmade b).1] at hsame
          exact Except.ok.inj hsame
      · have hne : ∀ a, v ≠ make a := fun a ha => hv ⟨a, ha⟩
        obtain ⟨⟨f, hread, hkind⟩, hadmits⟩ := hother v hne
        rw [hread]
        exact .undecoded hkind (fun a ha => hne a (Option.some.inj ha))
          (by simp [hadmits])

theorem decodes_int64 :
    Decodes (r.int64 column) (fun n => r.values[column]? = some (.integer n))
    (r.admits column .integer) False := by
  unfold int64
  refine r.decodes_value column .integer (fun _ => ⟨rfl, rfl⟩) fun v hne => ?_
  cases v with
  | integer n => exact absurd rfl (hne n)
  | _ => exact ⟨⟨_, rfl, rfl⟩, rfl⟩

theorem decodes_string :
    Decodes (r.string column) (fun s => r.values[column]? = some (.text s))
    (r.admits column .text) False := by
  unfold string
  refine r.decodes_value column .text (fun _ => ⟨rfl, rfl⟩) fun v hne => ?_
  cases v with
  | text s => exact absurd rfl (hne s)
  | _ => exact ⟨⟨_, rfl, rfl⟩, rfl⟩

theorem admits_integer_iff :
    r.admits column .integer = true ↔
    ∃ n, r.values[column]? = some (.integer n) :=
  (r.decodes_int64 column).exists_fits_iff.symm

theorem admits_id_iff :
    r.admits column .id = true ↔ ∃ n, r.values[column]? = some (.integer n) ∧
      0 < n := by
  unfold admits
  cases r.values[column]? with
  | none => simp
  | some v => cases v <;> simp [Expected.admits]

theorem decodes_identifier {α : Type} (make : EntityId → α)
    {fail : IdentError → Failure} (invalid : Bool)
    (hkind : ∀ n, (fail (.notPositive n)).kind =
      if invalid then .invalidArgument else .decode) :
    Decodes (r.int64 column >>= fun n => match EntityId.ofValue n with
        | .ok id => pure (make id)
        | .error e => throw (fail e))
      (fun a => ∃ id, r.values[column]? = some (.ofId id) ∧ make id = a)
      (r.admits column .id)
      (r.admits column .integer ∧ ¬ r.admits column .id ∧ invalid) := by
  have hk : ∀ n, Decodes (match EntityId.ofValue n with
        | .ok id => pure (make id)
        | .error e => throw (fail e))
      (fun a => ∃ id : EntityId, id.value = n ∧ make id = a) (0 < n)
      (¬ 0 < n ∧ invalid) := fun n => by
    unfold EntityId.ofValue EntityId.ofValue?
    by_cases hn : 0 < n
    · rw [dif_pos hn]
      refine (Decodes.ok (make ⟨n, hn⟩)).congr (fun a => ?_) (by simp [hn])
        (by simp [hn])
      constructor
      · exact fun h => ⟨⟨n, hn⟩, rfl, h⟩
      · rintro ⟨id, rfl, h⟩
        exact h
    · rw [dif_neg hn]
      have hnone : ∀ id : EntityId, id.value ≠ n :=
        fun id h => hn (h ▸ id.positive)
      refine (Decodes.error ?_ (by simp [hnone]) hn).congr (fun _ => Iff.rfl)
        Iff.rfl ?_
      · cases invalid <;> simp [hkind]
      · cases invalid <;> simp [hkind, hn]
  refine ((r.decodes_int64 column).bind hk).congr (fun a => ?_)
    (r.admits_id_iff column).symm ?_
  · constructor
    · rintro ⟨n, hn, id, rfl, h⟩
      exact ⟨id, hn, h⟩
    · rintro ⟨id, hid, h⟩
      exact ⟨id.value, hid, id, rfl, h⟩
  · rw [admits_integer_iff, admits_id_iff, false_or]
    constructor
    · rintro ⟨n, hn, hpos, hinvalid⟩
      refine ⟨⟨n, hn⟩, ?_, hinvalid⟩
      rintro ⟨m, hm, hmpos⟩
      cases hn.symm.trans hm
      exact hpos hmpos
    · rintro ⟨⟨n, hn⟩, hpos, hinvalid⟩
      exact ⟨n, hn, fun h => hpos ⟨n, hn, h⟩, hinvalid⟩

theorem decodes_entityId : Decodes (r.entityId column)
    (fun id => r.values[column]? = some (.ofId id))
    (r.admits column .id) False :=
  (r.decodes_identifier column id false fun _ => rfl).congr
    (by simp) Iff.rfl (by simp)

theorem decodes_rowIdent : Decodes (rowIdent r column)
    (fun i => ∃ id, r.values[column]? = some (.ofId id) ∧ ⟨some id⟩ = i)
    (r.admits column .id) (r.admits column .integer ∧ ¬ r.admits column .id) :=
  (r.decodes_identifier column _ true fun _ => rfl).congr
    (fun _ => Iff.rfl) Iff.rfl (by simp)

theorem decodes_instant : Decodes (r.instant column)
    (fun t => ∃ n, r.values[column]? = some (.integer n) ∧ .ofEpochNanos n = t)
    (r.admits column .integer) False := by
  rw [instant_eq_map]
  exact (r.decodes_int64 column).map _

variable {r column} {α : Type} {get : Row → Nat → Except Failure α}
    {encode : α → Value} {e : Expected}

theorem optional_of_null (h : r.values[column]? = some .null) :
    r.optional get column = .ok none := by
  unfold optional value
  rw [h]
  rfl

theorem optional_of_ne_null {v : Value} (h : r.values[column]? = some v)
    (hnull : v ≠ .null) :
    r.optional get column = some <$> get r column := by
  unfold optional value
  rw [h, map_eq_pure_bind]
  cases v <;> first | rfl | exact absurd rfl hnull

theorem admits_optional_of_ne_null {v : Value} (h : r.values[column]? = some v)
    (hnull : v ≠ .null) :
    r.admits column (.optional e) = r.admits column e := by
  unfold admits
  rw [h]
  cases v <;> first | rfl | exact absurd rfl hnull

theorem decodes_optional (hget : Decodes (get r column)
      (fun a => r.values[column]? = some (encode a)) (r.admits column e) False)
    (hencode : ∀ a, encode a ≠ .null) :
    Decodes (r.optional get column)
      (fun a? => r.values[column]? = some (.ofOption encode a?))
      (r.admits column (.optional e)) False := by
  cases hv : r.values[column]? with
  | none =>
      unfold optional value
      rw [hv]
      exact .undecoded rfl (by simp) (by simp [admits, hv])
  | some v =>
      by_cases hnull : v = .null
      · rw [optional_of_null (hnull ▸ hv)]
        refine (Decodes.ok none).congr (fun a? => ?_)
          (by simp [admits, hv, hnull, Expected.admits]) Iff.rfl
        cases a? with
        | none => simp [Value.ofOption, hnull]
        | some a => simp [Value.ofOption, hnull, (hencode a).symm]
      · rw [optional_of_ne_null hv hnull, admits_optional_of_ne_null hv hnull]
        refine (hget.map some).congr (fun a? => ?_) Iff.rfl Iff.rfl
        rw [hv]
        cases a? with
        | none => simp [Value.ofOption, hnull]
        | some a => simp [Value.ofOption]

theorem decodes_optional_instant (r : Row) (column : Nat) :
    Decodes (r.optional instant column)
    (fun t? => ∃ n?, r.values[column]? = some (.ofOption .integer n?) ∧
      n?.map .ofEpochNanos = t?)
    (r.admits column (.optional .integer)) False := by
  have heq : r.optional instant column =
      Option.map Time.Instant.ofEpochNanos <$> r.optional int64 column := by
    unfold optional
    rw [map_bind]
    refine bind_congr fun v => ?_
    cases v with
    | null => rfl
    | _ =>
        simp only [instant_eq_map, map_eq_pure_bind, bind_assoc, pure_bind,
          Option.map_some]
  rw [heq]
  exact (decodes_optional (r.decodes_int64 column) fun n => by simp).map _

end Sql.Row

namespace Commit

def columns : List (Nat × Expected) :=
  [(1, .text), (4, .integer), (5, .text), (6, .integer), (7, .integer),
    (2, .optional .id), (3, .optional .id)]

/-- A commit carries the values of the columns of a row. -/
structure Carries (r : Row) (c : Commit) : Prop where
  ident : ∃ id, r.values[0]? = some (.ofId id) ∧ ⟨some id⟩ = c.ident
  revision : r.values[1]? = some (.text c.revision)
  authorId : r.values[2]? = some (.ofOption .ofId c.authorId)
  branchId : r.values[3]? = some (.ofOption .ofId c.branchId)
  committedAt : ∃ n, r.values[4]? = some (.integer n) ∧
    .ofEpochNanos n = c.committedAt
  message : r.values[5]? = some (.text c.message)
  linesAdded : r.values[6]? = some (.integer c.linesAdded)
  linesRemoved : r.values[7]? = some (.integer c.linesRemoved)

theorem decodes_ofRow (r : Row) : Decodes (ofRow r) (Carries r)
    (r.fits columns ∧ r.admits 0 .id)
    (r.fits columns ∧ r.admits 0 .integer ∧ ¬ r.admits 0 .id) := by
  have hid : ∀ id, Value.ofId id ≠ .null := fun id => by simp [Value.ofId]
  refine ((r.decodes_string 1).andThen fun revision =>
    (r.decodes_instant 4).andThen fun committedAt =>
      (r.decodes_string 5).andThen fun message =>
        (r.decodes_int64 6).andThen fun linesAdded =>
      (r.decodes_int64 7).andThen fun linesRemoved =>
      (Row.decodes_optional (r.decodes_entityId 2) hid).andThen fun authorId =>
      (Row.decodes_optional (r.decodes_entityId 3) hid).andThen fun branchId =>
      (r.decodes_rowIdent 0).andThen fun ident => Decodes.ok _).congr
        (fun c => ?_) ?_ ?_
  · constructor
    · rintro ⟨_, hrevision, _, hcommitted, _, hmessage, _, hadded, _, hremoved,
        _, hauthor, _, hbranch, _, hident, rfl⟩
      exact ⟨hident, hrevision, hauthor, hbranch, hcommitted, hmessage,
        hadded, hremoved⟩
    · rintro ⟨hident, hrevision, hauthor, hbranch, hcommitted, hmessage,
        hadded, hremoved⟩
      exact ⟨_, hrevision, _, hcommitted, _, hmessage, _, hadded, _, hremoved,
        _, hauthor, _, hbranch, _, hident, rfl⟩
  · simp [columns, Row.fits, and_assoc]
  · simp [columns, Row.fits, and_assoc]

end Commit

namespace Branch

def columns : List (Nat × Expected) :=
  [(1, .text), (2, .integer), (3, .optional .integer)]

/-- A branch carries the values of the columns of a row. -/
structure Carries (r : Row) (b : Branch) : Prop where
  ident : ∃ id, r.values[0]? = some (.ofId id) ∧ ⟨some id⟩ = b.ident
  name : r.values[1]? = some (.text b.name)
  createdAt : ∃ n, r.values[2]? = some (.integer n) ∧
    .ofEpochNanos n = b.createdAt
  mergedAt : ∃ n?, r.values[3]? = some (.ofOption .integer n?) ∧
    n?.map .ofEpochNanos = b.mergedAt

theorem decodes_ofRow (r : Row) : Decodes (ofRow r) (Carries r)
    (r.fits columns ∧ r.admits 0 .id)
    (r.fits columns ∧ r.admits 0 .integer ∧ ¬ r.admits 0 .id) := by
  refine ((r.decodes_string 1).andThen fun name =>
    (r.decodes_instant 2).andThen fun createdAt =>
      (r.decodes_optional_instant 3).andThen fun mergedAt =>
      (r.decodes_rowIdent 0).andThen fun ident => Decodes.ok _).congr
        (fun b => ?_) ?_ ?_
  · constructor
    · rintro ⟨_, hname, _, hcreated, _, hmerged, _, hident, rfl⟩
      exact ⟨hident, hname, hcreated, hmerged⟩
    · rintro ⟨hident, hname, hcreated, hmerged⟩
      exact ⟨_, hname, _, hcreated, _, hmerged, _, hident, rfl⟩
  · simp [columns, Row.fits, and_assoc]
  · simp [columns, Row.fits, and_assoc]

end Branch

namespace Identity

def columns : List (Nat × Expected) := [(1, .text), (2, .optional .text)]

/-- Whether the columns of an alias hold one or none; without an identifier the
others do not count. -/
def fitsAlias (r : Row) : Bool :=
  r.admits 3 (.optional .id) &&
    (r.values[3]? == some .null || r.fits [(4, .text), (5, .text)])

/-- The columns of an alias hold this one, or none. -/
def CarriesAlias (r : Row) : Option Alias → Prop
  | none => r.values[3]? = some .null
  | some a => (∃ id, r.values[3]? = some (.ofId id) ∧ ⟨some id⟩ = a.ident) ∧
      r.values[4]? = some (.text a.name) ∧ r.values[5]? = some (.text a.email)

/-- An identity carries the values of the columns of a row. -/
structure Carries (r : Row) (i : Identity) : Prop where
  ident : ∃ id, r.values[0]? = some (.ofId id) ∧ ⟨some id⟩ = i.ident
  name : r.values[1]? = some (.text i.name)
  primaryEmail : r.values[2]? = some (.ofOption .text i.primaryEmail)
  aliases : ∃ a?, CarriesAlias r a? ∧ a?.toList = i.aliases

theorem decodes_rowHead (r : Row) : Decodes (rowHead r)
    (fun i => (∃ id, r.values[0]? = some (.ofId id) ∧ ⟨some id⟩ = i.ident) ∧
      r.values[1]? = some (.text i.name) ∧
      r.values[2]? = some (.ofOption .text i.primaryEmail) ∧ i.aliases = [])
    (r.fits columns ∧ r.admits 0 .id)
    (r.fits columns ∧ r.admits 0 .integer ∧ ¬ r.admits 0 .id) := by
  refine ((r.decodes_string 1).andThen fun name =>
    (Row.decodes_optional (r.decodes_string 2) fun s => by simp).andThen
      fun primaryEmail =>
    (r.decodes_rowIdent 0).andThen fun ident => Decodes.ok _).congr
      (fun i => ?_) ?_ ?_
  · constructor
    · rintro ⟨_, hname, _, hemail, _, hident, rfl⟩
      exact ⟨hident, hname, hemail, rfl⟩
    · rintro ⟨hident, hname, hemail, hnone⟩
      exact ⟨_, hname, _, hemail, _, hident, by rw [← hnone]⟩
  · simp [columns, Row.fits, and_assoc]
  · simp [columns, Row.fits, and_assoc]

def namedAlias (r : Row) (id : EntityId) : Except Failure Alias := do
  let name ← r.string 4
  let email ← r.string 5
  return { ident := ⟨some id⟩, name, email }

theorem decodes_namedAlias (r : Row) (id : EntityId) : Decodes (namedAlias r id)
    (fun a => a.ident = ⟨some id⟩ ∧ r.values[4]? = some (.text a.name) ∧
      r.values[5]? = some (.text a.email))
    (r.fits [(4, .text), (5, .text)]) False := by
  refine ((r.decodes_string 4).andThen fun name =>
    (r.decodes_string 5).andThen fun email =>
      Decodes.ok _).congr (fun a => ?_) (by simp [Row.fits]) (by simp)
  constructor
  · rintro ⟨name, hname, email, hemail, rfl⟩
    exact ⟨rfl, hname, hemail⟩
  · rintro ⟨hident, hname, hemail⟩
    exact ⟨_, hname, _, hemail, by rw [← hident]⟩

theorem rowAlias_eq (r : Row) : rowAlias r =
    r.optional Row.entityId 3 >>=
      (·.elim (pure none) fun id => some <$> namedAlias r id) := by
  unfold rowAlias namedAlias
  refine bind_congr fun id? => ?_
  cases id? with
  | none => rfl
  | some id => simp only [Option.elim_some, map_bind, map_pure]

theorem decodes_rowAlias (r : Row) :
    Decodes (rowAlias r) (CarriesAlias r) (fitsAlias r) False := by
  have hheld := Row.decodes_optional (r.decodes_entityId 3) fun id => by
    simp [Value.ofId]
  -- what the columns behind the identifier have to hold depends on whether
  -- there is one
  have hrest : ∀ id?,
      Decodes (id?.elim (pure none) fun id => some <$> namedAlias r id)
      (fun a? => a?.map Alias.ident = id?.map (⟨some ·⟩) ∧
        ∀ a ∈ a?, r.values[4]? = some (.text a.name) ∧
          r.values[5]? = some (.text a.email))
      (id? = none ∨ r.fits [(4, .text), (5, .text)]) False := by
    rintro (_ | id)
    · exact (Decodes.ok none).congr (fun a? => by cases a? <;> simp)
        (by simp) Iff.rfl
    · exact ((decodes_namedAlias r id).map some).congr
        (fun a? => by cases a? <;> simp) (by simp) Iff.rfl
  rw [rowAlias_eq]
  refine (hheld.bind hrest).congr (fun a? => ?_) ?_ (by simp)
  · constructor
    · rintro ⟨id?, hid, hident, hcolumns⟩
      cases a? with
      | none =>
          cases Option.map_eq_none_iff.mp hident.symm
          exact hid
      | some a =>
          obtain ⟨id, rfl, ha⟩ := Option.map_eq_some_iff.mp hident.symm
          exact ⟨⟨id, hid, ha⟩, hcolumns a rfl⟩
    · cases a? with
      | none => exact fun hnull => ⟨none, hnull, rfl, by simp⟩
      | some a =>
          rintro ⟨⟨id, hid, ha⟩, hcolumns⟩
          exact ⟨some id, hid, congrArg some ha.symm, by simpa using hcolumns⟩
  · unfold fitsAlias
    rw [Bool.and_eq_true, ← hheld.exists_fits_iff, Bool.or_eq_true, beq_iff_eq]
    constructor
    · rintro ⟨id?, hid, rfl | hcolumns⟩
      · exact ⟨⟨none, hid⟩, .inl hid⟩
      · exact ⟨⟨id?, hid⟩, .inr hcolumns⟩
    · rintro ⟨⟨id?, hid⟩, hnull | hcolumns⟩
      · exact ⟨none, hnull, .inl rfl⟩
      · exact ⟨id?, hid, .inr hcolumns⟩

example : fitsAlias ⟨[.integer 1, .text "ada", .null, .null]⟩ = true ∧
    fitsAlias ⟨[.integer 1, .text "ada", .null, .integer 1,
      .text "ada", .null]⟩ = false := by decide

theorem decodes_ofRow (r : Row) : Decodes (ofRow r) (Carries r)
    (r.fits columns ∧ r.admits 0 .id ∧ fitsAlias r)
    (r.fits columns ∧ r.admits 0 .integer ∧ ¬ r.admits 0 .id) := by
  rw [ofRow_eq]
  simp only [mergeRow_eq]
  refine ((decodes_rowHead r).andThen fun head =>
    (decodes_rowAlias r).map head.receive).congr
      (fun i => ?_) (by simp [and_assoc]) (by simp)
  constructor
  · rintro ⟨⟨ident, name, primaryEmail, aliases⟩, ⟨hident, hname, hemail, rfl⟩,
      a?, halias, rfl⟩
    cases a? <;> exact ⟨hident, hname, hemail, _, halias, rfl⟩
  · obtain ⟨ident, name, primaryEmail, aliases⟩ := i
    rintro ⟨hident, hname, hemail, a?, halias, rfl⟩
    refine ⟨{ ident, name, primaryEmail }, ⟨hident, hname, hemail, rfl⟩, a?,
      halias, ?_⟩
    cases a? <;> rfl

end Identity

namespace Script.Subject

def columns : Subject → List (Nat × Expected)
  | commit => Commit.columns
  | branch => Branch.columns
  | identity => Identity.columns

/-- Whether every column of the layout holds what is expected of it. -/
def fits (s : Subject) (r : Row) : Bool :=
  r.fits s.columns && r.admits 0 .id && (s ≠ identity || Identity.fitsAlias r)

/-- Whether all is well up to the own identifier, which is an integer but not
positive. -/
def misnumbered (s : Subject) (r : Row) : Bool :=
  r.fits s.columns && r.admits 0 .integer && !r.admits 0 .id

/-- A record carries the values of the columns of a row. -/
def Carries (r : Row) : (s : Subject) → s.Entity → Prop
  | commit => Commit.Carries r
  | branch => Branch.Carries r
  | identity => Identity.Carries r

theorem decodes_ofRow (s : Subject) (r : Row) :
    Decodes (s.adapter.ofRow r) (s.Carries r) (s.fits r) (s.misnumbered r) := by
  cases s with
  | commit =>
      exact (Commit.decodes_ofRow r).congr (fun _ => Iff.rfl)
        (by simp [fits, columns]) (by simp [misnumbered, columns, and_assoc])
  | branch =>
      exact (Branch.decodes_ofRow r).congr (fun _ => Iff.rfl)
        (by simp [fits, columns]) (by simp [misnumbered, columns, and_assoc])
  | identity =>
      exact (Identity.decodes_ofRow r).congr (fun _ => Iff.rfl)
        (by simp [fits, columns, and_assoc])
        (by simp [misnumbered, columns, and_assoc])

/-- A row makes a record just if all of its columns fit the layout, and then the
record carries exactly the values of these columns.  Otherwise the row fails: as
a decoding failure, unless all is well up to the own identifier, which is an
integer but not positive. -/
theorem ofRow_exact (s : Subject) (r : Row) :
    (∀ a, s.adapter.ofRow r = .ok a ↔ s.Carries r a) ∧
    ((∃ a, s.adapter.ofRow r = .ok a) ↔ s.fits r = true) ∧
    ∀ f, s.adapter.ofRow r = .error f →
      f.kind = if s.misnumbered r then .invalidArgument else .decode := by
  have hdecodes := s.decodes_ofRow r
  refine ⟨hdecodes.ok_iff, hdecodes.accepted_iff, fun f hf => ?_⟩
  split
  · rename_i hmisnumbered
    obtain ⟨f', hf', hkind⟩ := hdecodes.misnumbered_iff.mpr hmisnumbered
    cases hf.symm.trans hf'
    exact hkind
  · rename_i hnumbered
    exact (hdecodes.kind f hf).resolve_right fun hkind =>
      hnumbered (hdecodes.misnumbered_iff.mp ⟨f, hf, hkind⟩)

/-- Every layout has rows that fail, but not as a decoding failure. -/
theorem ofRow_not_decode :
    ¬ ∃ s : Subject, ∀ (r : Row) (f : Failure), s.adapter.ofRow r = .error f →
      f.kind = .decode := by
  rintro ⟨_ | _ | _, h⟩
  · exact absurd
      (h ⟨[.integer 0, .text "abc", .null, .null, .integer 0, .text "",
        .integer 0, .integer 0]⟩ _ rfl) (by decide)
  · exact absurd (h ⟨[.integer 0, .text "trunk", .integer 0, .null]⟩ _ rfl)
      (by decide)
  · exact absurd (h ⟨[.integer 0, .text "ada", .null]⟩ _ rfl) (by decide)

end Script.Subject

end Annals
