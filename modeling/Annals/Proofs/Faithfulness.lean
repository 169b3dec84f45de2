import Annals.Proofs.Assignment
import Annals.Proofs.Objects
import Annals.Proofs.Reachable
import Annals.Proofs.Timestamps
import Annals.Record.Json

namespace Annals

open Annals.Json Annals.Number Annals.Time

namespace Json

/-- What may be written for an entry, and where there is none. -/
abbrev Rewriting := Option Json → Json → Prop

namespace Rewriting

def same : Rewriting
  | some json, written => written = json
  | none, _ => False

/-- A number if it is an identifier, and the sentinel for all others and where
there is none. -/
def slot : Rewriting
  | some (.integer n), written => written = .integer (if 0 < n then n else -1)
  | some _, _ => False
  | none, written => written = .integer (-1)

def identifier : Rewriting
  | some (.integer n), written => 0 < n ∧ written = .integer n
  | _, _ => False

/-- The canonical form of the instant that a text stands for. -/
def instant : Rewriting
  | some (.string s), written =>
    ∃ t, Instant.ofRfc3339 s = .ok t ∧ written = .string t.toRfc3339
  | _, _ => False

def orNull (r : Rewriting) : Rewriting
  | none, written => written = .null
  | some .null, written => written = .null
  | some json, written => r (some json) written

def each (r : Json → Json → Prop) : Rewriting
  | some (.array items), written =>
    ∃ items', written = .array items' ∧ List.Forall₂ r items items'
  | some _, _ => False
  | none, written => written = .array []

end Rewriting

/-- An object has the fields of these names and no others, and in each what may
be written for its entry. -/
def Rewritten (fs : List Field) (forms : List (String × Rewriting))
    (json written : Json) : Prop :=
  ∃ fields, written = .object fields ∧
    (fields.map Prod.fst).Perm (forms.map Prod.fst) ∧
    ∀ form ∈ forms, ∃ value, (form.1, value) ∈ fields ∧
      form.2 ((Codec.entries fs json).lookup form.1) value

namespace Codec

variable {α β : Type} {codec : Codec α} {r : Rewriting}
    {normal : Json → Json → Prop}

/-- A codec reads what it writes, and what it has read it writes in its normal
form. -/
structure Preserves (codec : Codec α) (normal : Json → Json → Prop) : Prop where
  restores : codec.Restores
  rewrites : ∀ {json a}, codec.decode json = .ok a →
    normal json (codec.encode a)

theorem Preserves.iso (h : codec.Preserves normal) {parse : α → β}
    {write : β → α} (hparse : ∀ b, parse (write b) = b)
    (hwrite : ∀ a, write (parse a) = a) :
    (codec.iso parse write).Preserves normal := by
  refine ⟨h.restores.iso hparse, fun {json b} hdecode => ?_⟩
  obtain ⟨a, ha, rfl⟩ :=
    map_eq_ok.mp (show (codec.decode json).map parse = .ok b from hdecode)
  change normal json (codec.encode (write (parse a)))
  rw [hwrite]
  exact h.rewrites ha

theorem text_decode_eq_ok {expected : String} {write : α → String}
    {parse : String → Except String α} {json : Json} {a : α}
    (h : (text expected write parse).decode json = .ok a) :
    ∃ s, json = .string s ∧ parse s = .ok a := by
  cases json with
  | string s => exact ⟨s, rfl, h⟩
  | _ => cases h

theorem int64_decode_eq_ok {json : Json} {n : Int64}
    (h : int64.decode json = .ok n) :
    json = .integer n.toInt := by
  cases json with
  | integer m =>
      change toInt64 (.integer m) = .ok n at h
      unfold toInt64 at h
      dsimp only at h
      split at h
      case h_1 i hfits =>
        cases h
        rw [int64?_eq_some.mp hfits]
      case h_2 => cases h
  | _ => cases h

theorem string_preserves :
    string.Preserves fun json => Rewriting.same (some json) := by
  refine ⟨string_restores, fun {json s} hdecode => ?_⟩
  obtain ⟨s, rfl, hparse⟩ := text_decode_eq_ok hdecode
  cases hparse
  rfl

theorem int64_preserves :
    int64.Preserves fun json => Rewriting.same (some json) :=
  ⟨int64_restores, fun hdecode => (int64_decode_eq_ok hdecode).symm⟩

theorem list_preserves (h : codec.Preserves normal) :
    codec.list.Preserves fun json => Rewriting.each normal (some json) := by
  refine ⟨list_restores h.restores, fun {json as} hdecode => ?_⟩
  obtain ⟨items, rfl, hitems⟩ := list_decode_eq_ok hdecode
  refine ⟨as.map codec.encode, rfl, List.forall₂_map_right_iff.mpr ?_⟩
  exact (mapM_eq_ok.mp hitems).imp fun _ _ => h.rewrites

/-- What is read as a field is written in this form, and also what stands in for
it. -/
structure FieldPreserves (f : Field) (form : String × Rewriting) : Prop where
  name : f.name = form.1
  codec : f.codec.Preserves fun json => form.2 (some json)
  standIn : ∀ {json value}, otherwise json f = some value →
    form.2 none (f.codec.encode value)

theorem required_preserves (name : String)
    (h : codec.Preserves fun json => r (some json)) :
    FieldPreserves (.required name codec) (name, r) := by
  refine ⟨rfl, h, fun {json value} hvalue => ?_⟩
  cases json <;> cases hvalue

theorem optional_preserves (name : String)
    (h : codec.Preserves fun json => r (some json))
    (hnull : ∀ a, codec.encode a ≠ .null) :
    FieldPreserves (.optional name codec) (name, .orNull r) := by
  refine ⟨rfl, ⟨option_restores h.restores hnull, fun {json a?} hdecode => ?_⟩,
    fun {json value} hvalue => ?_⟩
  · cases json with
    | null =>
        cases hdecode
        rfl
    | _ =>
        obtain ⟨a, ha, rfl⟩ :=
          map_eq_ok.mp (show (codec.decode _).map some = .ok a? from hdecode)
        exact h.rewrites ha
  · cases json <;> cases hvalue <;> rfl

theorem defaulted_preserves (name : String)
    (h : codec.Preserves fun json => r (some json))
    {value : α} (hvalue : r none (codec.encode value)) :
    FieldPreserves (.defaulted name codec value) (name, r) := by
  refine ⟨rfl, h, fun {json value'} hstandIn => ?_⟩
  cases json <;> cases hstandIn <;> exact hvalue

section Gives

variable {fs : List Field} {entry : String → Option Json}
    {standIn : (f : Field) → Option f.Carrier}
  {values : Values fs} {f : Field} {value : f.Carrier}

theorem Gives.of_holds (h : Gives entry standIn fs values)
    (hholds : Holds fs values f value) :
    (∃ json, entry f.name = some json ∧ f.codec.decode json = .ok value) ∨
      entry f.name = none ∧ standIn f = some value := by
  induction hholds with
  | @here f fs value rest =>
      cases hentry : entry f.name with
      | some json => exact .inl ⟨json, rfl, h.decode hentry⟩
      | none => exact .inr ⟨rfl, h.stands_in hentry⟩
  | there first _ ih => exact ih h.2

theorem exists_holds (hf : f ∈ fs) (values : Values fs) :
    ∃ value, Holds fs values f value := by
  induction fs with
  | nil => cases hf
  | cons g fs ih =>
      obtain ⟨first, rest⟩ := values
      rcases List.mem_cons.mp hf with rfl | hf
      · exact ⟨first, .here first rest⟩
      · obtain ⟨value, hholds⟩ := ih hf rest
        exact ⟨value, .there first hholds⟩

theorem Holds.mem_encodeFields (h : Holds fs values f value) :
    (f.name, f.codec.encode value) ∈ encodeFields fs values := by
  induction h with
  | here => exact List.mem_cons_self
  | there _ _ ih => exact List.mem_cons_of_mem _ ih

end Gives

theorem record_preserves (name : String) {fs : List Field}
    {forms : List (String × Rewriting)} (hdistinct : (fs.map Field.name).Nodup)
    (h : List.Forall₂ FieldPreserves fs forms) :
    (record name fs).Preserves (Rewritten fs forms) := by
  have hcodecs : ∀ f ∈ fs, f.codec.Restores := by
    intro f hf
    obtain ⟨form, -, hpreserves⟩ := exists_of_forall₂ h.flip hf
    exact hpreserves.codec.restores
  refine ⟨record_restores name hdistinct hcodecs,
    fun {json values} hdecode => ?_⟩
  have hgives := gives_of_record hdistinct hdecode
  have hencoded : ((encodeFields fs values).map Prod.fst).Nodup := by
    rwa [map_fst_encodeFields]
  obtain ⟨fields, hfields, hperm⟩ := ofFields_perm hencoded
  have hnames : fs.map Field.name = forms.map Prod.fst := by
    rw [← List.forall₂_eq_eq_eq, List.forall₂_map_left_iff,
      List.forall₂_map_right_iff]
    exact h.imp fun _ _ hpreserves => hpreserves.name
  refine ⟨fields, hfields, ?_, fun form hform => ?_⟩
  · rw [← hnames, ← map_fst_encodeFields values]
    exact hperm.map Prod.fst
  · obtain ⟨f, hf, hpreserves⟩ := exists_of_forall₂ h hform
    obtain ⟨value, hholds⟩ := exists_holds hf values
    refine ⟨f.codec.encode value, ?_, ?_⟩
    · rw [← hpreserves.name]
      exact hperm.mem_iff.mpr hholds.mem_encodeFields
    · rw [← hpreserves.name]
      rcases hgives.of_holds hholds
        with ⟨entry, hentry, hdecode⟩ | ⟨hentry, hstandIn⟩
      · rw [hentry]
        exact hpreserves.codec.rewrites hdecode
      · rw [hentry]
        exact hpreserves.standIn hstandIn

/-- Fields that a record does not have make no difference. -/
theorem record_known (name : String) (fs : List Field) (parse : Values fs → α)
    (write : α → Values fs) (fields : List (String × Json)) :
    ((record name fs).iso parse write).decode
        (.object (fields.filter fun field => field.1 ∈ fs.map Field.name)) =
      ((record name fs).iso parse write).decode (.object fields) := by
  change ((takeFields fs (nothing fs) (fields.filter _)).bind (complete fs)).map
    parse = ((takeFields fs (nothing fs) fields).bind (complete fs)).map parse
  rw [takeFields_known]

/-- A value that is written is read again, from JSON and from a document, in
whatever order the fields come.  A JSON value that is read is written in its
normal form and read as the same value again, and fields of other names make no
difference. -/
structure Faithful (codec : Codec α) (fs : List Field)
    (forms : List (String × Rewriting)) : Prop where
  decodes : ∀ a json, Reordered (codec.encode a) json →
    codec.decode json = .ok a
  reads : ∀ a json, Reordered (codec.encode a) json →
    Reader.document codec.read json.render = .ok a
  rewrites : ∀ json a, codec.decode json = .ok a →
    Rewritten fs forms json (codec.encode a) ∧
      codec.decode (codec.encode a) = .ok a ∧
      Reader.document codec.read (codec.encode a).render = .ok a
  drops : ∀ fields,
    codec.decode (.object (fields.filter fun field =>
      field.1 ∈ fs.map Field.name)) = codec.decode (.object fields)

theorem record_faithful (name : String) {fs : List Field}
    {forms : List (String × Rewriting)} {parse : Values fs → α}
    {write : α → Values fs}
    (h : ((record name fs).iso parse write).Preserves (Rewritten fs forms)) :
    ((record name fs).iso parse write).Faithful fs forms where
  decodes a json hjson := (h.restores a json hjson).decode
  reads a json hjson := Reader.document_eq_ok (h.restores a json hjson).read
  rewrites json a hdecode := by
    have hreads := h.restores a _ (.same _)
    exact ⟨h.rewrites hdecode, hreads.decode, Reader.document_eq_ok hreads.read⟩
  drops fields := record_known name fs parse write fields

end Codec

end Json

namespace Ident

theorem ofValue_value (i : Ident) : ofValue i.value = i := by
  obtain ⟨_ | id⟩ := i
  · rfl
  · unfold ofValue value EntityId.ofValue?
    rw [dif_pos id.positive]

theorem toInt_value_ofValue (n : Int64) :
    (ofValue n).value.toInt = if 0 < n.toInt then n.toInt else -1 := by
  have hpositive : 0 < n ↔ 0 < n.toInt := Int64.lt_iff_toInt_lt
  unfold ofValue value EntityId.ofValue?
  by_cases h : 0 < n
  · rw [dif_pos h, if_pos (hpositive.mp h)]
  · rw [dif_neg h, if_neg (mt hpositive.mpr h)]
    rfl

theorem codec_preserves :
    codec.Preserves fun json => Rewriting.slot (some json) := by
  refine ⟨Codec.int64_restores.iso ofValue_value, fun {json i} hdecode => ?_⟩
  obtain ⟨n, hn, rfl⟩ := map_eq_ok.mp
    (show (Codec.int64.decode json).map ofValue = .ok i from hdecode)
  rw [Codec.int64_decode_eq_ok hn]
  exact congrArg Json.integer (toInt_value_ofValue n)

end Ident

namespace EntityId

theorem codec_preserves :
    codec.Preserves fun json => Rewriting.identifier (some json) := by
  refine ⟨Codec.int64_restores.refine fun id => ?_, fun {json id} hdecode => ?_⟩
  · rw [ofValue_value]
  · obtain ⟨n, hn, hparse⟩ := bind_eq_ok.mp
      (show (Codec.int64.decode json).bind _ = .ok id from hdecode)
    have hvalue : id.value = n := by
      split at hparse
      case h_1 id' hid =>
        cases hparse
        exact value_of_ofValue hid
      case h_2 => cases hparse
    rw [Codec.int64_decode_eq_ok hn, ← hvalue]
    exact ⟨Int64.lt_iff_toInt_lt.mp id.positive, rfl⟩

end EntityId

namespace Time.Instant

theorem codec_preserves :
    codec.Preserves fun json => Rewriting.instant (some json) := by
  refine ⟨Codec.text_restores _ fun t => ?_, fun {json t} hdecode => ?_⟩
  · rw [ofRfc3339_toRfc3339]
  · obtain ⟨s, rfl, hparse⟩ := Codec.text_decode_eq_ok hdecode
    refine ⟨t, ?_, rfl⟩
    split at hparse
    case h_1 t' ht =>
      cases hparse
      exact ht
    case h_2 => cases hparse

end Time.Instant

theorem identField_preserves : Codec.FieldPreserves identField ("id", .slot) :=
  Codec.defaulted_preserves "id" Ident.codec_preserves rfl

open Codec

namespace Alias

def forms : List (String × Rewriting) :=
  [("id", .slot), ("name", .same), ("email", .same)]

theorem fields_preserve : List.Forall₂ FieldPreserves fields forms := by
  refine .cons identField_preserves ?_
  refine .cons (required_preserves "name" string_preserves) ?_
  exact .cons (required_preserves "email" string_preserves) .nil

theorem codec_preserves : codec.Preserves (Rewritten fields forms) :=
  (record_preserves "Alias" (by decide) fields_preserve).iso (fun _ => rfl)
    fun _ => rfl

end Alias

namespace Identity

def forms : List (String × Rewriting) :=
  [("id", .slot), ("name", .same), ("primary_email", .orNull .same),
    ("aliases", .each (Rewritten Alias.fields Alias.forms))]

theorem fields_preserve : List.Forall₂ FieldPreserves fields forms := by
  refine .cons identField_preserves ?_
  refine .cons (required_preserves "name" string_preserves) ?_
  refine .cons (optional_preserves "primary_email" string_preserves nofun) ?_
  have haliases := list_preserves Alias.codec_preserves
  exact .cons (defaulted_preserves "aliases" haliases rfl) .nil

theorem codec_preserves : codec.Preserves (Rewritten fields forms) :=
  (record_preserves "Identity" (by decide) fields_preserve).iso (fun _ => rfl)
    fun _ => rfl

end Identity

namespace Commit

def forms : List (String × Rewriting) :=
  [("id", .slot), ("revision", .same), ("author_id", .orNull .identifier),
    ("branch_id", .orNull .identifier), ("committed_at", .instant),
    ("message", .same), ("lines_added", .same), ("lines_removed", .same)]

theorem fields_preserve : List.Forall₂ FieldPreserves fields forms := by
  refine .cons identField_preserves ?_
  refine .cons (required_preserves "revision" string_preserves) ?_
  refine .cons (optional_preserves "author_id" EntityId.codec_preserves nofun)
    ?_
  refine .cons (optional_preserves "branch_id" EntityId.codec_preserves nofun)
    ?_
  refine .cons (required_preserves "committed_at" Instant.codec_preserves) ?_
  refine .cons (required_preserves "message" string_preserves) ?_
  refine .cons (required_preserves "lines_added" int64_preserves) ?_
  exact .cons (required_preserves "lines_removed" int64_preserves) .nil

theorem codec_preserves : codec.Preserves (Rewritten fields forms) :=
  (record_preserves "Commit" (by decide) fields_preserve).iso (fun _ => rfl)
    fun _ => rfl

end Commit

namespace Branch

def forms : List (String × Rewriting) :=
  [("id", .slot), ("name", .same), ("created_at", .instant),
    ("merged_at", .orNull .instant)]

theorem fields_preserve : List.Forall₂ FieldPreserves fields forms := by
  refine .cons identField_preserves ?_
  refine .cons (required_preserves "name" string_preserves) ?_
  refine .cons (required_preserves "created_at" Instant.codec_preserves) ?_
  have hwritten : ∀ t, Instant.codec.encode t ≠ .null :=
    text_encode_ne_null _ _ _
  exact .cons (optional_preserves "merged_at" Instant.codec_preserves hwritten)
    .nil

theorem codec_preserves : codec.Preserves (Rewritten fields forms) :=
  (record_preserves "Branch" (by decide) fields_preserve).iso (fun _ => rfl)
    fun _ => rfl

end Branch

/-- Every record survives its JSON form.  What has been read is written without
unknown fields, with null for what was left out, and with the sentinel for a
number that is no identifier. -/
theorem records_faithful :
    Commit.codec.Faithful Commit.fields Commit.forms ∧
      Branch.codec.Faithful Branch.fields Branch.forms ∧
      Alias.codec.Faithful Alias.fields Alias.forms ∧
      Identity.codec.Faithful Identity.fields Identity.forms := by
  have hcommit := record_faithful "Commit" Commit.codec_preserves
  have hbranch := record_faithful "Branch" Branch.codec_preserves
  have halias := record_faithful "Alias" Alias.codec_preserves
  have hidentity := record_faithful "Identity" Identity.codec_preserves
  exact ⟨hcommit, hbranch, halias, hidentity⟩

/-- An alias comes back with its fields in their declared order, and from a
document with a number that is no identifier and a field that aliases do not
have. -/
theorem alias_survives :
    let a : Alias := { name := "ada", email := "a@b" }
    let declared : Json :=
      .object [("id", .integer (-1)), ("name", .string "ada"),
        ("email", .string "a@b")]
    let given : Json := .object
      [("email", .string "a@b"), ("id", .integer (-7)), ("name", .string "ada"),
        ("nick", .null)]
    (Reordered (Alias.codec.encode a) declared ∧
      Alias.codec.decode declared = .ok a ∧
      Reader.document Alias.codec.read declared.render = .ok a) ∧
      Alias.codec.decode given = .ok a ∧
      Rewritten Alias.fields Alias.forms given (Alias.codec.encode a) := by
  intro a declared given
  have hdeclared : Reordered (Alias.codec.encode a) declared := by
    change Reordered
      (.object [("email", .string "a@b"), ("id", .integer (-1)),
        ("name", .string "ada")]) declared
    refine .object ?_ rfl (List.forall₂_same.mpr fun json _ => .same json)
    exact (List.Perm.swap ..).trans ((List.Perm.swap ..).cons _)
  have hgiven : Alias.codec.decode given = .ok a := by rfl
  obtain ⟨-, -, halias, -⟩ := records_faithful
  exact ⟨⟨hdeclared, halias.decodes a declared hdeclared,
    halias.reads a declared hdeclared⟩, hgiven,
    (halias.rewrites given a hgiven).1⟩

end Annals
