import Annals.Json.Codec
import Annals.Record.Branch
import Annals.Record.Commit
import Annals.Record.Identity

namespace Annals

open Annals.Json Annals.Time

namespace EntityId

def codec : Codec EntityId :=
  Codec.int64.refine
    (fun n => match EntityId.ofValue n with
      | .ok id => .ok id
      | .error e => .error e.message)
    EntityId.value

end EntityId

namespace Ident

/-- Slots as numbers, where any number that is no identifier stands for an empty
one. -/
def codec : Codec Ident := Codec.int64.iso Ident.ofValue Ident.value

end Ident

namespace Time.Instant

def codec : Codec Instant :=
  Codec.text "an RFC 3339 formatted date and time string" Instant.toRfc3339
    fun s =>
      match Instant.ofRfc3339 s with
      | .ok t => .ok t
      | .error e => .error e.message

end Time.Instant

def identField : Field := .defaulted "id" Ident.codec {}

namespace Alias

def fields : List Field :=
  [identField, .required "name" Codec.string, .required "email" Codec.string]

def codec : Codec Alias :=
  (Codec.record "Alias" fields).iso
    (fun (ident, name, email, ()) => { ident, name, email })
    (fun a => (a.ident, a.name, a.email, ()))

end Alias

namespace Identity

def fields : List Field :=
  [identField, .required "name" Codec.string,
    .optional "primary_email" Codec.string,
    .defaulted "aliases" Alias.codec.list []]

def codec : Codec Identity :=
  (Codec.record "Identity" fields).iso
    (fun (ident, name, primaryEmail, aliases, ()) =>
      { ident, name, primaryEmail, aliases })
      (fun i => (i.ident, i.name, i.primaryEmail, i.aliases, ()))

end Identity

namespace Commit

def fields : List Field :=
  [identField, .required "revision" Codec.string,
    .optional "author_id" EntityId.codec, .optional "branch_id" EntityId.codec,
    .required "committed_at" Instant.codec, .required "message" Codec.string,
    .required "lines_added" Codec.int64, .required "lines_removed" Codec.int64]

def codec : Codec Commit :=
  (Codec.record "Commit" fields).iso
    (fun (ident, revision, authorId, branchId, committedAt, message,
        linesAdded, linesRemoved, ()) =>
      { ident, revision, authorId, branchId, committedAt, message, linesAdded,
        linesRemoved })
    (fun c => (c.ident, c.revision, c.authorId, c.branchId, c.committedAt,
      c.message, c.linesAdded, c.linesRemoved, ()))

end Commit

namespace Branch

def fields : List Field :=
  [identField, .required "name" Codec.string,
    .required "created_at" Instant.codec, .optional "merged_at" Instant.codec]

def codec : Codec Branch :=
  (Codec.record "Branch" fields).iso
    (fun (ident, name, createdAt, mergedAt, ()) =>
      { ident, name, createdAt, mergedAt })
      (fun b => (b.ident, b.name, b.createdAt, b.mergedAt, ()))

end Branch

end Annals
