import Checkout.Json.Parser
import Checkout.Json.Printer
import Checkout.Timestamp.Parser
import Checkout.Error

/-!
# Administrative entries

What an administrative area records about its directory, and the JSON document it is stored in.
-/

namespace Checkout

/-- The record of a versioned directory. -/
structure Entries where
  /-- The repository URL the directory tracks. -/
  url : String
  /-- The URL of the repository's root. -/
  repository : Option String
  /-- The repository's identifier. -/
  uuid : Option String
  /-- The base revision. -/
  revision : Nat
  /-- When the area was created. -/
  createdAt : Timestamp
  deriving DecidableEq, Repr

namespace Entries

/-- The record as data; what is unknown is left out. -/
def data (entries : Entries) : Data :=
  .record
    ([("url", .text entries.url)] ++ Data.optionalMember "repos" entries.repository ++
      Data.optionalMember "uuid" entries.uuid ++
      [("revision", .integer entries.revision),
        ("created_at", .text entries.createdAt.render)])

/-- The names of its members. -/
def names : List String :=
  ["url", "repos", "uuid", "revision", "created_at"]

/-- The record that data describes. -/
def ofData? (data : Data) : Option Entries := do
  match ← data.fields? names true with
  | [url, repository, uuid, revision, createdAt] =>
      return {
        url := ← Data.required? Data.text? url
        repository := ← Data.optional? Data.text? repository
        uuid := ← Data.optional? Data.text? uuid
        revision := ← Data.required? (Data.natural? UInt64.size) revision
        createdAt := ← Data.required? (fun value => value.text?.bind Timestamp.parse?) createdAt }
  | _ => none

/-- The document of a record. -/
def encode (entries : Entries) : ByteArray :=
  (Json.render entries.data).toUTF8

/-- The record in a document. -/
def decode (document : ByteArray) : Except Error Entries :=
  match (Json.parseKnown? names ⟨document.data.toList⟩).bind ofData? with
  | some entries => .ok entries
  | none => .error .malformedJson

end Entries

end Checkout
