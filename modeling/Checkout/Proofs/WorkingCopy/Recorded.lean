import Checkout.Proofs.Json.Document
import Checkout.Proofs.Timestamp.Rendered
import Checkout.Proofs.WorkingCopy.Ensuring

/-!
# Records read as they were written

A record is read back from its document to the nanosecond, whatever texts it holds. So a directory that was made
versioned has exactly the record it was given, unless its path leads through a link that the record replaced; and
as long as the record is there, the directory is made versioned again for the same URL only, which changes
nothing.
-/

namespace Checkout

/-! ## Documents of records -/

namespace Data

theorem required?_some {α : Type} (read : Data → Option α) (value : Data) :
    required? read (some value) = read value := rfl

theorem text?_text (value : String) : text? (.text value) = some value := rfl

theorem natural?_integer {value bound : Nat} (small : value < bound) :
    natural? bound (.integer value) = some value := by
  have bounded : (0 : Int) ≤ value ∧ (value : Int) < bound :=
    ⟨Int.natCast_nonneg value, Int.ofNat_lt.mpr small⟩
  rw [natural?, if_pos bounded, Int.toNat_natCast]

end Data

namespace Entries

variable {entries : Entries}

def members (entries : Entries) : List (String × Data) :=
  [("url", .text entries.url)] ++ Data.optionalMember "repos" entries.repository ++
    Data.optionalMember "uuid" entries.uuid ++
    [("revision", .integer entries.revision), ("created_at", .text entries.createdAt.render)]

theorem data_eq (entries : Entries) : entries.data = .record entries.members := rfl

theorem keys_members (entries : Entries) : (entries.members.map Prod.fst).Sublist names := by
  simp only [members, List.map_append]
  exact (((List.Sublist.refl _).append (Data.keys_optionalMember _ _)).append
    (Data.keys_optionalMember _ _)).append (.refl _)

theorem exact_optionalMember {name : String} {value : Option String} {member : String × Data}
    (member_mem : member ∈ Data.optionalMember name value) : Json.Exact member.2 := by
  rw [Data.optionalMember, Option.mem_toList, Option.map_eq_some_iff] at member_mem
  obtain ⟨text, -, rfl⟩ := member_mem
  exact .text text

theorem exact_members (entries : Entries) : ∀ member ∈ entries.members, Json.Exact member.2 := by
  intro member member_mem
  simp only [members, List.mem_append, List.mem_cons, List.not_mem_nil, or_false] at member_mem
  rcases member_mem with ((rfl | repository) | uuid) | rfl | rfl
  · exact .text _
  · exact exact_optionalMember repository
  · exact exact_optionalMember uuid
  · exact .integer _
  · exact .text _

theorem ofData?_data (dated : entries.createdAt.valid = true) (small : entries.revision < UInt64.size) :
    ofData? entries.data = some entries := by
  have values : (names.map fun name => entries.members.lookup name) =
      [some (.text entries.url), entries.repository.map .text, entries.uuid.map .text,
        some (.integer entries.revision), some (.text entries.createdAt.render)] := by
    simp [names, members, List.lookup_append, Data.lookup_optionalMember, List.lookup_cons]
  rw [ofData?, data_eq, Data.fields?_record ((keys_members entries).nodup (by decide)), values]
  simp only [Option.bind_eq_bind, Option.bind_some]
  rw [Data.required?_some, Data.text?_text, Option.bind_some, Data.optional?_text?, Option.bind_some,
    Data.optional?_text?, Option.bind_some, Data.required?_some, Data.natural?_integer small, Option.bind_some,
    Data.required?_some, Data.text?_text, Option.bind_some, Timestamp.parse?_render dated, Option.bind_some]
  rfl

/-- A record is read from its document if its revision fits into 64 bits and it was made at some time. -/
theorem decode_encode (dated : entries.createdAt.valid = true) (small : entries.revision < UInt64.size) :
    decode entries.encode = .ok entries := by
  have read : Json.parseKnown? names (Json.render entries.data) = some entries.data :=
    Json.parseKnown?_render (exact_members entries) fun member member_mem =>
      (keys_members entries).subset (List.mem_map_of_mem member_mem)
  have document_eq : (⟨entries.encode.data.toList⟩ : OsText) = Json.render entries.data := rfl
  simp only [decode, document_eq, read, Option.bind_some, ofData?_data dated small]

end Entries

namespace FileSystem

variable {files : FileSystem} {path : Path} {bytes : ByteArray} {entries : Entries}

theorem isFile_of_read (read : files.read path = .ok bytes) : files.isFile path = true := by
  rw [FileSystem.read] at read
  rw [isFile]
  cases found : files.entry true path with
  | error failure => simp [found, bind, Except.bind] at read
  | ok there =>
      obtain ⟨location, node⟩ := there
      cases node <;> simp_all [bind, Except.bind]

theorem isVersioned_of_read (read : files.read (Area.entriesFile path) = .ok bytes) :
    files.isVersioned path = true :=
  isFile_of_read read

theorem entries_of_read (dated : entries.createdAt.valid = true) (small : entries.revision < UInt64.size)
    (read : files.read (Area.entriesFile path) = .ok entries.encode) : files.entries path = .ok entries := by
  simp only [FileSystem.entries, isVersioned_of_read read, read, Entries.decode_encode dated small]
  rfl

end FileSystem

namespace Area

variable {files after : FileSystem} {now : Timestamp} {path : Path} {uuid : Option String} {url : String}
  {repository : Option String} {revision : Nat} {entries : Entries}

/-! ## What is there after a directory was made versioned -/

/--
The way to the record of a directory, once the directories above it are made, does not lead through what stands in
the record's own place. Only a link there could be part of it.
-/
def KeepsItsWay (files : FileSystem) (path : Path) : Prop :=
  ∀ made place, FileSystem.createDirectories (directory path) files = .ok () made →
    made.place (entriesFile path) = .ok place →
    (made.erase place.location).place (entriesFile path) = .ok place

theorem keepsItsWay_iff {made : FileSystem} {place : FileSystem.Place}
    (created : FileSystem.createDirectories (directory path) files = .ok () made)
    (placed : made.place (entriesFile path) = .ok place) :
    KeepsItsWay files path ↔ (made.erase place.location).place (entriesFile path) = .ok place := by
  constructor
  · intro keeps
    exact keeps made place created placed
  · intro kept made' place' created' placed'
    rw [created, EStateM.Result.ok.injEq] at created'
    obtain rfl := created'.2
    rw [placed, Except.ok.injEq] at placed'
    rwa [← placed']

instance (files : FileSystem) (path : Path) : Decidable (KeepsItsWay files path) :=
  match created : FileSystem.createDirectories (directory path) files with
  | .error _ _ => isTrue fun _ _ isMade => by simp [created] at isMade
  | .ok () made =>
      match placed : made.place (entriesFile path) with
      | .error _ => isTrue fun _ _ isMade isPlaced => by simp_all
      | .ok _ => decidable_of_iff _ (keepsItsWay_iff created placed).symm

theorem read_of_ensure (keeps : KeepsItsWay files path)
    (created : ensure now path uuid url repository revision files = .ok true after) :
    after.read (entriesFile path) = .ok (record now uuid url repository revision).encode := by
  obtain ⟨-, -, made, isMade, place, placed, -, rfl⟩ := ensure_eq_ok_true.mp created
  have kept := keeps made place isMade placed
  have shape := place_entriesFile placed
  exact FileSystem.read_putFile (by rw [shape]; simp) (by rw [shape]) kept _

theorem not_isVersioned_of_ensure (leaves : ¬KeepsItsWay files path)
    (created : ensure now path uuid url repository revision files = .ok true after) :
    after.isVersioned path = false := by
  obtain ⟨-, -, made, isMade, place, placed, -, rfl⟩ := ensure_eq_ok_true.mp created
  rw [keepsItsWay_iff isMade placed] at leaves
  rw [← Bool.not_eq_true]
  intro versioned
  have shape := place_entriesFile placed
  obtain ⟨location, identity, found⟩ := FileSystem.isFile_iff.mp versioned
  exact leaves (FileSystem.place_erase_of_entry placed (by rw [shape]; simp) (by rw [shape]) found)

/-! ## Directories that have a record -/

/-- A directory that has a record is made versioned again if the URL is the recorded one, and is refused
otherwise; either way nothing changes. -/
theorem ensure_of_entries (versioned : files.isVersioned path = true) (recorded : files.entries path = .ok entries) :
    (Admits url repository ∧ trimEnd '/' url = entries.url →
      ensure now path uuid url repository revision files = .ok false files) ∧
    (¬(Admits url repository ∧ trimEnd '/' url = entries.url) → ∃ message,
      ensure now path uuid url repository revision files = .error (.invalidArgument message) files) := by
  constructor
  · rintro ⟨admitted, same⟩
    simp only [ensure_of_admits admitted, if_pos versioned, recorded, if_pos same.symm]
  · intro refused
    by_cases admitted : Admits url repository
    · have apart : ¬entries.url = trimEnd '/' url := fun same => refused ⟨admitted, same.symm⟩
      exact ⟨_, by simp only [ensure_of_admits admitted, if_pos versioned, recorded, if_neg apart]; rfl⟩
    · exact ensure_of_not_admits files now path uuid revision admitted

theorem eq_of_ensure_invalidArgument {message : String}
    (failed : ensure now path uuid url repository revision files = .error (.invalidArgument message) after) :
    after = files := by
  by_cases admitted : Admits url repository
  · rw [ensure_of_admits admitted] at failed
    split at failed
    · split at failed
      · exact (EStateM.Result.error.inj failed).2.symm
      · split at failed
        · simp at failed
        · exact (EStateM.Result.error.inj failed).2.symm
    · split at failed
      · simp at failed
      · split at failed <;> simp at failed
  · obtain ⟨_, refused⟩ := ensure_of_not_admits files now path uuid revision admitted
    rw [refused] at failed
    exact (EStateM.Result.error.inj failed).2.symm

/--
A directory that was made versioned has the record it was given, exactly if its path does not lead through a link
that the record replaced. As long as the record is read at a path, the directory there is made versioned again for
the recorded URL only, whatever else is asked for, which changes nothing; and whenever an argument is refused,
nothing changes.
-/
theorem entries_of_ensure (files : FileSystem) (now : Timestamp) (path : Path) (uuid : Option String) (url : String)
    (repository : Option String) (revision : Nat) (dated : now.valid = true) (small : revision < UInt64.size) :
    (∀ after, ensure now path uuid url repository revision files = .ok true after →
      (KeepsItsWay files path →
        after.read (entriesFile path) = .ok (record now uuid url repository revision).encode ∧
        after.entries path = .ok (record now uuid url repository revision)) ∧
      (¬KeepsItsWay files path → after.entries path = .error (.notWorkingCopy path))) ∧
    (∀ (later : FileSystem) (place : Path),
      later.read (entriesFile place) = .ok (record now uuid url repository revision).encode →
      ∀ (time : Timestamp) (identifier : Option String) (address : String) (root : Option String) (base : Nat),
        (Admits address root ∧ trimEnd '/' address = trimEnd '/' url →
          ensure time place identifier address root base later = .ok false later) ∧
        (¬(Admits address root ∧ trimEnd '/' address = trimEnd '/' url) → ∃ message,
          ensure time place identifier address root base later = .error (.invalidArgument message) later)) ∧
    ∀ message after,
      ensure now path uuid url repository revision files = .error (.invalidArgument message) after →
        after = files := by
  refine ⟨?_, ?_, fun _ _ => eq_of_ensure_invalidArgument⟩
  · intro after created
    constructor
    · intro keeps
      have read := read_of_ensure keeps created
      exact ⟨read, FileSystem.entries_of_read dated small read⟩
    · intro leaves
      simp [FileSystem.entries, not_isVersioned_of_ensure leaves created]
  · intro later place read time identifier address root base
    have recorded : later.entries place = .ok (record now uuid url repository revision) :=
      FileSystem.entries_of_read dated small read
    exact ensure_of_entries (FileSystem.isVersioned_of_read read) recorded

/-- A record whose texts need to be escaped is read back from a new directory, and is found there again. -/
theorem entries_of_ensure_awkward :
    KeepsItsWay Settings.bareHome ⟨"wc"⟩ ∧ ∃ after,
      ensure ⟨⟨2024, 2, 29⟩, 23, 59, 59, 120000000⟩ ⟨"wc"⟩ (some "\"\x07\\\u2028") "svn://h\u00f6st/\"repo\"//" none
        18446744073709551615 Settings.bareHome = .ok true after ∧
      after.entries ⟨"wc"⟩ = .ok
        ⟨"svn://h\u00f6st/\"repo\"", none, some "\"\x07\\\u2028", 18446744073709551615,
          ⟨⟨2024, 2, 29⟩, 23, 59, 59, 120000000⟩⟩ ∧
      ensure ⟨⟨2024, 3, 1⟩, 0, 0, 0, 0⟩ ⟨"wc"⟩ none "svn://h\u00f6st/\"repo\"/" none 8 after = .ok false after ∧
      ∃ message, ensure ⟨⟨2024, 3, 1⟩, 0, 0, 0, 0⟩ ⟨"wc"⟩ none "svn://host/repo" none 8 after =
        .error (.invalidArgument message) after := by
  obtain ⟨created, ran, isCreated⟩ := ok_of_yields
    (ensure ⟨⟨2024, 2, 29⟩, 23, 59, 59, 120000000⟩ ⟨"wc"⟩ (some "\"\x07\\\u2028") "svn://h\u00f6st/\"repo\"//" none
      18446744073709551615) Settings.bareHome id (by decide +kernel)
  obtain rfl : created = true := isCreated
  have keeps : KeepsItsWay Settings.bareHome ⟨"wc"⟩ := by decide +kernel
  obtain ⟨recorded, again, -⟩ := entries_of_ensure Settings.bareHome ⟨⟨2024, 2, 29⟩, 23, 59, 59, 120000000⟩ ⟨"wc"⟩
    (some "\"\x07\\\u2028") "svn://h\u00f6st/\"repo\"//" none 18446744073709551615 (by decide) (by decide)
  have trimmed : trimEnd '/' "svn://h\u00f6st/\"repo\"//" = "svn://h\u00f6st/\"repo\"" := by decide
  have same : trimEnd '/' "svn://h\u00f6st/\"repo\"/" = "svn://h\u00f6st/\"repo\"" := by decide
  have apart : trimEnd '/' "svn://host/repo" = "svn://host/repo" := by decide
  obtain ⟨read, entries_eq⟩ := (recorded _ ran).1 keeps
  refine ⟨keeps, _, ran, ?_, ?_, ?_⟩
  · rw [entries_eq, record, trimmed]
    rfl
  · refine (again _ ⟨"wc"⟩ read _ _ _ _ _).1 ⟨⟨?_, by simp⟩, ?_⟩
    · rw [same]
      decide
    · rw [same, trimmed]
  · refine (again _ ⟨"wc"⟩ read _ _ _ _ _).2 ?_
    rw [apart, trimmed]
    rintro ⟨-, impossible⟩
    exact absurd impossible (by decide)

/-- A directory whose administrative directory holds a link to the directory itself for its record. -/
def selfRecorded : FileSystem where
  nodes := [(["wc"], .directory), (["wc", ".svn"], .directory), (["wc", ".svn", "entries"], .link "..")]
  contents := []
  nextFile := 1
  held := []
  current := []

/-- A record that replaces the link its path leads through is not found there. -/
theorem not_entries_selfRecorded : ∃ after,
    ensure ⟨⟨2024, 2, 29⟩, 12, 0, 0, 0⟩ ⟨"wc/.svn/entries"⟩ none "svn://host/repo" none 0 selfRecorded =
      .ok true after ∧
    after.entries ⟨"wc/.svn/entries"⟩ = .error (.notWorkingCopy ⟨"wc/.svn/entries"⟩) := by
  obtain ⟨created, ran, isCreated⟩ := ok_of_yields
    (ensure ⟨⟨2024, 2, 29⟩, 12, 0, 0, 0⟩ ⟨"wc/.svn/entries"⟩ none "svn://host/repo" none 0)
    selfRecorded id (by decide +kernel)
  obtain rfl : created = true := isCreated
  have leaves : ¬KeepsItsWay selfRecorded ⟨"wc/.svn/entries"⟩ := by decide +kernel
  exact ⟨_, ran, by simp [FileSystem.entries, not_isVersioned_of_ensure leaves ran]⟩

end Area

end Checkout
