import Checkout.Proofs.FileSystem.Directories
import Checkout.Proofs.Settings.Saved

/-!
# Making a directory versioned

What making a directory versioned comes to: the arguments are refused before anything is touched, an existing
record is compared, or a new one is put in its place. The URL that is recorded starts with the text of the root
that is recorded; whether it lies inside the root depends on what stands behind this text.
-/

namespace Checkout

/-! ## Trimmed texts -/

theorem getLast?_trimEnd (mark : Char) (text : String) :
    (trimEnd mark text).toList.getLast? ≠ some mark := by
  rw [trimEnd, String.toList_ofList, List.getLast?_reverse]
  intro first
  have kept := List.head?_dropWhile_not (· == mark) text.toList.reverse
  rw [first] at kept
  simp at kept

namespace Area

variable {files made after : FileSystem} {now : Timestamp} {path : Path} {uuid repository : Option String}
  {url root : String} {revision : Nat} {place : FileSystem.Place}

/-! ## Outcomes -/

/-- The record that a directory is given. -/
def record (now : Timestamp) (uuid : Option String) (url : String) (repository : Option String)
    (revision : Nat) : Entries :=
  { url := trimEnd '/' url, repository := repository.map (trimEnd '/'), uuid, revision, createdAt := now }

/-- Whether a URL can be recorded, with the root of its repository. -/
def Admits (url : String) (repository : Option String) : Prop :=
  trimEnd '/' url ≠ "" ∧ ∀ root, repository = some root → belongs (trimEnd '/' url) root = true

/-- Arguments that cannot be recorded are refused, and nothing is touched. -/
theorem ensure_of_not_admits (files : FileSystem) (now : Timestamp) (path : Path) (uuid : Option String)
    (revision : Nat) (refused : ¬Admits url repository) :
    ∃ message, ensure now path uuid url repository revision files =
      .error (.invalidArgument message) files := by
  by_cases empty : trimEnd '/' url = ""
  · exact ⟨"url cannot be empty", by simp [ensure, empty]⟩
  · cases repository with
    | none => exact absurd ⟨empty, by simp⟩ refused
    | some root =>
        have outside : belongs (trimEnd '/' url) root = false := by
          rw [← Bool.not_eq_true]
          intro inside
          exact refused ⟨empty, by simpa using inside⟩
        exact ⟨_, by simp [ensure, empty, outside]; rfl⟩

/-- Arguments that can be recorded are compared with an existing record, or a new one is written. -/
theorem ensure_of_admits (admitted : Admits url repository) :
    ensure now path uuid url repository revision files =
      if files.isVersioned path then
        match files.entries path with
        | .error error => .error error files
        | .ok existing =>
            if existing.url = trimEnd '/' url then .ok false files
            else .error (.invalidArgument
              ("'" ++ path.shown ++ "' is already a working copy for '" ++ existing.url ++ "'")) files
      else match FileSystem.createDirectories (directory path) files with
        | .error failure made => .error (.io failure) made
        | .ok _ made =>
            match FileSystem.writeWhole (entriesFile path)
              (record now uuid url repository revision).encode made with
            | .error failure after => .error (.io failure) after
            | .ok _ after => .ok true after := by
  obtain ⟨nonempty, inside⟩ := admitted
  have unrefused : ensure now path uuid url repository revision files =
      (do
        if (← get).isVersioned path then
          let existing ← FileAction.ofLook fun files => files.entries path
          if existing.url ≠ trimEnd '/' url then
            throw (.invalidArgument
              ("'" ++ path.shown ++ "' is already a working copy for '" ++ existing.url ++ "'"))
          return false
        (FileSystem.createDirectories (directory path)).run
        (FileSystem.writeWhole (entriesFile path)
          (record now uuid url repository revision).encode).run
        return true : FileAction Bool) files := by
    cases repository with
    | none => simp [ensure, nonempty, record]
    | some root => simp [ensure, nonempty, inside root rfl, record]
  rw [unrefused]
  simp only [Action.bind_apply, Action.get_apply]
  by_cases versioned : files.isVersioned path = true
  · simp only [if_pos versioned, Action.bind_apply, FileAction.ofLook]
    cases files.entries path with
    | error error => rfl
    | ok existing =>
        by_cases same : existing.url = trimEnd '/' url
        · simp [same]
        · simp [same]
  · simp only [if_neg versioned, Action.bind_apply, Action.pure_apply, FileChange.run]
    cases FileSystem.createDirectories (directory path) files with
    | error failure made => rfl
    | ok _ made =>
        simp only
        cases FileSystem.writeWhole (entriesFile path) (record now uuid url repository revision).encode made <;>
          rfl

/-! ## Where a record is put -/

/-- The place of a record is called `entries`. -/
theorem place_entriesFile (placed : files.place (entriesFile path) = .ok place) :
    place = ⟨place.directory, some ("entries" : OsText), false⟩ := by
  obtain ⟨usable, reached, slash_eq, -⟩ := FileSystem.place_ok placed
  have slash : (entriesFile path).text.bytes.getLast? ≠ some OsText.slash :=
    Path.getLast?_text_join (directory path) properName_entries
  have names_eq : (entriesFile path).names = (directory path).names ++ [("entries" : OsText)] :=
    Path.names_join (directory path) properName_entries
  have named : ¬(("entries" : OsText) = ("." : OsText) ∨ ("entries" : OsText) = ("..": OsText)) := by decide
  have short : ¬FileSystem.maxName < ("entries" : OsText).bytes.length := by decide
  rw [usable.place_apply reached, names_eq] at placed
  simp only [List.getLast?_concat, if_neg named, if_neg short, Except.ok.injEq] at placed
  rw [← placed]
  simp [slash]

theorem components_directory (path : Path) : (directory path).components ≠ [] := by
  intro none
  have last := Path.getLast?_body_join path properName_directoryName
  have named : Path.component? directoryName = some (.name directoryName) := by decide
  rw [directory, Path.components] at none
  split at none
  · simp at none
  · split at none
    · simp at none
    · rw [List.filterMap_eq_nil_iff] at none
      rw [none directoryName (List.mem_of_getLast? last)] at named
      simp at named

/-- The directories of a record are made once. -/
theorem writeWhole_entriesFile (created : FileSystem.createDirectories (directory path) files = .ok () made)
    (bytes : ByteArray) : FileSystem.writeWhole (entriesFile path) bytes made =
      FileSystem.replaceFile (entriesFile path) bytes made := by
  obtain ⟨location, found⟩ := FileSystem.entry_createDirectories (components_directory path) created
  have parent_eq : (entriesFile path).parent? = some (directory path) :=
    Path.parent?_join_join properName_directoryName properName_entries
  have nonempty : (directory path).text ≠ "" := Path.text_join_ne_empty path properName_directoryName
  simp only [FileSystem.writeWhole, parent_eq, if_neg nonempty, Action.bind_apply,
    FileSystem.createDirectories_of_entry found]

theorem replaceFile_entriesFile {bytes : ByteArray} :
    FileSystem.replaceFile (entriesFile path) bytes made = .ok () after ↔ ∃ place,
      made.place (entriesFile path) = .ok place ∧ made.node? place.location ≠ some .directory ∧
      after = made.putFile place.location bytes := by
  rw [FileSystem.replaceFile_eq_ok]
  refine exists_congr fun place => and_congr_right fun placed => ?_
  rw [place_entriesFile placed]
  simp

/-- What a new record comes to: the directories above it are made, and it takes its place there, unless
there is a directory. -/
theorem ensure_eq_ok_true : ensure now path uuid url repository revision files = .ok true after ↔
    Admits url repository ∧ files.isVersioned path = false ∧ ∃ made,
      FileSystem.createDirectories (directory path) files = .ok () made ∧ ∃ place,
        made.place (entriesFile path) = .ok place ∧ made.node? place.location ≠ some .directory ∧
        after = made.putFile place.location (record now uuid url repository revision).encode := by
  by_cases admitted : Admits url repository
  · rw [ensure_of_admits admitted]
    cases versioned : files.isVersioned path with
    | true =>
        simp only [if_true, Bool.true_eq_false, false_and, and_false, iff_false]
        cases files.entries path with
        | error error => simp
        | ok existing => by_cases same : existing.url = trimEnd '/' url <;> simp [same]
    | false =>
        simp only [Bool.false_eq_true, if_false, admitted, true_and]
        cases created : FileSystem.createDirectories (directory path) files with
        | error failure made => simp
        | ok _ made =>
            simp only [writeWhole_entriesFile created, EStateM.Result.ok.injEq, true_and, exists_eq_left']
            rw [← replaceFile_entriesFile]
            cases FileSystem.replaceFile (entriesFile path) (record now uuid url repository revision).encode made <;>
              simp
  · obtain ⟨message, refused⟩ := ensure_of_not_admits files now path uuid revision admitted
    simp [refused, admitted]

/-! ## URLs and roots -/

/-- A URL is the one of a root, or goes on behind it with a slash and something more. -/
def IsInside (url root : String) : Prop :=
  url = root ∨ ∃ rest, rest ≠ "" ∧ url = root ++ "/" ++ rest

theorem belongs_iff : belongs url root = true ↔ ∃ behind, url = trimEnd '/' root ++ behind := by
  rw [belongs, List.isPrefixOf_iff_prefix]
  constructor
  · rintro ⟨behind, text_eq⟩
    exact ⟨String.ofList behind, by simp [← String.toList_inj, text_eq]⟩
  · rintro ⟨behind, rfl⟩
    exact ⟨behind.toList, by simp⟩

/-- A trimmed URL that starts with the text of a root lies inside it if nothing or a slash comes next. -/
theorem isInside_append {behind : String} (trimmed : (root ++ behind).toList.getLast? ≠ some '/') :
    IsInside (root ++ behind) root ↔ behind = "" ∨ behind.toList.head? = some '/' := by
  simp only [IsInside, ← String.toList_inj, String.toList_append, List.append_assoc, List.append_cancel_left_eq,
    List.append_right_eq_self, String.toList_empty]
  refine or_congr_right ?_
  constructor
  · rintro ⟨rest, -, behind_eq⟩
    simp [behind_eq]
  · intro slash
    obtain ⟨rest, behind_eq⟩ := List.head?_eq_some_iff.mp slash
    refine ⟨String.ofList rest, ?_, by simp [behind_eq]⟩
    rintro none
    rw [String.toList_append, behind_eq] at trimmed
    simp_all

/--
A new record is only ever of a URL that starts with the text of the root recorded with it, without their
trailing slashes. It lies inside the root exactly if nothing or a slash stands behind this text. Any other
URL is refused before anything is touched, and a root matters in no other way.
-/
theorem ensure_isInside_iff (files : FileSystem) (now : Timestamp) (path : Path) (uuid : Option String)
    (url root : String) (revision : Nat) :
    (¬Admits url (some root) → ∃ message,
      ensure now path uuid url (some root) revision files = .error (.invalidArgument message) files) ∧
    ((∃ after, ensure now path uuid url (some root) revision files = .ok true after) ↔
      Admits url (some root) ∧ ∃ after, ensure now path uuid url none revision files = .ok true after) ∧
    ∀ after, ensure now path uuid url (some root) revision files = .ok true after →
      ∃ (made : FileSystem) (place : FileSystem.Place) (entries : Entries) (behind : String),
        made.place (entriesFile path) = .ok place ∧ after = made.putFile place.location entries.encode ∧
        entries.url = trimEnd '/' url ∧ entries.repository = some (trimEnd '/' root) ∧
        entries.url = trimEnd '/' root ++ behind ∧
        (IsInside entries.url (trimEnd '/' root) ↔ behind = "" ∨ behind.toList.head? = some '/') := by
  refine ⟨ensure_of_not_admits files now path uuid revision, ?_, ?_⟩
  · constructor
    · rintro ⟨after, created⟩
      obtain ⟨admitted, missing, made, isMade, place, placed, free, -⟩ := ensure_eq_ok_true.mp created
      exact ⟨admitted, _, ensure_eq_ok_true.mpr
        ⟨⟨admitted.1, by simp⟩, missing, made, isMade, place, placed, free, rfl⟩⟩
    · rintro ⟨admitted, after, created⟩
      obtain ⟨-, missing, made, isMade, place, placed, free, -⟩ := ensure_eq_ok_true.mp created
      exact ⟨_, ensure_eq_ok_true.mpr ⟨admitted, missing, made, isMade, place, placed, free, rfl⟩⟩
  · intro after created
    obtain ⟨admitted, -, made, -, place, placed, -, rfl⟩ := ensure_eq_ok_true.mp created
    obtain ⟨behind, url_eq⟩ := belongs_iff.mp (admitted.2 root rfl)
    have trimmed := getLast?_trimEnd '/' url
    rw [url_eq] at trimmed
    refine ⟨made, place, record now uuid url (some root) revision, behind, placed, rfl, rfl, rfl, url_eq, ?_⟩
    rw [show (record now uuid url (some root) revision).url = trimEnd '/' url from rfl, url_eq]
    exact isInside_append trimmed

/-- A directory is made versioned with a URL beside the root of its repository. -/
theorem ensure_isInside_iff_of_sibling : ∃ after,
    ensure ⟨⟨2024, 2, 29⟩, 12, 0, 0, 500⟩ ⟨"wc"⟩ none "svn://host/repo-old/trunk/" (some "svn://host/repo/") 7
      Settings.bareHome = .ok true after ∧
    ∃ (made : FileSystem) (place : FileSystem.Place) (entries : Entries),
      made.place (entriesFile ⟨"wc"⟩) = .ok place ∧ after = made.putFile place.location entries.encode ∧
      entries.url = "svn://host/repo-old/trunk" ∧ entries.repository = some "svn://host/repo" ∧
      ¬IsInside entries.url "svn://host/repo" := by
  obtain ⟨created, ran, isCreated⟩ := ok_of_yields
    (ensure ⟨⟨2024, 2, 29⟩, 12, 0, 0, 500⟩ ⟨"wc"⟩ none "svn://host/repo-old/trunk/" (some "svn://host/repo/") 7)
    Settings.bareHome id (by decide +kernel)
  obtain rfl : created = true := isCreated
  obtain ⟨-, -, recorded⟩ := ensure_isInside_iff Settings.bareHome ⟨⟨2024, 2, 29⟩, 12, 0, 0, 500⟩ ⟨"wc"⟩ none
    "svn://host/repo-old/trunk/" "svn://host/repo/" 7
  obtain ⟨made, place, entries, behind, placed, after_eq, url_eq, root_eq, append_eq, inside_iff⟩ :=
    recorded _ ran
  have url_trimmed : trimEnd '/' "svn://host/repo-old/trunk/" = "svn://host/repo-old/trunk" := by decide
  have root_trimmed : trimEnd '/' "svn://host/repo/" = "svn://host/repo" := by decide
  rw [url_trimmed] at url_eq
  rw [root_trimmed] at root_eq append_eq inside_iff
  refine ⟨_, ran, made, place, entries, placed, after_eq, url_eq, root_eq, ?_⟩
  have behind_eq : behind = "-old/trunk" := by
    have url_split : "svn://host/repo-old/trunk".toList =
        "svn://host/repo".toList ++ "-old/trunk".toList := by decide
    rw [url_eq, ← String.toList_inj, String.toList_append, url_split] at append_eq
    rw [← String.toList_inj]
    exact (List.append_cancel_left append_eq).symm
  rw [inside_iff, behind_eq]
  decide

end Area

end Checkout
