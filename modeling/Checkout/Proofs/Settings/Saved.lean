import Checkout.Proofs.FileSystem.Writing
import Checkout.Proofs.Settings.Acceptable
import Checkout.Proofs.Settings.Document

/-!
# Settings loaded after they were saved

Wherever a file can be written, settings can be saved, and loading them gives them back if they are acceptable
and refuses them otherwise. What is loaded from any file at all is acceptable, so a session starts from it.
-/

namespace Checkout

namespace FileSystem

def prepare (path : Path) : FileChange Unit :=
  match path.parent? with
  | some parent => createDirectories parent
  | none => pure ()

/-- Whether a file can be written at a path, once the directories above it are there. -/
def Writable (files : FileSystem) (path : Path) : Prop :=
  ∃ prepared identity opened, prepare path files = .ok () prepared ∧
    openFile path prepared = .ok identity opened

theorem Writable.exists_writeFile {files : FileSystem} {path : Path} (writable : files.Writable path)
    (bytes : ByteArray) : ∃ prepared after, prepare path files = .ok () prepared ∧
      writeFile path bytes prepared = .ok () after := by
  obtain ⟨prepared, identity, opened, isPrepared, isOpen⟩ := writable
  refine ⟨prepared, opened.setBytes identity bytes, isPrepared, ?_⟩
  simp only [writeFile, Action.bind_apply, isOpen, Action.modify_apply]

end FileSystem

theorem FileChange.run_eq_ok {α : Type} {change : FileChange α} {files after : FileSystem} {value : α} :
    change.run files = .ok value after ↔ change files = .ok value after := by
  rw [FileChange.run]
  cases change files <;> simp

namespace Settings

theorem save_of_encode {settings : Settings} {document : String} (written : settings.encode = .ok document)
    (path : Path) :
    settings.save path = (do
      (FileSystem.prepare path).run
      (FileSystem.writeFile path document.toUTF8).run) := by
  rw [save, FileSystem.prepare, written]
  cases path.parent? <;> rfl

/-- Settings that cannot be written as a document leave everything as it is. -/
theorem save_of_not_textual {settings : Settings} (unreadable : ¬settings.auth.Textual) (path : Path)
    (files : FileSystem) : settings.save path files = .error .unwritableToml files := by
  rw [save, encode, AuthSettings.members?_of_not_textual unreadable]
  rfl

theorem exists_encode {settings : Settings} (textual : settings.auth.Textual) :
    ∃ document, settings.encode = .ok document := by
  obtain ⟨members, members_eq⟩ := textual.exists_members
  exact ⟨_, encode_eq_ok_iff.mpr ⟨members, members_eq, rfl⟩⟩

/-- What a document of settings holds is loaded if it is acceptable. -/
theorem load_of_read {files : FileSystem} {path : Path} {settings : Settings} {document : String}
    (written : settings.encode = .ok document) (read : files.read path = .ok document.toUTF8) :
    load files path = (do settings.check; return settings) := by
  rw [load, read]
  simp only [fromUTF8?_toUTF8, decode_encode written]
  rfl

/-- Whatever is loaded was decoded, and is acceptable. -/
theorem exists_decode_of_load {files : FileSystem} {path : Path} {settings : Settings}
    (loaded : load files path = .ok settings) :
    (∃ document, decode document = .ok settings) ∧ settings.Acceptable := by
  rw [load] at loaded
  split at loaded
  · simp at loaded
  · split at loaded
    · simp at loaded
    · rename_i document _
      cases decoded : decode document with
      | error error => simp [decoded, bind, Except.bind] at loaded
      | ok read =>
          rcases read.check_cases with ⟨accepted, acceptable⟩ | ⟨message, refused, -⟩
          · simp only [decoded, accepted, bind, Except.bind, pure, Except.pure, Except.ok.injEq] at loaded
            exact loaded ▸ ⟨⟨document, decoded⟩, acceptable⟩
          · simp [decoded, refused, bind, Except.bind] at loaded

/-- Whatever a file holds, only acceptable settings are loaded from it. -/
theorem acceptable_of_load {files : FileSystem} {path : Path} {settings : Settings}
    (loaded : load files path = .ok settings) : settings.Acceptable :=
  (exists_decode_of_load loaded).2

/-- A file of settings is text, so the path of the certificate in it is. -/
theorem textual_of_load {files : FileSystem} {path : Path} {settings : Settings}
    (loaded : load files path = .ok settings) : settings.auth.Textual := by
  obtain ⟨⟨document, decoded⟩, -⟩ := exists_decode_of_load loaded
  rw [decode] at decoded
  split at decoded
  · rename_i read read_eq
    obtain ⟨data, -, data_eq⟩ := Option.bind_eq_some_iff.mp read_eq
    exact Except.ok.inj decoded ▸ textual_of_ofData? data_eq
  · cases decoded

/-- Settings saved at any place that can be written are loaded again as they were if they are acceptable, and
refused otherwise; a path that is no text keeps them from being saved, and then nothing is written. A session
starts from whatever settings are loaded. -/
theorem load_of_save (settings : Settings) :
    (settings.auth.Textual → ∀ files path, FileSystem.Writable files path →
      ∃ after, settings.save path files = .ok () after ∧
        (settings.Acceptable → load after path = .ok settings) ∧
        (¬settings.Acceptable → ∃ message, load after path = .error (.invalidSettings message))) ∧
    (¬settings.auth.Textual → ∀ files path,
      settings.save path files = .error .unwritableToml files) ∧
    ∀ files path, load files path = .ok settings →
      (∃ parameters, settings.parameters = .ok parameters) ∧
        ∀ σ, ∃ session : Session σ, Session.ofSettings settings = .ok session := by
  refine ⟨?_, ?_, ?_⟩
  · intro textual files path writable
    obtain ⟨document, encoded⟩ := exists_encode textual
    obtain ⟨prepared, after, isPrepared, written⟩ := writable.exists_writeFile document.toUTF8
    have loaded := load_of_read encoded (FileSystem.read_writeFile written)
    refine ⟨after, ?_, ?_, ?_⟩
    · rw [save_of_encode encoded, Action.bind_apply, FileChange.run_eq_ok.mpr isPrepared]
      exact FileChange.run_eq_ok.mpr written
    · intro acceptable
      rw [loaded, settings.check_eq_ok_iff.mpr acceptable]
      rfl
    · intro unfit
      rcases settings.check_cases with ⟨-, acceptable⟩ | ⟨message, refused, -⟩
      · exact absurd acceptable unfit
      · exact ⟨message, by rw [loaded, refused]; rfl⟩
  · intro unreadable files path
    exact save_of_not_textual unreadable path files
  · intro files path loaded
    have acceptable := acceptable_of_load loaded
    exact ⟨acceptable.exists_parameters, acceptable.exists_session⟩

/-- Settings whose texts need every form a text can be written in. -/
def awkward : Settings where
  auth := {
    username := some " \"'''\n\x07\\ "
    password := some ""
    clientCertificate := some ⟨"keys\\'me'\".p12"⟩
    trustedFailures := [" Expired\n", "UN\u212aNOWN_CA"] }
  session := { retryLimit := 10 }

/-- Settings that repeat prompts once too often. -/
def restless : Settings where
  session := { retryLimit := 11 }

/-- A file system with one directory, which is the current one. -/
def bareHome : FileSystem where
  nodes := [(["home"], .directory)]
  contents := []
  nextFile := 1
  held := []
  current := ["home"]

theorem writable_bareHome : bareHome.Writable ⟨"conf/svn.toml"⟩ := by
  rcases ok_of_yields (FileSystem.prepare ⟨"conf/svn.toml"⟩) bareHome (fun _ => true) (by decide +kernel) with
    ⟨_, prepared, -⟩
  rcases ok_of_yields (FileSystem.openFile ⟨"conf/svn.toml"⟩)
    (stateAfter (FileSystem.prepare ⟨"conf/svn.toml"⟩) bareHome) (fun _ => true) (by decide +kernel) with
    ⟨identity, opened, -⟩
  exact ⟨_, identity, _, prepared, opened⟩

theorem acceptable_awkward : awkward.Acceptable :=
  awkward.check_eq_ok_iff.mp (by decide +kernel)

theorem textual_awkward : awkward.auth.Textual :=
  fun _ given => ⟨_, (Option.some.inj given).symm⟩

theorem not_acceptable_restless : ¬restless.Acceptable :=
  fun acceptable => absurd acceptable.retryLimit (by decide)

theorem textual_restless : restless.auth.Textual :=
  fun _ given => nomatch given

/-- Settings whose certificate has a name that is no text. -/
def unreadable : Settings where
  auth := { clientCertificate := some ⟨⟨[0xff]⟩⟩ }

theorem not_textual_unreadable : ¬unreadable.auth.Textual := by
  intro textual
  obtain ⟨text, file_eq⟩ := textual _ rfl
  have reads : (⟨[0xff]⟩ : OsText).text? = some text :=
    OsText.text?_eq_some_iff.mpr (Path.mk.inj file_eq).symm
  have fails : (⟨[0xff]⟩ : OsText).text? = none := by decide +kernel
  exact nomatch fails.symm.trans reads

/-- Awkward settings are loaded from a new directory as they were, restless ones are refused, and a certificate
whose name is no text is not saved. -/
theorem load_of_save_awkward :
    (bareHome.Writable ⟨"conf/svn.toml"⟩ ∧ awkward.auth.Textual ∧ awkward.Acceptable ∧
      restless.auth.Textual ∧ ¬restless.Acceptable ∧ ¬unreadable.auth.Textual) ∧
      (∃ after, awkward.save ⟨"conf/svn.toml"⟩ bareHome = .ok () after ∧
        load after ⟨"conf/svn.toml"⟩ = .ok awkward ∧ ∃ parameters, awkward.parameters = .ok parameters) ∧
      (∃ after message, restless.save ⟨"conf/svn.toml"⟩ bareHome = .ok () after ∧
        load after ⟨"conf/svn.toml"⟩ = .error (.invalidSettings message)) ∧
      unreadable.save ⟨"conf/svn.toml"⟩ bareHome = .error .unwritableToml bareHome := by
  refine ⟨⟨writable_bareHome, textual_awkward, acceptable_awkward, textual_restless,
    not_acceptable_restless, not_textual_unreadable⟩, ?_, ?_, ?_⟩
  · rcases load_of_save awkward with ⟨saves, -, starts⟩
    rcases saves textual_awkward bareHome ⟨"conf/svn.toml"⟩ writable_bareHome with ⟨after, saved, loads, -⟩
    have loaded := loads acceptable_awkward
    exact ⟨after, saved, loaded, (starts after _ loaded).1⟩
  · rcases (load_of_save restless).1 textual_restless bareHome ⟨"conf/svn.toml"⟩ writable_bareHome with
      ⟨after, saved, -, refuses⟩
    rcases refuses not_acceptable_restless with ⟨message, refused⟩
    exact ⟨after, message, saved, refused⟩
  · exact (load_of_save unreadable).2.1 not_textual_unreadable bareHome ⟨"conf/svn.toml"⟩

end Settings

end Checkout
