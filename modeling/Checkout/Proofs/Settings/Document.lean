import Checkout.Proofs.Toml.Document
import Checkout.Settings.File

/-!
# Settings read as they were written

What is not set is left out of a document, and what a document leaves out is not set. So the document of
settings is read back as the same settings, whatever texts they hold.
-/

namespace Checkout

/-! ## Records with distinct names -/

namespace Data

variable {members : List (String × Data)}

theorem memberOnce?_eq_lookup (distinct : (members.map Prod.fst).Nodup) (name : String) :
    memberOnce? name members = some (members.lookup name) := by
  induction members with
  | nil => rfl
  | cons member members ih =>
      rcases member with ⟨key, value⟩
      rw [List.map_cons, List.nodup_cons] at distinct
      by_cases here : key = name
      · subst here
        have others : members.filter (fun member => member.1 = key) = [] := by
          rw [List.filter_eq_nil_iff]
          intro other other_mem
          simp only [decide_eq_true_eq]
          intro same
          exact distinct.1 (List.mem_map.mpr ⟨other, other_mem, same⟩)
        rw [memberOnce?, List.filter_cons_of_pos (by simp), others]
        simp
      · have apart : (name == key) = false := beq_eq_false_iff_ne.mpr (Ne.symm here)
        have later := ih distinct.2
        rw [memberOnce?] at later
        rw [memberOnce?, List.filter_cons_of_neg (by simpa using here), later, List.lookup_cons, apart]

/-- A record in which no name is repeated gives its values by name. -/
theorem fields?_record (distinct : (members.map Prod.fst).Nodup) (names : List String) (exact : Bool) :
    fields? names exact (.record members) = some (names.map fun name => members.lookup name) := by
  rw [fields?]
  induction names with
  | nil => rfl
  | cons name names ih =>
      rw [List.mapM_cons, memberOnce?_eq_lookup distinct, ih]
      rfl

theorem texts?_list (values : List String) : texts? (.list (values.map .text)) = some values := by
  rw [texts?]
  induction values with
  | nil => rfl
  | cons value values ih =>
      rw [List.map_cons, List.mapM_cons, ih]
      rfl

theorem optional?_text? (value : Option String) :
    optional? text? (value.map Data.text) = some value := by
  cases value <;> rfl

theorem keys_optionalMember (name : String) (value : Option String) :
    ((optionalMember name value).map Prod.fst).Sublist [name] := by
  cases value <;> simp [optionalMember]

theorem lookup_optionalMember (name other : String) (value : Option String) :
    (optionalMember name value).lookup other = if other = name then value.map .text else none := by
  cases value with
  | none => simp [optionalMember]
  | some text =>
      by_cases here : other = name
      · simp [optionalMember, here]
      · simp [optionalMember, List.lookup_cons, beq_eq_false_iff_ne.mpr here, here]

theorem isPlainValue_optionalMember {name : String} {value : Option String} {member : String × Data}
    (member_mem : member ∈ optionalMember name value) : Toml.IsPlainValue member.2 := by
  rw [optionalMember, Option.mem_toList, Option.map_eq_some_iff] at member_mem
  obtain ⟨text, -, rfl⟩ := member_mem
  exact .scalar (.text text)

end Data

/-! ## Settings of authentication -/

namespace AuthSettings

/-- Whether the path of the certificate, if there is one, is UTF-8. -/
def Textual (settings : AuthSettings) : Prop :=
  ∀ file, settings.clientCertificate = some file → ∃ text : String, file = ⟨text⟩

variable (settings : AuthSettings) (certificate : Option String)

theorem keys_members : ((settings.membersWith certificate).map Prod.fst).Sublist
    ["username", "password", "no_auth_cache", "ssl_client_cert_file", "ssl_client_cert_password",
      "ssl_trusted_failures"] := by
  simp only [membersWith, List.map_append]
  exact (((((Data.keys_optionalMember _ _).append (Data.keys_optionalMember _ _)).append (.refl _)).append
    (Data.keys_optionalMember _ _)).append (Data.keys_optionalMember _ _)).append (.refl _)

theorem isPlainTable_members : Toml.IsPlainTable (settings.membersWith certificate) where
  bare member member_mem := by
    have known := (keys_members settings certificate).subset (List.mem_map_of_mem member_mem)
    have table : ∀ name ∈ ["username", "password", "no_auth_cache", "ssl_client_cert_file",
        "ssl_client_cert_password", "ssl_trusted_failures"], Toml.IsBareName name := by
      decide +kernel
    exact table member.1 known
  plain member member_mem := by
    simp only [membersWith, List.mem_append, List.mem_singleton] at member_mem
    rcases member_mem with ((((username | password) | rfl) | certificate) | passphrase) | rfl
    · exact Data.isPlainValue_optionalMember username
    · exact Data.isPlainValue_optionalMember password
    · exact .scalar (.flag _)
    · exact Data.isPlainValue_optionalMember certificate
    · exact Data.isPlainValue_optionalMember passphrase
    · refine .list ?_
      intro item item_mem
      obtain ⟨name, -, rfl⟩ := List.mem_map.mp item_mem
      exact .text name
  distinct := (keys_members settings certificate).nodup (by decide)

variable {settings}

/-- What is written of settings, if anything is, has the path of the certificate as it is. -/
theorem members?_eq_some_iff {members : List (String × Data)} :
    settings.members? = some members ↔ ∃ certificate : Option String,
      settings.clientCertificate = certificate.map (fun text => ⟨text⟩) ∧
        settings.membersWith certificate = members := by
  rw [members?]
  cases settings.clientCertificate with
  | none =>
      constructor
      · intro written
        exact ⟨none, rfl, Option.some.inj written⟩
      · rintro ⟨_ | text, none_eq, rfl⟩
        · rfl
        · cases none_eq
  | some file =>
      rw [Option.map_eq_some_iff]
      constructor
      · rintro ⟨text, reads, rfl⟩
        obtain rfl : file = ⟨text⟩ := congrArg Path.mk (OsText.text?_eq_some_iff.mp reads).symm
        exact ⟨some text, rfl, rfl⟩
      · rintro ⟨_ | text, file_eq, rfl⟩
        · cases file_eq
        · cases file_eq
          exact ⟨text, OsText.text?_ofString text, rfl⟩

theorem Textual.exists_members (textual : settings.Textual) :
    ∃ members, settings.members? = some members := by
  cases given : settings.clientCertificate with
  | none => exact ⟨_, members?_eq_some_iff.mpr ⟨none, given, rfl⟩⟩
  | some file =>
      obtain ⟨text, rfl⟩ := textual file given
      exact ⟨_, members?_eq_some_iff.mpr ⟨some text, given, rfl⟩⟩

theorem members?_of_not_textual (unreadable : ¬settings.Textual) : settings.members? = none := by
  cases written : settings.members? with
  | none => rfl
  | some members =>
      obtain ⟨certificate, given, -⟩ := members?_eq_some_iff.mp written
      refine absurd ?_ unreadable
      intro file file_eq
      rw [given, Option.map_eq_some_iff] at file_eq
      obtain ⟨text, -, rfl⟩ := file_eq
      exact ⟨text, rfl⟩

theorem isPlainTable_of_members? {members : List (String × Data)}
    (written : settings.members? = some members) : Toml.IsPlainTable members := by
  obtain ⟨certificate, -, rfl⟩ := members?_eq_some_iff.mp written
  exact settings.isPlainTable_members certificate

theorem ofData?_members {members : List (String × Data)} (written : settings.members? = some members)
    (exact : Bool) : ofData? exact (.record members) = some settings := by
  obtain ⟨certificate, given, rfl⟩ := members?_eq_some_iff.mp written
  have values : (["username", "password", "no_auth_cache", "ssl_client_cert_file",
      "ssl_client_cert_password", "ssl_trusted_failures"].map fun name =>
        (settings.membersWith certificate).lookup name) =
      [settings.username.map .text, settings.password.map .text, some (.flag settings.noAuthCache),
        certificate.map .text, settings.clientPassphrase.map .text,
        some (.list (settings.trustedFailures.map .text))] := by
    simp [membersWith, List.lookup_append, Data.lookup_optionalMember, List.lookup_cons]
  rw [ofData?, Data.fields?_record ((keys_members settings certificate).nodup (by decide)), values]
  simp only [Option.bind_eq_bind, Option.bind_some, Data.optional?_text?, Data.withDefault?, Data.flag?,
    Data.texts?_list]
  exact congrArg some (by rw [← given])

/-- The path of a certificate that is read is UTF-8. -/
theorem textual_of_ofData? {exact : Bool} {data : Data} (read : ofData? exact data = some settings) :
    settings.Textual := by
  rw [ofData?] at read
  obtain ⟨values, -, read⟩ := Option.bind_eq_some_iff.mp read
  split at read
  · simp only [Option.bind_eq_bind, Option.bind_eq_some_iff, Option.pure_def, Option.some.injEq] at read
    obtain ⟨_, -, _, -, _, -, certificate, -, _, -, _, -, rfl⟩ := read
    intro file file_eq
    obtain ⟨text, -, rfl⟩ := Option.map_eq_some_iff.mp file_eq
    exact ⟨text, rfl⟩
  · exact nomatch read

end AuthSettings

/-! ## All settings -/

namespace SessionSettings

variable (settings : SessionSettings)

theorem isPlainTable_members : Toml.IsPlainTable settings.members where
  bare member member_mem := by
    simp only [members, List.mem_cons, List.not_mem_nil, or_false] at member_mem
    rcases member_mem with rfl | rfl
    · exact (by decide +kernel : Toml.IsBareName "non_interactive")
    · exact (by decide +kernel : Toml.IsBareName "retry_limit")
  plain member member_mem := by
    simp only [members, List.mem_cons, List.not_mem_nil, or_false] at member_mem
    rcases member_mem with rfl | rfl
    · exact .scalar (.flag _)
    · have bound : settings.retryLimit.toNat < 4294967296 := settings.retryLimit.isLt
      exact .scalar (.natural (Nat.lt_trans bound (by decide)))
  distinct := by simp [members]

theorem natural?_retryLimit :
    Data.natural? UInt32.size (.integer settings.retryLimit.toNat) = some settings.retryLimit.toNat := by
  have bound : settings.retryLimit.toNat < 4294967296 := settings.retryLimit.isLt
  have bounds : 0 ≤ (settings.retryLimit.toNat : Int) ∧
      (settings.retryLimit.toNat : Int) < UInt32.size := by
    have size : UInt32.size = 4294967296 := rfl
    omega
  rw [Data.natural?, if_pos bounds, Int.toNat_natCast]

theorem ofData?_of_fields {exact : Bool} {data : Data} {nonInteractive retryLimit : Option Data}
    (fields : data.fields? ["non_interactive", "retry_limit"] exact = some [nonInteractive, retryLimit]) :
    ofData? exact data =
      (Data.withDefault? false Data.flag? nonInteractive).bind fun flag =>
        (Data.withDefault? 2 (Data.natural? UInt32.size) retryLimit).map fun limit =>
          { nonInteractive := flag, retryLimit := BitVec.ofNat 32 limit } := by
  rw [ofData?, fields]
  simp only [Option.bind_eq_bind, Option.bind_some, Option.map_eq_bind]
  rfl

theorem ofData?_members (exact : Bool) : ofData? exact (.record settings.members) = some settings := by
  have values : (["non_interactive", "retry_limit"].map fun name => settings.members.lookup name) =
      [some (.flag settings.nonInteractive), some (.integer settings.retryLimit.toNat)] := by
    simp [members, List.lookup_cons]
  have distinct : (settings.members.map Prod.fst).Nodup := by simp [members]
  have fields := Data.fields?_record distinct ["non_interactive", "retry_limit"] exact
  rw [values] at fields
  rw [ofData?_of_fields fields, Data.withDefault?, Data.withDefault?, natural?_retryLimit, Data.flag?,
    Option.bind_some, Option.map_some, BitVec.ofNat_toNat, BitVec.setWidth_eq]

end SessionSettings

namespace Settings

variable (settings : Settings)

theorem ofData?_data {data : Data} (written : settings.data? = some data) (exact : Bool) :
    ofData? exact data = some settings := by
  obtain ⟨members, members_eq, rfl⟩ := Option.map_eq_some_iff.mp
    (show settings.auth.members?.map (fun members => Data.record
      [("auth", .record members), ("session", .record settings.session.members)]) = some data by
        rw [← written, data?]
        cases settings.auth.members? <;> rfl)
  rw [ofData?, Data.fields?_record (by simp)]
  simp [List.lookup_cons, Data.withDefault?, AuthSettings.ofData?_members members_eq,
    SessionSettings.ofData?_members]

variable {settings}

theorem encode_eq_ok_iff {document : String} :
    settings.encode = .ok document ↔ ∃ members, settings.auth.members? = some members ∧
      Toml.render [("auth", members), ("session", settings.session.members)] = document := by
  rw [encode]
  cases settings.auth.members? <;> simp

/-- Where settings are read from data, the path of their certificate is UTF-8. -/
theorem textual_of_ofData? {exact : Bool} {data : Data} (read : ofData? exact data = some settings) :
    settings.auth.Textual := by
  rw [ofData?] at read
  obtain ⟨values, -, read⟩ := Option.bind_eq_some_iff.mp read
  split at read
  · rename_i auth _
    simp only [Option.bind_eq_bind, Option.bind_eq_some_iff, Option.pure_def, Option.some.injEq] at read
    obtain ⟨given, given_eq, _, -, rfl⟩ := read
    cases auth with
    | none =>
        obtain rfl := Option.some.inj given_eq
        exact fun _ absent => nomatch absent
    | some data => exact AuthSettings.textual_of_ofData? given_eq
  · exact nomatch read

/-- The document of settings denotes them. -/
theorem parse?_encode {document : String} (written : settings.encode = .ok document) :
    Toml.parse? document = settings.data? := by
  obtain ⟨members, members_eq, rfl⟩ := encode_eq_ok_iff.mp written
  rw [Toml.parse?_render]
  · rw [data?, members_eq]
    rfl
  · intro table table_mem
    simp only [List.mem_cons, List.not_mem_nil, or_false] at table_mem
    rcases table_mem with rfl | rfl
    · exact (by decide +kernel : Toml.IsBareName "auth")
    · exact (by decide +kernel : Toml.IsBareName "session")
  · simp
  · intro table table_mem
    simp only [List.mem_cons, List.not_mem_nil, or_false] at table_mem
    rcases table_mem with rfl | rfl
    · exact AuthSettings.isPlainTable_of_members? members_eq
    · exact settings.session.isPlainTable_members

/-- Settings are read as they were written, acceptable or not. -/
theorem decode_encode {document : String} (written : settings.encode = .ok document) :
    decode document = .ok settings := by
  obtain ⟨members, members_eq, -⟩ := encode_eq_ok_iff.mp written
  have data_eq : settings.data? = some (.record
      [("auth", .record members), ("session", .record settings.session.members)]) := by
    rw [data?, members_eq]
    rfl
  rw [decode, parse?_encode written, data_eq, Option.bind_some, ofData?_data settings data_eq]

end Settings

end Checkout
