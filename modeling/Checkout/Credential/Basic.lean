import Checkout.Credential.Failures
import Checkout.Path.Basic

/-!
# Credentials

The five kinds of credential and their records. A provider fills in a record of its kind; the record
says whether it may be remembered.
-/

namespace Checkout

/-- The kinds of credential. -/
inductive CredentialKind where
  /-- A user name and a password. -/
  | simple
  /-- A user name only. -/
  | username
  /-- The decision to trust a server certificate in spite of failures. -/
  | serverTrust
  /-- A client certificate. -/
  | clientCertificate
  /-- The passphrase of a client certificate. -/
  | clientPassphrase
  deriving DecidableEq, Repr, Inhabited

namespace CredentialKind

/-- Every kind, in order. -/
def all : List CredentialKind :=
  [.simple, .username, .serverTrust, .clientCertificate, .clientPassphrase]

/-- The name of a kind among authentication services. -/
def name : CredentialKind → String
  | .simple => "svn.simple"
  | .username => "svn.username"
  | .serverTrust => "svn.ssl.server"
  | .clientCertificate => "svn.ssl.client-cert"
  | .clientPassphrase => "svn.ssl.client-passphrase"

/-- The name of a kind in documents. -/
def label : CredentialKind → String
  | .simple => "simple"
  | .username => "username"
  | .serverTrust => "ssl_server_trust"
  | .clientCertificate => "ssl_client_cert"
  | .clientPassphrase => "ssl_client_cert_pw"

/-- The name of a kind in descriptions. -/
def title : CredentialKind → String
  | .simple => "Simple"
  | .username => "Username"
  | .serverTrust => "SslServerTrust"
  | .clientCertificate => "SslClientCert"
  | .clientPassphrase => "SslClientCertPw"

/-- The place of a kind in the order of kinds. -/
def rank : CredentialKind → Nat
  | .simple => 0
  | .username => 1
  | .serverTrust => 2
  | .clientCertificate => 3
  | .clientPassphrase => 4

/-- The order of kinds. -/
def order (left right : CredentialKind) : Ordering :=
  compare left.rank right.rank

/-- The kind with a name in documents. -/
def ofLabel? (label : String) : Option CredentialKind :=
  all.find? fun kind => kind.label = label

/-- The kind a user means. -/
def ofKeyword? (text : String) : Option CredentialKind :=
  match keyword text with
  | "simple" | "svn.simple" => some .simple
  | "username" | "svn.username" => some .username
  | "ssl-server-trust" | "ssl_server_trust" | "svn.ssl.server" => some .serverTrust
  | "ssl-client-cert" | "ssl_client_cert" | "svn.ssl.client-cert" => some .clientCertificate
  | "ssl-client-cert-pw" | "ssl_client_cert_pw" | "svn.ssl.client-passphrase" =>
      some .clientPassphrase
  | _ => none

end CredentialKind

/-- A credential record of one of the kinds. -/
inductive Credential where
  /-- A user name and a password. -/
  | simple (user password : String) (maySave : Bool)
  /-- A user name. -/
  | username (user : String) (maySave : Bool)
  /-- The failures accepted of a certificate; without them the certificate is not accepted. -/
  | serverTrust (accepted : Option CertificateFailures) (maySave : Bool)
  /-- The file of a client certificate. -/
  | clientCertificate (file : Path) (maySave : Bool)
  /-- The passphrase of a client certificate. -/
  | clientPassphrase (password : String) (maySave : Bool)
  deriving DecidableEq, Repr, Inhabited

namespace Credential

/-- The record of a kind that nothing has been filled in. -/
def empty (kind : CredentialKind) (maySave : Bool) : Credential :=
  match kind with
  | .simple => .simple "" "" maySave
  | .username => .username "" maySave
  | .serverTrust => .serverTrust none maySave
  | .clientCertificate => .clientCertificate ⟨""⟩ maySave
  | .clientPassphrase => .clientPassphrase "" maySave

/-- The kind of a record. -/
def kind : Credential → CredentialKind
  | .simple _ _ _ => .simple
  | .username _ _ => .username
  | .serverTrust _ _ => .serverTrust
  | .clientCertificate _ _ => .clientCertificate
  | .clientPassphrase _ _ => .clientPassphrase

/-- Whether the record may be remembered. -/
def maySave : Credential → Bool
  | .simple _ _ maySave => maySave
  | .username _ maySave => maySave
  | .serverTrust _ maySave => maySave
  | .clientCertificate _ maySave => maySave
  | .clientPassphrase _ maySave => maySave

/-- The record with another answer to whether it may be remembered. -/
def withMaySave (maySave : Bool) : Credential → Credential
  | .simple user password _ => .simple user password maySave
  | .username user _ => .username user maySave
  | .serverTrust accepted _ => .serverTrust accepted maySave
  | .clientCertificate file _ => .clientCertificate file maySave
  | .clientPassphrase password _ => .clientPassphrase password maySave

/-- The user name in a record. -/
def user? : Credential → Option String
  | .simple user _ _ => some user
  | .username user _ => some user
  | _ => none

/-- Whether the record can be used: its identifying part is there. A password may be empty. -/
def isComplete : Credential → Bool
  | .simple user _ _ => user ≠ ""
  | .username user _ => user ≠ ""
  | .serverTrust accepted _ => accepted.isSome
  | .clientCertificate file _ => file.text ≠ ""
  | .clientPassphrase password _ => password ≠ ""

/-- Whether two records say the same; certificate files are compared as paths. -/
def same : Credential → Credential → Bool
  | .clientCertificate left leftSave, .clientCertificate right rightSave =>
      left.same right && leftSave = rightSave
  | left, right => left = right

/-- A record of named fields, for descriptions. -/
def describeFields (title : String) (fields : List (String × String)) : String :=
  title ++ " \x7b " ++
    String.intercalate ", " (fields.map fun (name, value) => name ++ ": " ++ value) ++ " \x7d"

/-- A truth value, for descriptions. -/
def describeFlag (value : Bool) : String :=
  if value then "true" else "false"

/-- The text that stands for a secret. -/
def redacted : String := quoted "<redacted>"

/-- A description of the record without its secrets. -/
def describe : Credential → String
  | .simple user _ maySave =>
      describeFields "Simple"
        [("username", quoted user), ("password", redacted), ("may_save", describeFlag maySave)]
  | .username user maySave =>
      describeFields "Username"
        [("username", quoted user), ("may_save", describeFlag maySave)]
  | .serverTrust accepted maySave =>
      let failures := match accepted with
        | some failures => "Some(SslFailures(" ++ toString failures.mask.toNat ++ "))"
        | none => "None"
      describeFields "SslServerTrust"
        [("accepted_failures", failures), ("may_save", describeFlag maySave)]
  | .clientCertificate file maySave =>
      describeFields "SslClientCert"
        [("cert_file", file.text.quoted), ("may_save", describeFlag maySave)]
  | .clientPassphrase _ maySave =>
      describeFields "SslClientCertPw"
        [("password", redacted), ("may_save", describeFlag maySave)]

@[simp]
theorem kind_empty (kind : CredentialKind) (maySave : Bool) :
    (empty kind maySave).kind = kind := by
  cases kind <;> rfl

@[simp]
theorem isComplete_empty (kind : CredentialKind) (maySave : Bool) :
    (empty kind maySave).isComplete = false := by
  cases kind <;> rfl

@[simp]
theorem kind_withMaySave (credential : Credential) (maySave : Bool) :
    (credential.withMaySave maySave).kind = credential.kind := by
  cases credential <;> rfl

@[simp]
theorem maySave_withMaySave (credential : Credential) (maySave : Bool) :
    (credential.withMaySave maySave).maySave = maySave := by
  cases credential <;> rfl

@[simp]
theorem isComplete_withMaySave (credential : Credential) (maySave : Bool) :
    (credential.withMaySave maySave).isComplete = credential.isComplete := by
  cases credential <;> rfl

end Credential

end Checkout
