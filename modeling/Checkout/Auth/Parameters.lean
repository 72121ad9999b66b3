import Checkout.Error

/-!
# Authentication parameters

A registry and its providers share one map of parameters. Besides the settings that providers read,
it remembers credentials, each under the key of its kind and realm.
-/

namespace Checkout

/-- The value of a parameter. -/
inductive Parameter where
  /-- A text. -/
  | text (value : String)
  /-- A switch. -/
  | flag (value : Bool)
  /-- Certificate failures. -/
  | failures (value : CertificateFailures)
  /-- A remembered credential. -/
  | credential (value : Credential)
  deriving DecidableEq, Repr

/-- Whether two values say the same. -/
def Parameter.same : Parameter → Parameter → Bool
  | .credential left, .credential right => left.same right
  | left, right => left = right

namespace ParameterKey

/-- The user name to offer. -/
def username : String := "svn:auth:username"

/-- The password to offer. -/
def password : String := "svn:auth:password"

/-- Whether credentials must not be remembered. -/
def noAuthCache : String := "svn:auth:no-auth-cache"

/-- Whether nobody can be asked. -/
def nonInteractive : String := "svn:auth:non-interactive"

/-- The failures of the certificate in question. -/
def serverFailures : String := "svn:auth:ssl:failures"

/-- The failures that are accepted without asking. -/
def trustedFailures : String := "svn:auth:ssl:trusted-failures"

/-- The file of the client certificate. -/
def clientCertificate : String := "svn:auth:ssl:client-cert-file"

/-- The passphrase of the client certificate. -/
def clientPassphrase : String := "svn:auth:ssl:client-cert-password"

/-- The keys with a meaning to providers. -/
def wellKnown : List String :=
  [username, password, noAuthCache, nonInteractive, serverFailures, trustedFailures,
    clientCertificate, clientPassphrase]

/-- What the keys of remembered credentials start with. -/
def reserved : String := "svnctx:cache:"

/-- The key of the credential remembered for a kind and realm. -/
def remembered (kind : CredentialKind) (realm : String) : String :=
  reserved ++ kind.name ++ ":" ++ realm

end ParameterKey

/-- The parameters of a registry: keys with their values, each key once. -/
structure Parameters where
  entries : List (String × Parameter)
  deriving DecidableEq, Repr, Inhabited

namespace Parameters

/-- No parameter. -/
def empty : Parameters := ⟨[]⟩

/-- The value under a key. -/
def get? (parameters : Parameters) (key : String) : Option Parameter :=
  parameters.entries.lookup key

/-- The parameters without a key. -/
def erase (parameters : Parameters) (key : String) : Parameters :=
  ⟨parameters.entries.filter fun entry => entry.1 ≠ key⟩

/-- The parameters with a value under a key, in place of any other. -/
def set (parameters : Parameters) (key : String) (value : Parameter) : Parameters :=
  ⟨(key, value) :: (parameters.erase key).entries⟩

/-- The number of keys. -/
def size (parameters : Parameters) : Nat :=
  parameters.entries.length

/-- The parameters overlaid with others, whose values win. -/
def merge (parameters others : Parameters) : Parameters :=
  others.entries.foldr (fun (key, value) merged => merged.set key value) parameters

/-- Whether the parameters have the same keys with the same values. -/
def same (left right : Parameters) : Bool :=
  left.size = right.size &&
    left.entries.all fun (key, value) => (right.get? key).any value.same

/-- The text under a key, if it is one. -/
def text? (parameters : Parameters) (key : String) : Option String :=
  match parameters.get? key with
  | some (.text value) => some value
  | _ => none

/-- The switch under a key; without one it is off. -/
def flag (parameters : Parameters) (key : String) : Bool :=
  parameters.get? key = some (.flag true)

/-- The failures under a key; without any there are none. -/
def failures (parameters : Parameters) (key : String) : CertificateFailures :=
  match parameters.get? key with
  | some (.failures value) => value
  | _ => .empty

/-- Whether credentials may be remembered. -/
def maySave (parameters : Parameters) : Bool :=
  !parameters.flag ParameterKey.noAuthCache

/-- The credential remembered for a kind and realm. -/
def remembered? (parameters : Parameters) (kind : CredentialKind) (realm : String) :
    Option Credential :=
  match parameters.get? (ParameterKey.remembered kind realm) with
  | some (.credential credential) => some credential
  | _ => none

/-- Remembers a credential for a realm, under the credential's kind. -/
def remember (parameters : Parameters) (realm : String) (credential : Credential) : Parameters :=
  parameters.set (ParameterKey.remembered credential.kind realm) (.credential credential)

theorem lookup_filter_ne (entries : List (String × Parameter)) (key other : String) :
    (entries.filter fun entry => entry.1 ≠ key).lookup other =
      if other = key then none else entries.lookup other := by
  induction entries with
  | nil => simp
  | cons entry rest ih => grind

@[simp]
theorem get?_erase (parameters : Parameters) (key other : String) :
    (parameters.erase key).get? other = if other = key then none else parameters.get? other :=
  lookup_filter_ne parameters.entries key other

@[simp]
theorem get?_set (parameters : Parameters) (key other : String) (value : Parameter) :
    (parameters.set key value).get? other =
      if other = key then some value else parameters.get? other := by
  have erased := get?_erase parameters key other
  simp only [get?, set, List.lookup_cons] at erased ⊢
  grind

end Parameters

end Checkout
