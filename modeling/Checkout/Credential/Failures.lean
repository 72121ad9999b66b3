import Checkout.Text.Blank
import Checkout.Text.Keyword

/-!
# Certificate failures

What can be wrong with a server certificate, as a set of bits. Five of the bits have names; the
others may occur in a challenge all the same.
-/

namespace Checkout

/-- A set of certificate failures. -/
structure CertificateFailures where
  mask : BitVec 32
  deriving DecidableEq, Repr, Inhabited

namespace CertificateFailures

/-- No failure. -/
def empty : CertificateFailures := ⟨0⟩

/-- The certificate is not valid yet. -/
def notYetValid : CertificateFailures := ⟨0x1⟩

/-- The certificate has expired. -/
def expired : CertificateFailures := ⟨0x2⟩

/-- The certificate is for another host. -/
def nameMismatch : CertificateFailures := ⟨0x4⟩

/-- The issuer of the certificate is unknown. -/
def unknownIssuer : CertificateFailures := ⟨0x8⟩

/-- Any other failure. -/
def other : CertificateFailures := ⟨0x40000000⟩

/-- The failures with a name, in the order of their bits. -/
def named : List (String × CertificateFailures) :=
  [("not-yet-valid", notYetValid), ("expired", expired), ("cn-mismatch", nameMismatch),
    ("unknown-ca", unknownIssuer), ("other", other)]

/-- The failures of either set. -/
def union (left right : CertificateFailures) : CertificateFailures :=
  ⟨left.mask ||| right.mask⟩

/-- Whether every failure of `part` is in `whole`. -/
def contains (whole part : CertificateFailures) : Bool :=
  whole.mask &&& part.mask = part.mask

/-- Whether there is no failure. -/
def isEmpty (failures : CertificateFailures) : Bool :=
  failures.mask = 0

/-- The names of the failures, in the order of their bits. -/
def names (failures : CertificateFailures) : List String :=
  (named.filter fun entry => failures.contains entry.2).map Prod.fst

/-- A name in the spelling of `named`: blanks and letter case do not count, `_` is `-`. -/
def spelling (name : String) : String :=
  String.ofList ((keyword (trimBlank name)).toList.map fun char => if char = '_' then '-' else char)

/-- The failure with a name. -/
def ofName? (name : String) : Option CertificateFailures :=
  (named.find? fun entry => entry.1 = spelling name).map Prod.snd

end CertificateFailures

end Checkout
