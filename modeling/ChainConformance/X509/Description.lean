import ChainConformance.Crypto.Sha256
import ChainConformance.Error
import ChainConformance.X509.Certificate

/-!
# Descriptions of chains

What a person wants to know about each certificate of a chain when a test fails.
-/

namespace ChainConformance.X509

/-- One certificate of a chain; depth 0 is the leaf. -/
structure Description where
  depth : Nat
  subject : String
  issuer : String
  shortName : String
  serial : String
  isCa : Bool
  signatureAlgorithm : String
  notBefore : Int
  notAfter : Int
  dnsNames : List String
  serverAuth : Option Bool
  fingerprint : String
  deriving DecidableEq, Repr

namespace Description

/-- The serial number without leading zeros, a single zero for zero. -/
def serialText (serial : Bytes) : String :=
  let digits := serial.dropWhile (· = 0)
  String.ofList (Bytes.hexColon (if digits.isEmpty then [0] else digits))

def ofCertificate (depth : Nat) (c : Certificate) (der : Bytes) : Description where
  depth := depth
  subject := c.subject.render
  issuer := c.issuer.render
  shortName := c.subject.short
  serial := serialText c.serial
  isCa := c.isCa
  signatureAlgorithm := Oid.render c.signatureAlgorithm
  notBefore := c.notBefore
  notAfter := c.notAfter
  dnsNames := c.dnsNames
  serverAuth := c.allowsServers?
  fingerprint := String.ofList (Bytes.hexColon (Sha256.digest der))

/-- The descriptions of certificates, the first of which stands at `depth`. -/
def chainFrom (depth : Nat) : List Bytes → Except Error (List Description)
  | [] => .ok []
  | der :: rest =>
    match Certificate.read? der with
    | none => .error (.certificate (.atDepth depth))
    | some c => (chainFrom (depth + 1) rest).map (ofCertificate depth c der :: ·)

/-- The descriptions of a chain, leaf first. -/
def chain (certificates : List Bytes) : Except Error (List Description) :=
  chainFrom 0 certificates

def toJson (d : Description) : Json :=
  .obj [("depth", .nat d.depth), ("subject", .str d.subject), ("issuer", .str d.issuer),
    ("shortName", .str d.shortName), ("serial", .str d.serial), ("isCa", .bool d.isCa),
    ("signatureAlgorithm", .str d.signatureAlgorithm), ("notBefore", .int d.notBefore),
    ("notAfter", .int d.notAfter), ("dnsNames", .list .str d.dnsNames),
    ("serverAuth", .option .bool d.serverAuth), ("fingerprintSha256", .str d.fingerprint)]

end Description

end ChainConformance.X509
