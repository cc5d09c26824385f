import ChainConformance.Bytes
import ChainConformance.Json.Sorted
import ChainConformance.Suite.Basic

/-!
# Name-constraints fixtures

A fixture says what the client asks for, which names the leaf certificate carries, and which names
the intermediate above it permits and excludes. Each of these is absent, fits the name that the
client asks for, or does not.
-/

namespace ChainConformance.NameConstraints

/-- Whether something is absent, fits the requested name, or does not. -/
inductive Quality where
  | absent
  | valid
  | invalid
  deriving DecidableEq, Repr

/-- The two kinds of names that a client can ask for. -/
inductive NameKind where
  | dns
  | ip
  deriving DecidableEq, Repr

/-- A further entry of the subject alternative names: any tag with any contents. -/
structure ExtraName where
  tag : UInt8
  value : Bytes
  deriving DecidableEq, Repr

structure Fixture where
  client : NameKind
  commonNameKind : NameKind
  commonName : Quality
  dnsSan : Quality
  ipSan : Quality
  permittedIp : Quality
  permittedDns : Quality
  excludedIp : Quality
  excludedDns : Quality
  extra : Option ExtraName
  deriving DecidableEq, Repr

/-! ## Names -/

def validDnsName : String := "test.localhost"
def invalidDnsName : String := "bad.example.com"
def validIp : Bytes := [127, 0, 0, 1]
def invalidIp : Bytes := [1, 1, 1, 1]
def validIpText : String := "127.0.0.1"
def invalidIpText : String := "1.1.1.1"

def Quality.all : List Quality := [.absent, .valid, .invalid]

def Quality.name : Quality → String
  | .absent => "NONE"
  | .valid => "VALID"
  | .invalid => "INVALID"

def Quality.ofName? (s : String) : Option Quality := Quality.all.find? (·.name = s)

def NameKind.all : List NameKind := [.dns, .ip]

def NameKind.name : NameKind → String
  | .dns => "DNS"
  | .ip => "IP"

def NameKind.ofName? (s : String) : Option NameKind := NameKind.all.find? (·.name = s)

def ExtraName.toJson (e : ExtraName) : Json :=
  .obj [("tag", .nat e.tag.toNat), ("value", .str (Bytes.hex e.value))]

/-! ## Features -/

/-- What a client needs to enforce name constraints at all. -/
def enforcesConstraints : Feature := 1

/-- What a client needs to compare DNS names. -/
def validatesDns : Feature := 2

/-- What a client needs to compare IP addresses. -/
def validatesIp : Feature := 3

namespace Fixture

/-- A DNS client, and nothing else. -/
def bare : Fixture :=
  ⟨.dns, .dns, .absent, .absent, .absent, .absent, .absent, .absent, .absent, none⟩

/-- The name that the client asks for. -/
def hostname (f : Fixture) : String :=
  match f.client with
  | .dns => validDnsName
  | .ip => validIpText

/-- The common name of the leaf. -/
def commonNameText? (f : Fixture) : Option String :=
  match f.commonName, f.commonNameKind with
  | .absent, _ => none
  | .valid, .dns => some validDnsName
  | .valid, .ip => some validIpText
  | .invalid, .dns => some invalidDnsName
  | .invalid, .ip => some invalidIpText

/-- The names of a kind that are permitted. -/
def permitted (f : Fixture) : NameKind → Quality
  | .dns => f.permittedDns
  | .ip => f.permittedIp

/-- The names of a kind that are excluded. -/
def excluded (f : Fixture) : NameKind → Quality
  | .dns => f.excludedDns
  | .ip => f.excludedIp

/-- The subject alternative name of a kind. -/
def san (f : Fixture) : NameKind → Quality
  | .dns => f.dnsSan
  | .ip => f.ipSan

def isConstrained (f : Fixture) : Bool :=
  NameKind.all.any fun k => f.permitted k ≠ .absent || f.excluded k ≠ .absent

/-- What a client needs for the expectation to mean anything. -/
def features (f : Fixture) : List Feature :=
  (if f.isConstrained then [enforcesConstraints] else []) ++
    (if f.san f.client = .valid then []
     else match f.client with
      | .dns => [validatesDns]
      | .ip => [validatesIp])

/-- The fields of the fixture in order; an absent extra entry is left out. -/
def toJson (f : Fixture) : Json :=
  .obj ([("clientHostnameType", .str f.client.name), ("commonNameType", .str f.commonNameKind.name),
    ("commonNameValue", .str f.commonName.name), ("dnsSan", .str f.dnsSan.name),
    ("ipSan", .str f.ipSan.name), ("nameConstraintsIpWhitelist", .str f.permittedIp.name),
    ("nameConstraintsDnsWhitelist", .str f.permittedDns.name),
    ("nameConstraintsIpBlacklist", .str f.excludedIp.name),
    ("nameConstraintsDnsBlacklist", .str f.excludedDns.name)] ++
    f.extra.toList.map fun e => ("extraSan", e.toJson))

end Fixture

end ChainConformance.NameConstraints
