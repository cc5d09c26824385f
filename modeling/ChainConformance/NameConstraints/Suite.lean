import ChainConformance.NameConstraints.Oracle

/-!
# The name-constraints suite

Test 0 is the sanity test and tests 1 to 5 represent features. After them come one smuggling test,
all combinations of the fixture's parts, and the tests that hide the requested name in an entry of
a foreign type or behind a separator.
-/

namespace ChainConformance.NameConstraints

/-! ## Feature tests -/

def sanityFixture : Fixture := { Fixture.bare with commonName := .valid, dnsSan := .valid }

def featureFixtures : List Fixture :=
  [{ sanityFixture with permittedDns := .valid },
   { Fixture.bare with dnsSan := .valid },
   { Fixture.bare with dnsSan := .invalid },
   { Fixture.bare with client := .ip, commonNameKind := .ip, ipSan := .valid },
   { Fixture.bare with client := .ip, commonNameKind := .ip, ipSan := .invalid }]

/-! ## Combinations -/

/-- Every fixture without an extra entry. The parts that come later here vary faster. -/
def combinations : List Fixture :=
  NameKind.all.flatMap fun client =>
  NameKind.all.flatMap fun commonNameKind =>
  Quality.all.flatMap fun commonName =>
  Quality.all.flatMap fun dnsSan =>
  Quality.all.flatMap fun ipSan =>
  Quality.all.flatMap fun permittedDns =>
  Quality.all.flatMap fun permittedIp =>
  Quality.all.flatMap fun excludedDns =>
  Quality.all.map fun excludedIp =>
    ⟨client, commonNameKind, commonName, dnsSan, ipSan, permittedIp, permittedDns, excludedIp,
      excludedDns, none⟩

/-! ## Smuggling -/

/-- The fixtures of a client whose requested name stands only in the extra entry: the plain entry
is another name, and the constraints exclude the requested one in one of two ways. -/
def dnsSmuggling (extra : ExtraName) : List Fixture :=
  let base := { Fixture.bare with dnsSan := .invalid, extra := some extra }
  [{ base with permittedDns := .invalid }, { base with excludedDns := .valid }]

def ipSmuggling (extra : ExtraName) : List Fixture :=
  let base := { Fixture.bare with client := .ip, ipSan := .invalid, extra := some extra }
  [{ base with permittedIp := .invalid }, { base with excludedIp := .valid }]

/-- The tags under which the requested name is hidden. -/
def smuggleTags : List UInt8 := (List.range 16).map UInt8.ofNat

def dnsEncodings : List String :=
  ["", "http://", "https://", "spiffe://", "unspec://"].map (· ++ validDnsName)

def ipEncodings : List Bytes := [validIp, Bytes.ofString validIpText]

/-- The requested name under a foreign tag, plainly or in the form of a URL. -/
def foreignTags : List Fixture :=
  smuggleTags.flatMap fun tag =>
    dnsEncodings.flatMap (fun text => dnsSmuggling ⟨tag, Bytes.ofString text⟩) ++
      ipEncodings.flatMap fun bytes => ipSmuggling ⟨tag, bytes⟩

/-- The requested name after another one and a separator. -/
def separators : List Fixture :=
  [", ", ",", ";", ":"].flatMap fun separator =>
  ["", "DNS:"].flatMap fun lead =>
  [invalidDnsName, "http://" ++ invalidDnsName].flatMap fun first =>
  smuggleTags.flatMap fun tag =>
    dnsSmuggling ⟨tag, Bytes.ofString (first ++ separator ++ lead ++ validDnsName)⟩

/-- The single smuggling test before the combinations. -/
def urlSmuggling : Fixture :=
  { Fixture.bare with
    dnsSan := .invalid
    excludedDns := .valid
    extra := some ⟨6, Bytes.ofString ("http://foo.bar, DNS:" ++ validDnsName)⟩ }

/-- The fixtures of the suite, in order. -/
def fixtures : List Fixture :=
  sanityFixture :: featureFixtures ++ urlSmuggling :: combinations ++ foreignTags ++ separators

/-! ## The suite -/

def suiteName : String := "nameconstraints"

def featureName (f : Feature) : Except Error String :=
  if f = enforcesConstraints then .ok "NAME_CONSTRAINTS"
  else if f = validatesDns then .ok "VALIDATE_DNS"
  else if f = validatesIp then .ok "VALIDATE_IP"
  else .error (.unknownFeature suiteName f)

def representatives (f : Feature) : Except Error (List Nat) :=
  if f = enforcesConstraints then .ok [1]
  else if f = validatesDns then .ok [2, 3]
  else if f = validatesIp then .ok [4, 5]
  else .error (.unknownFeature suiteName f)

def suite : Except Error (Suite Fixture) := do
  let tests := (← fixtures.mapM Fixture.toTest).toArray
  return {
    name := suiteName
    count := tests.size
    test := Suite.testOf suiteName tests
    sanityIndex := 0
    features := [enforcesConstraints, validatesDns, validatesIp]
    featureName := featureName
    representatives := representatives }

end ChainConformance.NameConstraints
