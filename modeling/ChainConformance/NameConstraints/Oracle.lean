import ChainConformance.NameConstraints.Fixture

/-!
# The expectation of a fixture

The requested name must stand among the subject alternative names; a common name in its place is a
soft failure. Constraints that exclude the requested name are a failure, constraints that only
another alternative name violates a soft failure, and constraints that only the common name
violates a soft pass.
-/

namespace ChainConformance.NameConstraints

/-- Whether a name of the given quality is excluded, or not permitted though others are. -/
def violates (value permitted excluded : Quality) : Bool :=
  match value with
  | .absent => false
  | .valid => permitted = .invalid || excluded = .valid
  | .invalid => permitted = .valid || excluded = .invalid

namespace Fixture

/-- Whether a name of a kind and quality violates the constraints. -/
def violatesConstraints (f : Fixture) (kind : NameKind) (value : Quality) : Bool :=
  violates value (f.permitted kind) (f.excluded kind)

/-- Whether only the common name carries the requested name. -/
def commonNameStandsIn (f : Fixture) : Bool :=
  f.commonNameKind = f.client && f.commonName = .valid

/-- The expectation, or an error if a fixture were to be both a soft pass and a soft failure. -/
def expected (f : Fixture) : Except Error Expectation :=
  let named := f.san f.client = .valid
  if !named && !f.commonNameStandsIn then .ok .fail
  else if f.violatesConstraints f.client .valid then .ok .fail
  else
    let sanViolation := NameKind.all.any fun k => f.violatesConstraints k (f.san k)
    let nameViolation := f.violatesConstraints f.commonNameKind f.commonName
    let softFail := !named || sanViolation
    let softPass := !sanViolation && nameViolation
    match softFail, softPass with
    | true, true => .error .softBothWays
    | true, false => .ok .softFail
    | false, true => .ok .softPass
    | false, false => .ok .pass

def toTest (f : Fixture) : Except Error (TestCase Fixture) := do
  return ⟨f, ← f.expected, f.hostname, f.features, f.toJson.sorted⟩

end Fixture

end ChainConformance.NameConstraints
