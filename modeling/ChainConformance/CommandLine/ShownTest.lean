import ChainConformance.Client.Command
import ChainConformance.CommandLine.Environment
import ChainConformance.CommandLine.Request
import ChainConformance.X509.Description

/-!
# Showing a test

One test with the certificates that it presents: as lines, as JSON, or only the certificates as PEM.
-/

namespace ChainConformance.CommandLine

variable {m : Type → Type} [Monad m]

open Job

/-- A test and the certificates that it presents. -/
structure ShownTest where
  suite : String
  index : Nat
  test : TestCase AnyScenario
  features : List String
  chain : List X509.Description

namespace ShownTest

def toJson (t : ShownTest) : Json :=
  .obj [("suite", .str t.suite), ("testCase", .nat t.index), ("hostname", .str t.test.hostname),
    ("expectedResult", .str t.test.expected.name), ("requiredFeatures", .list .str t.features),
    ("definition", t.test.definition), ("chain", .list X509.Description.toJson t.chain)]

/-- One line for a certificate. -/
def certificateLine (d : X509.Description) : String :=
  "depth " ++ Text.decimal d.depth ++ ": subject = " ++ d.subject ++ ", issuer = " ++ d.issuer ++
    ", serial = " ++ d.serial ++ ", ca = " ++ (if d.isCa then "true" else "false") ++ ", sig = " ++
    d.signatureAlgorithm

def lines (t : ShownTest) : List String :=
  ["suite:    " ++ t.suite, "test:     " ++ Text.decimal t.index,
   "hostname: " ++ t.test.hostname, "expected: " ++ t.test.expected.name,
   "features: " ++ Text.join ", " t.features, "definition: " ++ t.test.definition.compact] ++
    t.chain.map certificateLine

end ShownTest

def showTest (e : Environment m) (c : Collection) (suite : String) (index : Nat) (view : TestView) :
    Job m Unit := do
  let s ← lift (c.suite suite)
  let test ← lift (s.test index)
  let chain ← check (.because "Failed to generate certificates")
    (c.chain (e.draws suite index) test)
  let certificates := chain.der e.sign
  if view = .pem then print (ClientCommand.chainPem certificates)
  else
    let features ← lift (test.features.mapM s.featureName)
    let shown : ShownTest :=
      ⟨s.name, index, test, features, ← lift (X509.Description.chain certificates)⟩
    if view = .json then printLine shown.toJson.pretty
    else shown.lines.forM fun line => printLine line

end ChainConformance.CommandLine
