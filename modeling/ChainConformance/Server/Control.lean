import ChainConformance.Server.Selection
import ChainConformance.Text.FormData

/-!
# The control plane of a server

Requests that fetch the root, list the suites, select a test or describe one. Only a successful
`POST /setTest` changes the server.
-/

namespace ChainConformance.Server

/-- A request: the path without the query, and the query after its question mark. -/
structure Request where
  method : String
  path : String
  query : String
  body : Bytes
  deriving DecidableEq, Repr

/-- A response. Any origin may read it. -/
structure Response where
  status : Nat
  contentType : Option String
  body : Bytes
  deriving DecidableEq, Repr

namespace Response

def empty (status : Nat) : Response := ⟨status, none, []⟩

def text (status : Nat) (body : String) : Response :=
  ⟨status, some "text/plain; charset=utf-8", Bytes.ofString body⟩

def json (v : Json) : Response := ⟨200, some "application/json", Bytes.ofString v.compact⟩

/-- The response that a failed request gets. -/
def badRequest (e : Error) : Response := text 400 e.message

end Response

/-! ## Listing the suites -/

/-- The representative tests of every feature of a suite. -/
def featureTests {σ : Type} (s : Suite σ) : Except Error (SortedMap UInt32 (List Nat)) := do
  return .ofList (← s.features.mapM fun f => return (f, ← s.representatives f))

def suiteJson {σ : Type} (s : Suite σ) : Except Error Json := do
  let tests ← featureTests s
  return .obj [
    ("featureTestCases",
      .obj (tests.entries.map fun e => (Text.decimal e.1.toNat, .list .nat e.2))),
    ("sanityCheckTestCase", .nat s.sanityIndex),
    ("testCount", .nat s.count)]

def suitesResponse (c : Collection) : Response :=
  match c.suites.mapM fun s => return (s.name, ← suiteJson s) with
  | .error e => Response.text 500 (Error.message e)
  | .ok suites =>
    .json (.obj [("suites", .obj (SortedMap.ofList suites).entries),
      ("version", .str Collection.version)])

/-! ## Selecting and describing tests -/

/-- The suite and the index in the body of a request. -/
def readSelection? (body : Bytes) : Option (String × Nat) := do
  let [suite, index] ← (← Json.read (← Json.text? body)).asRecord? ["suite", "testCase"] | none
  return (← suite.asString?, ← index.asNat? Text.indexLimit)

/-- The size of the largest body that is read. -/
def bodyLimit : Nat := 2 * 1024 * 1024

/-- Selects the test that the body names. -/
def setTest (s : Server) (body : Bytes) : Server × Response :=
  if bodyLimit < body.length then
    (s, .text 413 "Failed to buffer the request body: length limit exceeded")
  else match readSelection? body with
  | none =>
    (s, Response.text 400 ("failed to parse request body: " ++ (Error.json).detail))
  | some (suite, index) =>
    match s.select suite index with
    | .error e => (s, .badRequest e)
    | .ok selected => (selected, .empty 200)

/-- The suite and the index in a query. -/
def readQuery? (query : String) : Option (String × Nat) := do
  let pairs := FormData.read query
  let suite ← FormData.once? pairs "suite"
  let index ← FormData.once? pairs "testCase"
  return (suite, ← (Text.Numeral.read Text.indexLimit index.toList).toOption)

def describeTest (suite : String) (index : Nat) (t : TestCase AnyScenario) : Json :=
  .obj [
    ("suite", .str suite),
    ("testId", .nat index),
    ("hostname", .str t.hostname),
    ("expectedResult", .str t.expected.name),
    ("requiredFeatures", .list (fun f => .nat (UInt32.toNat f)) t.features),
    ("definition", t.definition)]

def getTest (s : Server) (query : String) : Response :=
  match readQuery? query with
  | none =>
    Response.text 400 ("Failed to deserialize query string: " ++ (Error.json).detail)
  | some (suite, index) =>
    match s.collection.test suite index with
    | .error e => .badRequest e
    | .ok t => .json (describeTest suite index t)

/-! ## Requests -/

/-- The response to a request for something that can only be fetched. A request for the head gets
no body. -/
def fetched (r : Request) (response : Response) : Response :=
  if r.method = "GET" then response
  else if r.method = "HEAD" then { response with body := [] }
  else .empty 405

/-- The server after a request, and the response. -/
def handle (s : Server) (r : Request) : Server × Response :=
  match r.path with
  | "/root.crt" =>
    (s, fetched r ⟨200, some "application/x-x509-ca-cert", s.collection.root.certificate⟩)
  | "/root.pem" =>
    (s, fetched r ⟨200, some "application/x-pem-file",
      Bytes.ofString s.collection.root.certificatePem⟩)
  | "/suites" => (s, fetched r (suitesResponse s.collection))
  | "/setTest" => if r.method = "POST" then s.setTest r.body else (s, .empty 405)
  | "/getTest" => (s, fetched r (s.getTest r.query))
  | "/ok" => (s, fetched r (.text 200 "OK"))
  | _ => (s, .empty 404)

end ChainConformance.Server
