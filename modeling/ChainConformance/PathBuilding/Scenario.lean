import ChainConformance.Json.Sorted
import ChainConformance.Suite.Basic
import ChainConformance.TrustGraph.Catalog

/-!
# Path-building scenarios

A scenario picks a trust graph, the node that the client trusts, the node whose certificate is the
leaf, and the edges whose certificates are defective. A correct client accepts if and only if a
path of sound edges leads from the trusted node to the leaf.
-/

namespace ChainConformance.PathBuilding

/-- How the certificate of a broken edge is made invalid. -/
inductive Defect where
  | expired
  | nameConstraints
  | badEku
  | missingBasicConstraints
  | notACa
  | deprecatedCrypto
  deriving DecidableEq, Repr

namespace Defect

def all : List Defect :=
  [.expired, .nameConstraints, .badEku, .missingBasicConstraints, .notACa, .deprecatedCrypto]

/-- The number on the wire; zero is left for the absence of a defect. -/
def code : Defect → UInt32
  | .expired => 1
  | .nameConstraints => 2
  | .badEku => 3
  | .missingBasicConstraints => 4
  | .notACa => 5
  | .deprecatedCrypto => 6

/-- The defect with a number on the wire, if the number is not zero. -/
def ofCode (n : UInt32) : Except Error (Option Defect) :=
  if n = 0 then .ok none
  else match all.find? (·.code = n) with
    | some d => .ok (some d)
    | none => .error (.defectCode n.toNat)

def name : Defect → String
  | .expired => "EXPIRED"
  | .nameConstraints => "NAME_CONSTRAINTS"
  | .badEku => "BAD_EKU"
  | .missingBasicConstraints => "MISSING_BASIC_CONSTRAINTS"
  | .notACa => "NOT_A_CA"
  | .deprecatedCrypto => "DEPRECATED_CRYPTO"

def ofName? (s : String) : Option Defect := all.find? (·.name = s)

/-- What a client needs to notice the defect. -/
def feature (d : Defect) : Feature := d.code + 1

end Defect

/-- A scenario over a trust graph. With broken edges but no defect it is a template. -/
structure Scenario where
  graph : TrustGraph
  source : String
  target : String
  broken : List Edge
  defect : Option Defect
  /-- The author's hint that no path exists; it decides nothing. -/
  expectFailure : Bool
  comment : String
  deriving DecidableEq, Repr

/-- The host name that the client asks for. -/
def hostname : String := "localhost"

/-- What a client needs to try more than one path. -/
def branching : Feature := 0

namespace Scenario

/-- The scenario in which every edge is sound. -/
def sound (graph : TrustGraph) (source target : String) : Scenario :=
  ⟨graph, source, target, [], none, false, ""⟩

/-- Whether the scenario stands for one test per defect. -/
def isTemplate (s : Scenario) : Bool := !s.broken.isEmpty && s.defect.isNone

/-- The path that a correct client finds. -/
def path? (s : Scenario) : Option (List String) := s.graph.path? s.broken s.source s.target

def expected (s : Scenario) : Expectation := if s.path?.isSome then .pass else .fail

def features (s : Scenario) : List Feature :=
  (if s.graph.name = TrustGraph.linear.name then [] else [branching]) ++
    (if s.broken.isEmpty then [] else s.defect.toList.map Defect.feature)

/-- The fields of the scenario in order; an empty comment is left out. -/
def toJson (s : Scenario) : Json :=
  .obj ([("trustGraph", .str s.graph.name), ("srcNode", .str s.source), ("dstNode", .str s.target),
    ("invalidEdges", .list Edge.toJson s.broken),
    ("invalidReason", .option (fun d => .str (Defect.name d)) s.defect),
    ("expectFailure", .bool s.expectFailure)] ++
    (if s.comment = "" then [] else [("comment", .str s.comment)]))

def toTest (s : Scenario) : TestCase Scenario :=
  ⟨s, s.expected, hostname, s.features, s.toJson.sorted⟩

end Scenario

end ChainConformance.PathBuilding
