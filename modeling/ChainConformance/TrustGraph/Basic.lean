import ChainConformance.Json.Basic

/-!
# Trust graphs

A trust graph names entities of a public-key infrastructure and says which of them issue
certificates for which. The edges keep the order in which they were declared; the nodes are the
endpoints of the edges, each once, in rising order. Both orders number them in identifiers.
-/

namespace ChainConformance

/-- `source` issues a certificate for `destination`. -/
structure Edge where
  source : String
  destination : String
  deriving DecidableEq, Repr

/-- A named list of edges. -/
structure TrustGraph where
  name : String
  edges : List Edge
  deriving DecidableEq, Repr

def Edge.toJson (e : Edge) : Json :=
  .obj [("source", .str e.source), ("destination", .str e.destination)]

namespace TrustGraph

/-- The name put into its place in a strictly rising list. -/
def insertName (name : String) : List String → List String
  | [] => [name]
  | other :: rest =>
    match compare name other with
    | .lt => name :: other :: rest
    | .eq => other :: rest
    | .gt => other :: insertName name rest

/-- The endpoints of the edges, each once, in rising order. -/
def nodes (g : TrustGraph) : List String :=
  (g.edges.flatMap fun e => [e.source, e.destination]).foldr insertName []

/-- The position of the first element equal to `x`. -/
def indexOf? {α : Type} [DecidableEq α] (x : α) (xs : List α) : Option Nat :=
  xs.findIdx? (· = x)

def nodeIndex? (g : TrustGraph) (name : String) : Option Nat := indexOf? name g.nodes

/-- The position at which the edge is first declared. -/
def edgeIndex? (g : TrustGraph) (e : Edge) : Option Nat := indexOf? e g.edges

def toJson (g : TrustGraph) : Json :=
  .obj [("name", .str g.name), ("nodes", .list .str g.nodes), ("edges", .list Edge.toJson g.edges)]

/-- A graph whose edges are given as pairs of names. -/
def ofPairs (name : String) (pairs : List (String × String)) : TrustGraph :=
  ⟨name, pairs.map fun p => ⟨p.1, p.2⟩⟩

end TrustGraph

end ChainConformance
