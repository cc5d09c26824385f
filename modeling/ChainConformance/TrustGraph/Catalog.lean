import ChainConformance.Error
import ChainConformance.TrustGraph.Search

/-!
# Catalogs of trust graphs

A catalog numbers graphs; identifiers refer to a graph by its number. The standard catalog holds
four graphs. Their order, their names and the order of their edges are part of what an identifier
means, so a change of any of them asks for a new version.
-/

namespace ChainConformance

/-- Graphs in a fixed order, with a version for that order. -/
structure Catalog where
  version : UInt32
  graphs : List TrustGraph
  deriving DecidableEq, Repr

namespace Catalog

def get? (c : Catalog) (index : Nat) : Option TrustGraph := c.graphs[index]?

/-- The number of the first graph with the name. -/
def indexOf? (c : Catalog) (name : String) : Option Nat := c.graphs.findIdx? (·.name = name)

/-- The first graph with the name. -/
def graph (c : Catalog) (name : String) : Except Error TrustGraph :=
  match c.graphs.find? (·.name = name) with
  | some g => .ok g
  | none => .error (.unknownGraph name)

def toJson (c : Catalog) : Json :=
  .obj [("version", .nat c.version.toNat), ("graphs", .list TrustGraph.toJson c.graphs)]

end Catalog

namespace TrustGraph

/-! ## The standard graphs -/

/-- Two roots that certify the same intermediate. -/
def twoRoots : TrustGraph :=
  .ofPairs "TWO_ROOTS" [("ICA", "EE"), ("Root1", "ICA"), ("Root2", "ICA")]

/-- A root, one intermediate and a leaf. -/
def linear : TrustGraph :=
  .ofPairs "LINEAR_TRUST_GRAPH" [("ICA", "EE"), ("Trust Anchor", "ICA")]

/-- Two intermediates that certify each other, RFC 4158 figure 7. -/
def figureSeven : TrustGraph :=
  .ofPairs "FIGURE_SEVEN"
    [("B", "EE"), ("C", "B"), ("A", "B"), ("C", "A"), ("A", "C"), ("Trust Anchor", "C"),
     ("Trust Anchor", "A")]

/-- Four infrastructures joined by a bridge, RFC 4158 figure 2. -/
def bridgeCa : TrustGraph :=
  .ofPairs "BRIDGE_CA_PKI"
    [("F", "H"), ("F", "G"), ("G", "F"), ("H", "I"), ("I", "H"), ("G", "I"), ("TA W", "F"),
     ("TA W", "G"), ("J", "K"), ("N", "EE"), ("L", "N"), ("L", "M"), ("TA X", "J"),
     ("TA X", "L"), ("B", "E"), ("B", "D"), ("A", "B"), ("C", "B"), ("A", "C"), ("C", "A"),
     ("TA Y", "A"), ("TA Y", "C"), ("R", "S"), ("O", "R"), ("O", "Q"), ("P", "S"),
     ("TA Z", "O"), ("TA Z", "P"), ("TA W", "Bridge CA"), ("Bridge CA", "TA W"),
     ("TA X", "Bridge CA"), ("Bridge CA", "TA X"), ("TA Y", "Bridge CA"), ("Bridge CA", "TA Y"),
     ("TA Z", "Bridge CA"), ("Bridge CA", "TA Z")]

end TrustGraph

/-- The graphs that the suites are made from. -/
def Catalog.standard : Catalog :=
  ⟨1, [TrustGraph.twoRoots, TrustGraph.linear, TrustGraph.figureSeven, TrustGraph.bridgeCa]⟩

end ChainConformance
