import ChainConformance.TrustGraph.Basic

/-!
# Paths through a trust graph

`TrustGraph.path?` looks for a path along edges that are not broken: depth first, edges in the
order of declaration, never back to a node that is already on the path. The depth of the search is
bounded by the number of nodes that are not on the path yet.
-/

namespace ChainConformance.TrustGraph

/-- Extends `path`, which ends in `current`, to `dst` in less than `depth` further steps. -/
def searchWithin (g : TrustGraph) (broken : List Edge) (dst : String) :
    (depth : Nat) → (path : List String) → (current : String) → Option (List String)
  | 0, _, _ => none
  | depth + 1, path, current =>
    if current = dst then some path
    else g.edges.findSome? fun e =>
      if e.source = current ∧ e ∉ broken ∧ e.destination ∉ path then
        searchWithin g broken dst depth (path ++ [e.destination]) e.destination
      else none

/-- The number of nodes that are not on the path. -/
def freeNodes (g : TrustGraph) (path : List String) : Nat :=
  (g.nodes.filter (· ∉ path)).length

/-- The first extension of a path to `dst`, if there is one. -/
def search (g : TrustGraph) (broken : List Edge) (dst : String) (path : List String) :
    Option (List String) :=
  match path.getLast? with
  | none => none
  | some current => searchWithin g broken dst (g.freeNodes path + 1) path current

/-- The first path from `src` to `dst`. The names need not be nodes of the graph. -/
def path? (g : TrustGraph) (broken : List Edge) (src dst : String) : Option (List String) :=
  g.search broken dst [src]

end ChainConformance.TrustGraph
