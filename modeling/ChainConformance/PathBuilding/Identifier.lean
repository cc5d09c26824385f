import ChainConformance.Wire.Field

/-!
# Identifiers of path-building scenarios

An identifier holds the numbers that stand for a scenario in a catalog. On the wire it is a message
of five fields: graph, source, target, broken edges and defect under the tags 1 to 5. The reader
passes over other fields, takes the last value of a repeated scalar, keeps the lowest 32 bits of
each number and reads edges one by one, packed or both.
-/

namespace ChainConformance.PathBuilding

/-- The numbers that stand for a scenario. -/
structure Identifier where
  graph : UInt32
  source : UInt32
  target : UInt32
  broken : List UInt32
  defect : UInt32
  deriving DecidableEq, Repr

namespace Identifier

/-- A fault with the field in which it occurred. -/
abbrev Fault := Option String × Wire.Fault

/-- The identifier without any field. -/
def empty : Identifier := ⟨0, 0, 0, [], 0⟩

/-- The wire form: zeros and the empty list are left out, edges are packed. -/
def toBytes (m : Identifier) : Bytes :=
  Wire.writeNumber 1 m.graph.toNat ++ Wire.writeNumber 2 m.source.toNat ++
    Wire.writeNumber 3 m.target.toNat ++ Wire.writePacked 4 (m.broken.map (·.toNat)) ++
    Wire.writeNumber 5 m.defect.toNat

private def within {α : Type} (field : String) (r : Except Wire.Fault α) : Except Fault α :=
  r.mapError (some field, ·)

/-- Reads a number that its wire type must announce. -/
def scalar (wire : Wire.WireType) (s : Bytes) : Except Wire.Fault (UInt32 × Bytes) := do
  if wire ≠ .varint then throw (.unexpectedWireType wire .varint)
  let (n, rest) ← Wire.number s
  return (UInt32.ofNat n, rest)

/-- Reads broken edges, packed or a single one. -/
def edges (wire : Wire.WireType) (s : Bytes) : Except Wire.Fault (List UInt32 × Bytes) := do
  if wire = .lengthDelimited then
    let (ns, rest) ← Wire.packed s
    return (ns.map UInt32.ofNat, rest)
  let (n, rest) ← scalar wire s
  return ([n], rest)

/-- Reads the contents of one field into the identifier. -/
def readField (m : Identifier) (tag : Nat) (wire : Wire.WireType) (s : Bytes) :
    Except Fault (Identifier × Bytes) :=
  match tag with
  | 1 => (within "trust_graph" (scalar wire s)).map fun r => ({ m with graph := r.1 }, r.2)
  | 2 => (within "src_node" (scalar wire s)).map fun r => ({ m with source := r.1 }, r.2)
  | 3 => (within "dst_node" (scalar wire s)).map fun r => ({ m with target := r.1 }, r.2)
  | 4 => (within "invalid_edges" (edges wire s)).map fun r =>
    ({ m with broken := m.broken ++ r.1 }, r.2)
  | 5 => (within "invalid_reason" (scalar wire s)).map fun r => ({ m with defect := r.1 }, r.2)
  | _ => ((Wire.skip Wire.maxDepth tag wire s).mapError (none, ·)).map fun rest => (m, rest)

/-- Reads fields into the identifier up to the end. Every field takes a byte at least. -/
def readFields : (steps : Nat) → Identifier → Bytes → Except Fault Identifier
  | _, m, [] => .ok m
  | 0, _, _ :: _ => .error (none, .underflow)
  | steps + 1, m, x :: s => do
    let ((tag, wire), rest) ← (Wire.key (x :: s)).mapError (none, ·)
    let (m, rest) ← readField m tag wire rest
    readFields steps m rest

def ofBytes (s : Bytes) : Except Fault Identifier := readFields s.length empty s

end Identifier

end ChainConformance.PathBuilding
