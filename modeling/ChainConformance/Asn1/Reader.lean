import ChainConformance.Bytes

/-!
# Reading DER elements

`Der.element` reads one element from the front of a byte string. It accepts lengths with leading
zeros, refuses indefinite lengths and long forms of lengths below 127, and tells input that ends too
early from input that is wrong, because lists of elements end quietly at the former.
-/

namespace ChainConformance.Der

/-- Why no element was read. -/
inductive Fault where
  | truncated
  | malformed
  deriving DecidableEq, Repr

/-- An element with its class, its tag number and its contents. -/
structure Element where
  cls : Nat
  constructed : Bool
  tag : Nat
  contents : Bytes
  /-- The element as it was read, header included. -/
  raw : Bytes
  deriving DecidableEq, Repr

/-- The rest of a tag number above 30, of which `count` bytes have been read. -/
def longTag (count tag : Nat) : Bytes → Except Fault (Nat × Bytes)
  | [] => .error .malformed
  | x :: rest =>
    if 5 < count then .error .malformed
    else
      let tag := (tag * 128 + x.toNat % 128) % UInt32.size
      if x < 128 then .ok (tag, rest) else longTag (count + 1) tag rest

/-- The first `n` bytes. -/
def take (n : Nat) (s : Bytes) : Except Fault (Bytes × Bytes) :=
  if n ≤ s.length then .ok (s.take n, s.drop n) else .error .truncated

/-- The definite length in front of the contents. -/
def contentsLength : Bytes → Except Fault (Nat × Bytes)
  | [] => .error .truncated
  | x :: rest =>
    if x < 128 then .ok (x.toNat, rest)
    else if x = 128 ∨ x = 255 then .error .malformed
    else do
      let (octets, rest) ← take (x.toNat - 128) rest
      let n := Bytes.toNat octets
      if n < 127 ∨ UInt64.size ≤ n then throw .malformed
      return (n, rest)

/-- Class, constructed form and tag number of an element with the length of its contents. -/
structure Header where
  cls : Nat
  constructed : Bool
  tag : Nat
  length : Nat
  deriving DecidableEq, Repr

/-- What stands before the contents of an element. -/
def header : Bytes → Except Fault (Header × Bytes)
  | [] => .error .truncated
  | x :: rest => do
    let (tag, rest) ← if x.toNat % 32 = 31 then longTag 1 0 rest else .ok (x.toNat % 32, rest)
    let (n, rest) ← contentsLength rest
    return (⟨x.toNat / 64, x.toNat / 32 % 2 = 1, tag, n⟩, rest)

/-- One element from the front. -/
def element (s : Bytes) : Except Fault (Element × Bytes) := do
  let (h, rest) ← header s
  let (contents, rest) ← take h.length rest
  return (⟨h.cls, h.constructed, h.tag, contents, s.take (s.length - rest.length)⟩, rest)

/-- An element with a tag number, of any class. -/
def withTag (tag : Nat) (s : Bytes) : Except Fault (Element × Bytes) := do
  let (e, rest) ← element s
  if e.tag ≠ tag then throw .malformed
  return (e, rest)

/-- The value read from the contents of a sequence; what follows it there is not looked at. -/
def inside {α : Type} (tag : Nat) (f : Bytes → Except Fault (α × Bytes)) (s : Bytes) :
    Except Fault (α × Bytes) := do
  let (e, rest) ← withTag tag s
  let (x, _) ← f e.contents
  return (x, rest)

/-- An element with a tag number in primitive form. -/
def primitive (tag : Nat) (s : Bytes) : Except Fault (Bytes × Bytes) := do
  let (e, rest) ← withTag tag s
  if e.constructed then throw .malformed
  return (e.contents, rest)

/-- The contents of an element of the context class, if the next one has that number. -/
def optional (number : Nat) (s : Bytes) : Except Fault (Option Element × Bytes) := do
  if s.isEmpty then return (none, s)
  let (e, rest) ← element s
  if e.cls = 2 ∧ e.tag = number then return (some e, rest) else return (none, s)

/-- Whether the contents of a bit string are in order: a count of unused bits, which are zero. -/
def isBitString : Bytes → Bool
  | [] => false
  | [unused] => unused = 0
  | unused :: rest => (rest.getLastD 0).toNat % Nat.pow 2 unused.toNat = 0

/-- A bit string, unused bits counted in front. -/
def bitString (s : Bytes) : Except Fault (Bytes × Bytes) := do
  let (contents, rest) ← primitive 3 s
  if isBitString contents then return (contents, rest) else throw .malformed

/-- Whether the contents of an integer have no octet too many. -/
def isMinimalInteger : Bytes → Bool
  | [] => false
  | [_] => true
  | x :: y :: _ => !(x = 0 && y < 128) && !(x = 255 && 128 ≤ y)

/-- A number below 2^32 from the contents of an integer. -/
def nat32? (contents : Bytes) : Option Nat :=
  match contents with
  | [] => none
  | x :: _ =>
    if x < 128 ∧ Bytes.toNat contents < UInt32.size then some (Bytes.toNat contents) else none

/-- Values read one after the other until none can be read. -/
def many {α : Type} (f : Bytes → Except Fault (α × Bytes)) : (fuel : Nat) → Bytes → List α × Bytes
  | 0, s => ([], s)
  | fuel + 1, s =>
    match f s with
    | .error _ => ([], s)
    | .ok (x, rest) =>
      let (xs, rest) := many f fuel rest
      (x :: xs, rest)

/-- Values read one after the other up to the end. -/
def all {α : Type} (f : Bytes → Except Fault (α × Bytes)) (s : Bytes) : Except Fault (List α) :=
  match many f s.length s with
  | (xs, []) => .ok xs
  | (_, _ :: _) => .error .malformed

end ChainConformance.Der
