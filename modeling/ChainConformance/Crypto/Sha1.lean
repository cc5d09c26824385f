import ChainConformance.Crypto.Sha256

/-!
# SHA-1

The padding is that of SHA-256; every block stirs five words in 80 rounds.
-/

namespace ChainConformance.Sha1

def rotateLeft (x : UInt32) (n : UInt32) : UInt32 := x <<< n ||| x >>> (32 - n)

/-- The first `count` further words of the schedule, given the last 16 words, the newest first. -/
def extend : (count : Nat) → List UInt32 → List UInt32
  | 0, _ => []
  | count + 1, recent =>
    let w := rotateLeft
      (recent.getD 2 0 ^^^ recent.getD 7 0 ^^^ recent.getD 13 0 ^^^ recent.getD 15 0) 1
    w :: extend count (w :: recent.take 15)

/-- The 80 words that a block of 16 words feeds to the rounds. -/
def schedule (block : List UInt32) : List UInt32 := block ++ extend 64 block.reverse

/-- The five words of the state. -/
structure State where
  a : UInt32
  b : UInt32
  c : UInt32
  d : UInt32
  e : UInt32
  deriving DecidableEq, Repr

def State.initial : State := ⟨0x67452301, 0xefcdab89, 0x98badcfe, 0x10325476, 0xc3d2e1f0⟩

def State.round (s : State) (w : UInt32 × Nat) : State :=
  let (f, k) : UInt32 × UInt32 :=
    if w.2 < 20 then ((s.b &&& s.c) ||| (~~~s.b &&& s.d), 0x5a827999)
    else if w.2 < 40 then (s.b ^^^ s.c ^^^ s.d, 0x6ed9eba1)
    else if w.2 < 60 then ((s.b &&& s.c) ||| (s.b &&& s.d) ||| (s.c &&& s.d), 0x8f1bbcdc)
    else (s.b ^^^ s.c ^^^ s.d, 0xca62c1d6)
  ⟨rotateLeft s.a 5 + f + s.e + k + w.1, s.a, rotateLeft s.b 30, s.c, s.d⟩

def State.absorb (s : State) (block : List UInt32) : State :=
  let t := (schedule block).zipIdx.foldl State.round s
  ⟨s.a + t.a, s.b + t.b, s.c + t.c, s.d + t.d, s.e + t.e⟩

def State.toBytes (s : State) : Bytes :=
  [s.a, s.b, s.c, s.d, s.e].flatMap fun w => Bytes.ofNat 4 w.toNat

/-- The 20 bytes of the digest. -/
def digest (message : Bytes) : Bytes :=
  ((Bits.groups 15 (Sha256.words (Sha256.pad message))).foldl State.absorb
    State.initial).toBytes

end ChainConformance.Sha1
