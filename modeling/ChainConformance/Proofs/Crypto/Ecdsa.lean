import ChainConformance.Crypto.Ecdsa
import ChainConformance.Proofs.Encoding.Bits

/-!
# How a signature comes about

Proved here:

* `Curve.multiply_halves`: a multiple is computed from the upper half of the factor's bits on;
* `Ecdsa.sign_of_usable`: the first nonce is the one that counts, if it is usable;
* `Ecdsa.lt_order_of_sign`: both numbers of a signature are below the order of the base point.
-/

namespace ChainConformance

namespace Curve

/-- What becomes of a multiple of `p` when one more bit of the factor is read. -/
def step (c : Curve) (p q : Point) (bit : Bool) : Point :=
  if bit then c.add (c.double q) p else c.double q

theorem multiply_eq (c : Curve) (n : Nat) (p : Point) :
    c.multiply n p = (Bits.ofNat (8 * c.size) n).foldl (c.step p) .infinity := rfl

theorem multiply_halves (c : Curve) (n : Nat) (p : Point) :
    c.multiply n p = (Bits.ofNat (4 * c.size) n).foldl (c.step p)
      ((Bits.ofNat (4 * c.size) (n >>> (4 * c.size))).foldl (c.step p) .infinity) := by
  have width : 8 * c.size = 4 * c.size + 4 * c.size := by omega
  rw [multiply_eq, width, Bits.ofNat_add, List.foldl_append]

end Curve

namespace Ecdsa

/-- The number that is drawn first for a key and a digest. -/
def firstNonce (s : Scheme) (key : Nat) (digest : Bytes) : Nat :=
  let z := Bytes.toNat digest % s.curve.order
  let d := Drbg.seed s (Bytes.ofNat s.curve.size key) (Bytes.ofNat s.curve.size z)
  Bytes.toNat (s.hmac d.key d.value)

theorem sign_of_usable {s : Scheme} {key : Nat} {digest : Bytes} {signature : Nat × Nat}
    (usable : signWith s.curve key (Bytes.toNat digest % s.curve.order)
      (firstNonce s key digest) = some signature) :
    sign s key digest = some signature := by
  rw [firstNonce] at usable
  rw [sign, firstSignature, usable]

theorem lt_order_of_signWith {c : Curve} {key z nonce : Nat} {signature : Nat × Nat}
    (positive : 0 < c.order) (signed : signWith c key z nonce = some signature) :
    signature.1 < c.order ∧ signature.2 < c.order := by
  rw [signWith] at signed
  split at signed
  · cases signed
  · split at signed
    · cases signed
    · simp only at signed
      split at signed
      · cases signed
      · cases signed
        exact ⟨Nat.mod_lt _ positive, Nat.mod_lt _ positive⟩

theorem exists_nonce_of_firstSignature {s : Scheme} {signWith : Nat → Option (Nat × Nat)}
    {tries : Nat} {d : Drbg} {signature : Nat × Nat}
    (signed : firstSignature s signWith tries d = some signature) :
    ∃ nonce, signWith nonce = some signature := by
  induction tries generalizing d with
  | zero => cases signed
  | succ tries ih =>
    rw [firstSignature] at signed
    split at signed
    · next now =>
      cases signed
      exact ⟨_, now⟩
    · exact ih signed

theorem lt_order_of_sign {s : Scheme} {key : Nat} {digest : Bytes} {signature : Nat × Nat}
    (positive : 0 < s.curve.order) (signed : sign s key digest = some signature) :
    signature.1 < s.curve.order ∧ signature.2 < s.curve.order := by
  obtain ⟨nonce, signed⟩ := exists_nonce_of_firstSignature signed
  exact lt_order_of_signWith positive signed

end Ecdsa

end ChainConformance
