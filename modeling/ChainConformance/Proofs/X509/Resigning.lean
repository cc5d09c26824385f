import ChainConformance.Crypto.KeyPair
import ChainConformance.Proofs.Crypto.Ecdsa
import ChainConformance.Proofs.Outcome
import ChainConformance.Proofs.X509.Signed
import ChainConformance.X509.Resigning

/-!
# What signing again keeps

Signing a certificate again replaces its signature and the names of the algorithm, and nothing else.
Proved here:

* `resign_eq_ok_iff`: when a certificate is signed again, and what comes out;
* `Signed.resign?_again`: the same key makes the same of it a second time;
* `signedAgain_of_resign`: how the result reads, what its signature covers, and that it is stable.
-/

namespace ChainConformance.X509

open Strict

variable {c r : Signed} {certificate key result : Bytes} {number : Nat}

/-- The certificate can be read, neither what is signed nor the whole becomes too long, and the key
is one that has a signature for it. -/
theorem resign_eq_ok_iff : resign certificate key = .ok result ↔
    ∃ c, Signed.read? certificate = some c ∧ c.part.withSha1.encode.length < lengthLimit ∧
      ∃ number, readSigningKey? key = some number ∧
        ∃ r, c.resign? number = some r ∧ r.encode.length < lengthLimit ∧ r.encode = result := by
  simp only [resign, bind_eq_ok_iff, getDM_throw_eq_ok_iff, unless_throw_eq_ok_iff, pure_eq_ok_iff]

/-! ## Certificates that are signed again -/

theorem gives_ecdsaWithSha1 : Gives Algorithm.read? .ecdsaWithSha1 :=
  ⟨Algorithm.ecdsaWithSha1.encode, [], by decide +kernel⟩

theorem Signed.resign?_eq_some_iff : c.resign? number = some r ↔
    ∃ signature, Ecdsa.sign .p256 number (Sha1.digest c.part.withSha1.encode) = some signature ∧
      c.withSha1 (Ecdsa.encode signature) = r :=
  Option.map_eq_some_iff

/-- Neither the old signature nor the old algorithm has any part in it. -/
theorem Signed.resign?_again (made : c.resign? number = some r) : r.resign? number = some r := by
  obtain ⟨signature, signs, rfl⟩ := resign?_eq_some_iff.mp made
  exact resign?_eq_some_iff.mpr ⟨signature, signs, rfl⟩

theorem Signed.part_of_resign? (made : c.resign? number = some r) :
    r.part = c.part.withSha1 := by
  obtain ⟨signature, -, rfl⟩ := resign?_eq_some_iff.mp made
  rfl

theorem Signed.Readable.resign? (h : c.Readable) (made : c.resign? number = some r)
    (small : r.encode.length < lengthLimit) : r.Readable := by
  obtain ⟨signature, -, rfl⟩ := resign?_eq_some_iff.mp made
  refine ⟨h.part.named gives_ecdsaWithSha1, gives_ecdsaWithSha1, gives_bitString? (by rfl) ?_⟩
  rw [Signed.encode_eq] at small
  have inside := Nat.lt_trans (Der.length_lt_encode _ _) small
  have signs := Der.length_lt_encode 0x03 (c.withSha1 (Ecdsa.encode signature)).signature
  simp only [List.length_append] at inside
  omega

/-- What is written for a certificate starts with what is signed. -/
theorem Signed.Readable.read?_part (h : r.Readable) (small : r.encode.length < lengthLimit) :
    ∃ after, r.encode = Der.encode 0x30 (r.part.encode ++ after) ∧
      SignedPart.read? (r.part.encode ++ after) = some (r.part, after) := by
  refine ⟨_, r.encode_eq, h.part.read?_encode ?_ _⟩
  rw [Signed.encode_eq] at small
  have inside := Nat.lt_trans (Der.length_lt_encode _ _) small
  rw [List.length_append] at inside
  omega

/-! ## What comes out -/

/-- `r`, which stands in `bytes`, is `c` signed again with SHA-1 by a private number of P-256: all
other fields are the same, and the signature is the one of the bytes that hold the signed part. -/
structure SignedAgain (number : Nat) (c r : Signed) (bytes : Bytes) : Prop where
  others : { r.part with algorithm := c.part.algorithm } = c.part
  inner : r.part.algorithm = ⟨Oid.ecdsaWithSha1, none⟩
  outer : r.algorithm = ⟨Oid.ecdsaWithSha1, none⟩
  covers : ∃ covered after signature, bytes = Der.encode 0x30 (covered ++ after) ∧
    SignedPart.read? (covered ++ after) = some (r.part, after) ∧
    Ecdsa.sign .p256 number (Sha1.digest covered) = some signature ∧
    r.signature = 0 :: Ecdsa.encode signature

theorem signedAgain_of_resign? (h : c.Readable) (made : c.resign? number = some r)
    (small : r.encode.length < lengthLimit) : SignedAgain number c r r.encode := by
  obtain ⟨after, whole, part⟩ := (h.resign? made small).read?_part small
  obtain ⟨signature, signs, rfl⟩ := Signed.resign?_eq_some_iff.mp made
  exact ⟨rfl, rfl, rfl, _, after, signature, whole, part, signs, rfl⟩

/-- A certificate that is signed again keeps every field of its signed part but the algorithm, says
ecdsa-with-SHA1 without parameters in both places, and has the key's signature of the signed part as
it now stands. Signing it once more with the same key gives the same bytes. -/
theorem signedAgain_of_resign (h : resign certificate key = .ok result) :
    ∃ c number r, Signed.read? certificate = some c ∧ readSigningKey? key = some number ∧
      Signed.read? result = some r ∧ SignedAgain number c r result ∧
      resign result key = .ok result := by
  obtain ⟨c, read, short, number, known, r, made, small, rfl⟩ := resign_eq_ok_iff.mp h
  have readable := Signed.readable_of_read? read
  have again := (readable.resign? made small).read?_encode small
  have short' : r.part.withSha1.encode.length < lengthLimit := by
    rw [Signed.part_of_resign? made]
    exact short
  exact ⟨c, number, r, read, known, again, signedAgain_of_resign? readable made small,
    resign_eq_ok_iff.mpr
      ⟨r, again, short', number, known, r, Signed.resign?_again made, small, rfl⟩⟩

/-- A certificate with an extension that is said not to be critical, although that goes without
saying. -/
def outspoken : Bytes :=
  let name := encodeName [[⟨Oid.commonName, ⟨0x0C, Bytes.ofString "root"⟩⟩]]
  Der.sequence [
    Der.sequence [
      Der.explicit 0 (Der.encode 0x02 [2]),
      Der.encode 0x02 [1],
      Algorithm.ecdsaWithSha256.encode,
      name,
      Der.sequence [(Time.encode 0).encode, (Time.encode 2000000000).encode],
      name,
      (KeyPair.ofP256 1).publicKey,
      Der.explicit 3 (Der.sequence [
        Der.sequence [Der.encode 0x06 Oid.keyUsage, Der.boolean false,
          Der.octets [3, 2, 5, 160]]])],
    Algorithm.ecdsaWithSha256.encode,
    Der.bits [48, 0]]

/-- The digest of what is signed of `outspoken` once it names SHA-1. -/
def outspokenDigest : Bytes :=
  [188, 94, 182, 241, 129, 19, 191, 92, 1, 200, 186, 108, 240, 10, 120, 227, 203, 169, 126, 33]

/-- The signature of the digest by the private number 1. -/
def outspokenSignature : Nat × Nat :=
  (0x96313fe85e0587e1b1e720c4da344871912a14057d8ee337767ef5f43fe3cdc9,
    0x207374acd9410c7defcfae770615ad50d697e47717f69dc148dbaad8ce081212)

/-- The nonce that is drawn for it. -/
def outspokenNonce : Nat := 0xfe394faa3f49ca1bc8e7a59b53557aedba9c1febecaa94fd146dbc7abc15f9f2

/-- The multiple of the base point is computed in two halves, which takes less room. -/
theorem sign_outspokenDigest :
    Ecdsa.sign .p256 1 outspokenDigest = some outspokenSignature := by
  have nonce : Ecdsa.firstNonce .p256 1 outspokenDigest = outspokenNonce := by decide +kernel
  have upper : (Bits.ofNat (4 * Curve.p256.size) (outspokenNonce >>> (4 * Curve.p256.size))).foldl
        (Curve.p256.step Curve.p256.base) .infinity =
      .affine 0x063ecfc90f9ee32816914e6a8bd364bf5e8aff2c47c67ca8e41e1abc1b97f222
        0x791a7f085f02d7406c554fe0b80f2429a7548526489691fa697bfc59f3771aff := by decide +kernel
  have point : Curve.p256.multiply outspokenNonce Curve.p256.base =
      .affine 0x96313fe85e0587e1b1e720c4da344871912a14057d8ee337767ef5f43fe3cdc9
        0x1a9fda2afb651fe9d88a0f5ff21ef7ce7f694a0d13b6eb8fff22a9d3ff82214c := by
    rw [Curve.multiply_halves, upper]
    decide +kernel
  have usable : Ecdsa.signWith Curve.p256 1 (Bytes.toNat outspokenDigest % Curve.p256.order)
      outspokenNonce = some outspokenSignature := by
    rw [Ecdsa.signWith, point]
    decide +kernel
  refine Ecdsa.sign_of_usable ?_
  rw [nonce]
  exact usable

theorem signedAgain_outspoken : ∃ result c number r,
    resign outspoken (KeyPair.ofP256 1).pkcs8 = .ok result ∧
      Signed.read? outspoken = some c ∧ readSigningKey? (KeyPair.ofP256 1).pkcs8 = some number ∧
      Signed.read? result = some r ∧ SignedAgain number c r result ∧
      resign result (KeyPair.ofP256 1).pkcs8 = .ok result := by
  have known : readSigningKey? (KeyPair.ofP256 1).pkcs8 = some 1 := by decide +kernel
  have covered : (Signed.read? outspoken).map (fun c => Sha1.digest c.part.withSha1.encode) =
      some outspokenDigest := by decide +kernel
  have sizes : (Signed.read? outspoken).all (fun c =>
      c.part.withSha1.encode.length < lengthLimit &&
        (c.withSha1 (Ecdsa.encode outspokenSignature)).encode.length < lengthLimit) = true := by
    decide +kernel
  obtain ⟨c, read, digest⟩ := Option.map_eq_some_iff.mp covered
  rw [read, Option.all_some, Bool.and_eq_true, decide_eq_true_eq, decide_eq_true_eq] at sizes
  have made := Signed.resign?_eq_some_iff.mpr ⟨_, digest ▸ sign_outspokenDigest, rfl⟩
  have signed := resign_eq_ok_iff.mpr ⟨c, read, sizes.1, 1, known, _, made, sizes.2, rfl⟩
  obtain ⟨c, number, r, whole⟩ := signedAgain_of_resign signed
  exact ⟨_, c, number, r, signed, whole⟩

end ChainConformance.X509
