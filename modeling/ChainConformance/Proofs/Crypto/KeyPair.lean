import ChainConformance.Crypto.KeyPair
import ChainConformance.Proofs.Asn1.Form
import ChainConformance.Proofs.Asn1.Rereading
import ChainConformance.Proofs.Crypto.Ecdsa
import Mathlib.Data.Option.Basic

/-!
# Private keys in their PKCS #8 form

A key pair keeps the bytes that it was read from, so that they can be written again. Proved here:

* `pkcs8_of_read?`: the bytes are those that were read, for keys of all kinds;
* `read?_ofP256`: a P-256 key that is made of a number is read back from its bytes;
* `length_encode_signature_le`, `length_sign_le`: how long the signatures of such a key are.
-/

namespace ChainConformance

/-! ## Numbers in bytes -/

theorem Bytes.foldl_eq (b : Bytes) (n : Nat) :
    b.foldl (fun n x => 256 * n + x.toNat) n = n * 256 ^ b.length + toNat b := by
  induction b generalizing n with
  | nil => simp [toNat]
  | cons x b ih =>
    rw [toNat, List.foldl_cons, List.foldl_cons, ih, ih, List.length_cons, Nat.pow_succ]
    simp only [Nat.add_mul, Nat.mul_zero, Nat.zero_add, Nat.add_assoc]
    rw [Nat.mul_comm 256 n, Nat.mul_assoc, Nat.mul_comm 256]

/-- A number is read back from its bytes, as far as there are enough of them. -/
theorem Bytes.toNat_ofNat (width n : Nat) : toNat (ofNat width n) = n % 256 ^ width := by
  induction width with
  | zero => rw [Nat.pow_zero, Nat.mod_one]; rfl
  | succ width ih =>
    have digit : (UInt8.ofNat (n / 256 ^ width)).toNat = n / 256 ^ width % 256 := UInt8.toNat_ofNat'
    calc toNat (ofNat (width + 1) n)
        = (ofNat width n).foldl (fun n x => 256 * n + x.toNat)
            (256 * 0 + (UInt8.ofNat (n / 256 ^ width)).toNat) := rfl
      _ = n / 256 ^ width % 256 * 256 ^ width + n % 256 ^ width := by
        rw [foldl_eq, ih, length_ofNat, digit, Nat.mul_zero, Nat.zero_add]
      _ = n % 256 ^ (width + 1) := by
        rw [Nat.mod_pow_succ, Nat.add_comm, Nat.mul_comm]

namespace KeyPair

/-! ## The bytes of a key -/

section
variable {s : Bytes} {e : Envelope} {k : KeyPair}

theorem pkcs8_of_readEd25519? (h : readEd25519? s e = some k) : k.pkcs8 = s := by
  simp only [readEd25519?, Option.pure_def, Option.bind_eq_bind, Option.bind_eq_some_iff,
    Option.some.injEq] at h
  obtain ⟨-, -, -, -, -, -, -, -, rfl⟩ := h
  rfl

theorem pkcs8_of_readEc? {kind : Nat → PrivateKey} {curve : Curve} {oid : Bytes}
    (h : readEc? kind curve oid s e = some k) : k.pkcs8 = s := by
  simp only [readEc?, Option.pure_def, Option.bind_eq_bind, Option.bind_eq_some_iff,
    Option.some.injEq] at h
  obtain ⟨-, -, -, -, -, -, -, -, -, -, rfl⟩ := h
  rfl

theorem pkcs8_of_readRsa? (h : readRsa? s e = some k) : k.pkcs8 = s := by
  simp only [readRsa?, Option.pure_def, Option.bind_eq_bind, Option.bind_eq_some_iff] at h
  obtain ⟨-, -, ⟨numbers, rest⟩, -, -, -, h⟩ := h
  split at h
  · simp only [Option.bind_eq_some_iff, Option.some.injEq] at h
    obtain ⟨-, -, -, -, -, -, -, -, -, -, -, -, -, -, rfl⟩ := h
    rfl
  · cases h

/-- Whatever the kind of the key is, it keeps the bytes that it was read from. -/
theorem pkcs8_of_read? (h : read? s = some k) : k.pkcs8 = s := by
  simp only [read?, Option.bind_eq_bind, Option.bind_eq_some_iff, Option.orElse_eq_or,
    Option.or_eq_some_iff] at h
  obtain ⟨e, -, edwards | ⟨-, p256 | ⟨-, p384 | ⟨-, rsa⟩⟩⟩⟩ := h
  · exact pkcs8_of_readEd25519? edwards
  · exact pkcs8_of_readEc? p256
  · exact pkcs8_of_readEc? p384
  · exact pkcs8_of_readRsa? rsa

end

/-! ## Keys of P-256 -/

open Strict

theorem length_toBytes_le (c : Curve) (p : Curve.Point) :
    (p.toBytes c).length ≤ 2 * c.size + 1 := by
  cases p with
  | infinity => exact Nat.le_add_left 1 _
  | affine x y =>
    rw [Curve.Point.toBytes, List.length_cons, List.length_append, Bytes.length_ofNat,
      Bytes.length_ofNat]
    omega

/-- The key in its envelope, with the public key that it states. -/
def p256Contents (key publicKey : Bytes) : Bytes :=
  Der.sequence [Der.encode 0x02 [1], Der.octets key, Der.explicit 1 (Der.bits publicKey)]

theorem p256Envelope_eq (key publicKey : Bytes) : p256Envelope key publicKey =
    Der.encode 0x30 (Der.encode 0x02 [0] ++ ((Algorithm.curve Oid.p256).encode ++
      Der.octets (p256Contents key publicKey))) := by
  simp only [p256Envelope, p256Contents, Der.sequence, List.flatten_cons, List.flatten_nil,
    List.append_nil]

theorem p256Contents_eq (key publicKey : Bytes) : p256Contents key publicKey =
    Der.encode 0x30 (Der.encode 0x02 [1] ++ (Der.octets key ++
      Der.encode 0xA1 (Der.encode 0x03 (0 :: publicKey)))) := by
  simp only [p256Contents, Der.sequence, List.flatten_cons, List.flatten_nil, List.append_nil]
  rfl

theorem readEnvelope?_p256Envelope {key publicKey : Bytes}
    (small : (p256Envelope key publicKey).length < lengthLimit) :
    readEnvelope? (p256Envelope key publicKey) =
      some ⟨0, (Algorithm.curve Oid.p256).contents, p256Contents key publicKey, none⟩ := by
  rw [p256Envelope_eq] at small ⊢
  have inner := Nat.lt_trans (Der.length_lt_encode _ _) small
  rw [readEnvelope?, ← List.append_nil (Der.encode 0x30 _), inside?_encode rfl inner ?_ []]
  · rfl
  rw [List.length_append, List.length_append] at inner
  have named : _ < (Algorithm.curve Oid.p256).encode.length := Der.length_lt_encode 0x30 _
  have wrapped : _ < (Der.octets (p256Contents key publicKey)).length := Der.length_lt_encode 0x04 _
  have version (rest : Bytes) : contents? 0x02 (Der.encode 0x02 [0] ++ rest) = some ([0], rest) :=
    contents?_eq_some_iff.mpr ⟨rfl, by decide, rfl⟩
  have algorithm (rest : Bytes) : contents? 0x30 ((Algorithm.curve Oid.p256).encode ++ rest) =
      some ((Algorithm.curve Oid.p256).contents, rest) :=
    contents?_eq_some_iff.mpr ⟨rfl, by omega, rfl⟩
  have octets : contents? 0x04 (Der.octets (p256Contents key publicKey)) =
      some (p256Contents key publicKey, []) :=
    contents?_eq_some_iff.mpr ⟨rfl, by omega, (List.append_nil _).symm⟩
  simp [version, algorithm, octets, skipAttributes?]

/-- The public key of a private number. -/
def p256Public (n : Nat) : Bytes :=
  (Curve.p256.multiply n Curve.p256.base).toBytes Curve.p256

theorem length_p256Public_le (n : Nat) : (p256Public n).length ≤ 65 := length_toBytes_le _ _

theorem length_encode_p256 : (Algorithm.curve Oid.p256).encode.length = 21 := by decide +kernel

/-- The sizes of what a private key of the curve is written in. -/
theorem length_p256_le (n : Nat) :
    (Der.encode 0xA1 (Der.encode 0x03 (0 :: p256Public n))).length ≤ 300 ∧
      (p256Contents (Bytes.ofNat 32 n) (p256Public n)).length ≤ 800 ∧
      (p256Envelope (Bytes.ofNat 32 n) (p256Public n)).length ≤ 4000 := by
  have bits := length_p256Public_le n
  have width := Bytes.length_ofNat 32 n
  have algorithm := length_encode_p256
  have one : (Der.encode 0x02 [0]).length = 3 ∧ (Der.encode 0x02 [1]).length = 3 := ⟨rfl, rfl⟩
  have inner := Der.length_encode_le 0x03 (0 :: p256Public n)
  have outer := Der.length_encode_le 0xA1 (Der.encode 0x03 (0 :: p256Public n))
  have number := Der.length_encode_le 0x04 (Bytes.ofNat 32 n)
  have contents := Der.length_encode_le 0x30 (Der.encode 0x02 [1] ++ (Der.octets (Bytes.ofNat 32 n)
    ++ Der.encode 0xA1 (Der.encode 0x03 (0 :: p256Public n))))
  rw [← p256Contents_eq] at contents
  have key := Der.length_encode_le 0x04 (p256Contents (Bytes.ofNat 32 n) (p256Public n))
  have envelope := Der.length_encode_le 0x30 (Der.encode 0x02 [0] ++
    ((Algorithm.curve Oid.p256).encode ++
      Der.octets (p256Contents (Bytes.ofNat 32 n) (p256Public n))))
  rw [← p256Envelope_eq] at envelope
  simp only [List.length_append, List.length_cons, Der.octets] at inner contents envelope
  omega

/-- The private number and the public key, taken out of the envelope. -/
theorem readEc?_p256 {n : Nat} (positive : 0 < n) (small : n < Curve.p256.order) (s : Bytes) :
    readEc? .p256 Curve.p256 Oid.p256 s ⟨0, (Algorithm.curve Oid.p256).contents,
      p256Contents (Bytes.ofNat 32 n) (p256Public n), none⟩ =
        some { ofP256 n with pkcs8 := s } := by
  have limit : 1000 < lengthLimit := by decide
  have width := Bytes.length_ofNat 32 n
  obtain ⟨outer, whole, -⟩ := length_p256_le n
  have version (rest : Bytes) : contents? 0x02 (Der.encode 0x02 [1] ++ rest) = some ([1], rest) :=
    contents?_eq_some_iff.mpr ⟨rfl, by decide, rfl⟩
  have octets (rest : Bytes) : contents? 0x04 (Der.octets (Bytes.ofNat 32 n) ++ rest) =
      some (Bytes.ofNat 32 n, rest) :=
    contents?_eq_some_iff.mpr ⟨rfl, by omega, rfl⟩
  have inner := Der.length_lt_encode 0xA1 (Der.encode 0x03 (0 :: p256Public n))
  have bits := Der.length_lt_encode 0x03 (0 :: p256Public n)
  have publicKey : inside? 0xA1 (contents? 0x03)
      (Der.encode 0xA1 (Der.encode 0x03 (0 :: p256Public n)) ++ []) =
        some (0 :: p256Public n, []) :=
    inside?_encode rfl (by omega)
      (contents?_eq_some_iff.mpr ⟨rfl, by omega, (List.append_nil _).symm⟩) []
  rw [List.append_nil] at publicKey
  have number : Bytes.toNat (Bytes.ofNat 32 n) = n := by
    rw [Bytes.toNat_ofNat]
    exact Nat.mod_eq_of_lt (Nat.lt_trans small (by decide))
  have notNamed : (Der.encode 0xA1 (Der.encode 0x03 (0 :: p256Public n))).head? ≠ some 0xA0 := by
    simp [Der.encode]
  rw [p256Contents_eq] at whole ⊢
  have taken := Nat.lt_of_lt_of_le (Der.length_lt_encode _ _) whole
  rw [readEc?, ← List.append_nil (Der.encode 0x30 _),
    inside?_encode (x := (Bytes.ofNat 32 n, p256Public n)) rfl (by omega) ?_ []]
  · have fits : ([] : Bytes).isEmpty = true ∧ (Bytes.ofNat 32 n).length = Curve.p256.size :=
      ⟨rfl, width⟩
    have stated : p256Public n =
        (Curve.p256.multiply n Curve.p256.base).toBytes Curve.p256 := rfl
    simp only [guard, if_pos fits, number, if_pos (And.intro positive small),
      if_pos stated, Option.bind_eq_bind, Option.pure_def, Option.bind_some]
    rfl
  · simp [version, octets, notNamed, publicKey, wholeBits?]

theorem read?_ofP256 {n : Nat} (positive : 0 < n) (small : n < Curve.p256.order) :
    read? (ofP256 n).pkcs8 = some (ofP256 n) := by
  have limit : 4000 < lengthLimit := by decide
  have size := Nat.lt_of_le_of_lt (length_p256_le n).2.2 limit
  have envelope := readEnvelope?_p256Envelope size
  have other : readEd25519? (ofP256 n).pkcs8 ⟨0, (Algorithm.curve Oid.p256).contents,
      p256Contents (Bytes.ofNat 32 n) (p256Public n), none⟩ = none := by
    have differs : (Algorithm.curve Oid.p256).contents ≠ Algorithm.ed25519.contents := by
      decide +kernel
    simp [readEd25519?, differs]
  change readEnvelope? (ofP256 n).pkcs8 = _ at envelope
  rw [read?, envelope]
  simp only [Option.bind_eq_bind, Option.bind_some, other, readEc?_p256 positive small]
  rfl

/-! ## Signatures -/

theorem length_nat_le {n : Nat} (small : n < Nat.pow 256 32) : (Der.nat n).length ≤ 35 := by
  have width := Bytes.length_minimal_le small
  have rest := (List.dropWhile_sublist (fun x : UInt8 => decide (x = 0))
    (l := Bytes.minimal n)).length_le
  have short (contents : Bytes) (fits : contents.length ≤ 33) :
      (Der.encode 0x02 contents).length ≤ 35 := by
    rw [Der.length_encode, Der.length_of_short (by omega), List.length_singleton]
    omega
  rw [Der.nat, Der.unsigned]
  split
  · exact short [0] (by decide)
  · next x others left =>
    rw [left, List.length_cons] at rest
    refine short _ ?_
    split
    · rw [List.length_cons, List.length_cons]
      omega
    · rw [List.length_cons]
      omega

/-- A signature with a key of P-256 has 72 bytes at most. -/
theorem length_encode_signature_le {n : Nat} {digest : Bytes} {signature : Nat × Nat}
    (signed : Ecdsa.sign .p256 n digest = some signature) :
    (Ecdsa.encode signature).length ≤ 72 := by
  obtain ⟨first, second⟩ := Ecdsa.lt_order_of_sign (by decide) signed
  have limit : Ecdsa.Scheme.p256.curve.order < Nat.pow 256 32 := by decide
  have r := length_nat_le (Nat.lt_trans first limit)
  have s := length_nat_le (Nat.lt_trans second limit)
  have both : [Der.nat signature.1, Der.nat signature.2].flatten.length ≤ 70 := by
    simp only [List.flatten_cons, List.flatten_nil, List.append_nil, List.length_append]
    omega
  change (Der.encode 0x30 [Der.nat signature.1, Der.nat signature.2].flatten).length ≤ 72
  rw [Der.length_encode, Der.length_of_short (by omega), List.length_singleton]
  omega

theorem length_sign_le {k : KeyPair} {n : Nat} (secret : k.secret = .p256 n) (message : Bytes) :
    (k.sign message).length ≤ 72 := by
  simp only [sign, secret]
  cases signed : Ecdsa.sign .p256 n (Sha256.digest message) with
  | none => exact Nat.zero_le 72
  | some signature => exact length_encode_signature_le signed

end KeyPair

end ChainConformance
