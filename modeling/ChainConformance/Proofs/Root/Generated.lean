import ChainConformance.Proofs.Crypto.KeyPair
import ChainConformance.Proofs.Root
import ChainConformance.Proofs.X509.Certificate
import ChainConformance.Proofs.X509.Size
import ChainConformance.X509.Seeded

/-!
# New roots

A new root is read back from the bundle that it is written to. Proved here:

* `Draws.genuine_seeded`: what is drawn from a seed is what a root needs;
* `length_der_le`: how long the certificate of a new root is at most;
* `isNew_seeded`: the roots that are made from a seed are new ones;
* `exists_issuer_generate`, `ofPem_pem_of_isNew`: a new root can issue, and is read back.
-/

namespace ChainConformance

open Der

namespace X509

/-! ## Draws -/

/-- What can be drawn: private numbers of the curve, serial numbers and identifiers of bounded
length, and a time around which a validity can be written down. -/
structure Draws.Genuine (d : Draws) : Prop where
  key : ∀ i, ∃ n, 0 < n ∧ n < Curve.p256.order ∧ d.key i = .ofP256 n
  serial : ∀ i, (d.serial i).length ≤ 17
  uuid : ∀ i, (d.uuid i).length ≤ 36
  dated : ∀ time ∈ [d.notBefore, d.notAfter], 0 ≤ Time.year time ∧ Time.year time ≤ 9999

theorem length_hex (b : Bytes) : (Bytes.hex b).length = 2 * b.length := by
  rw [Bytes.hex, String.length_ofList]
  induction b with
  | nil => rfl
  | cons x b ih =>
    rw [List.flatMap_cons, List.length_append, ih, List.length_cons]
    simp
    omega

theorem length_uuidText_le {b : Bytes} (width : b.length ≤ 16) :
    (Draws.uuidText b).length ≤ 36 := by
  simp only [Draws.uuidText, Text.join, Text.intercalate, List.map_cons, List.map_nil,
    String.length_ofList, List.length_append, String.length_toList, length_hex, List.length_take,
    List.length_drop]
  have dash : "-".length = 1 := by decide
  omega

theorem Draws.genuine_seeded (seed : Bytes) {now : Int}
    (dated : ∀ time ∈ [(seeded seed now).notBefore, (seeded seed now).notAfter],
      0 ≤ Time.year time ∧ Time.year time ≤ 9999) : (seeded seed now).Genuine where
  key i := by
    refine ⟨scalar seed i, ?_, ?_, rfl⟩
    · rw [scalar]
      omega
    · have order : 1 < Curve.p256.order := by decide
      have less := Nat.mod_lt (Bytes.toNat (block seed "key" i))
        (show 0 < Curve.p256.order - 1 by omega)
      rw [scalar]
      omega
  serial i := List.length_take_le _ _
  uuid i := by
    have width : (versioned ((block seed "uuid" i).take 16)).length ≤ 16 := by
      rw [versioned, List.length_map, List.length_zipIdx]
      exact List.length_take_le _ _
    exact length_uuidText_le width
  dated := dated

end X509

namespace Root

open X509

variable {sign : KeyPair → Bytes → Bytes} {d : Draws}

/-- The certificate of a new root. -/
def firstIssued (d : Draws) : Issued :=
  (Template.authority d 0 (.subject (some commonName) (d.uuid 0))).selfIssue (d.key 0)

theorem certificate_generate (sign : KeyPair → Bytes → Bytes) (d : Draws) :
    (generate sign d).certificate = (firstIssued d).der sign := rfl

/-- The extensions of a new root. -/
theorem extensions_firstIssued (d : Draws) :
    (firstIssued d).template.extensions (firstIssued d).issuer (firstIssued d).subjectKey =
      [⟨Oid.keyUsage, true, encode 0x03 [2, 0x04]⟩,
        ⟨Oid.subjectKeyId, false, octets (d.key 0).identifier⟩,
        ⟨Oid.basicConstraints, true, Der.sequence [boolean true]⟩] := rfl

theorem keyAlgorithm_firstIssued (genuine : d.Genuine) :
    (firstIssued d).subjectKey.algorithm = .curve Oid.p256 := by
  obtain ⟨n, -, -, key⟩ := genuine.key 0
  change (d.key 0).algorithm = _
  rw [key]
  rfl

theorem length_subject_le (genuine : d.Genuine) :
    (DistinguishedName.subject (some commonName) (d.uuid 0)).encode.length ≤ 5000 := by
  have named := DistinguishedName.length_encode_subject_le commonName (d.uuid 0)
  have size : commonName.length = 20 := by decide +kernel
  have uuid := genuine.uuid 0
  omega

theorem isBounded_firstIssued (genuine : d.Genuine)
    (short : ∀ m, (sign (d.key 0) m).length ≤ 72) : (firstIssued d).IsBounded 5000 sign where
  once := rfl
  plain := rfl
  serial := Nat.le_trans (Nat.succ_le_succ (genuine.serial 0)) (by decide)
  issuer := length_subject_le genuine
  subject := length_subject_le genuine
  issuerKey := Nat.le_trans (List.length_take_le _ _) (by decide)
  algorithm := by
    rw [keyAlgorithm_firstIssued genuine, KeyPair.length_encode_p256]
    decide
  key := by
    obtain ⟨n, -, -, key⟩ := genuine.key 0
    change (d.key 0).publicBits.length ≤ _
    rw [key]
    exact Nat.le_trans (KeyPair.length_p256Public_le n) (by decide)
  hosts := Nat.zero_le _
  purposes := Nat.zero_le _
  constraints := nofun
  signature := Nat.le_trans (short _) (by decide)

theorem length_der_le (genuine : d.Genuine) (short : ∀ m, (sign (d.key 0) m).length ≤ 72) :
    ((firstIssued d).der sign).length ≤ 70000000 :=
  Nat.le_trans (isBounded_firstIssued genuine short).length_der_le (by decide)

/-! ## Reading a new root back -/

theorem ofIssuer_seen_subject (uuid : String) :
    DistinguishedName.ofIssuer (DistinguishedName.subject (some commonName) uuid).seen =
      .ok (.subject (some commonName) uuid) := by
  have types : DistinguishedName.normalOid? Oid.commonName = some Oid.commonName ∧
      DistinguishedName.normalOid? Oid.organization = some Oid.organization ∧
      DistinguishedName.normalOid? Oid.serialNumber = some Oid.serialNumber := by decide +kernel
  have text (s : String) : StringKind.utf8.check (Bytes.ofString s) = .ok () := by
    simp [StringKind.check, StringKind.checkText, Bytes.text?_ofString]
  refine DistinguishedName.ofIssuer_seen ?_ ?_
  · simp [DistinguishedName.parts_subject, types]
  · simp [DistinguishedName.parts_subject, text]

theorem exists_issuer_generate (genuine : d.Genuine)
    (short : ∀ m, (sign (d.key 0) m).length ≤ 72) :
    ∃ issuer, (generate sign d).issuer = .ok issuer := by
  have limit : 70000000 < UInt64.size := by decide
  have read : Certificate.read? (generate sign d).certificate = some (firstIssued d).seen := by
    have dated : (firstIssued d).template.IsDated := genuine.dated
    have plain : (firstIssued d).part.keyAlgorithm.Plain := by
      change (firstIssued d).subjectKey.algorithm.Plain
      rw [keyAlgorithm_firstIssued genuine]
      rintro e ⟨⟩
      decide
    rw [certificate_generate]
    exact Issued.read?_der rfl plain dated (Nat.lt_of_le_of_lt (length_der_le genuine short) limit)
  have once : ((firstIssued d).seen.extensions.filter (·.oid = Oid.keyUsage)).length < 2 := by
    have others : Oid.subjectKeyId ≠ Oid.keyUsage ∧ Oid.basicConstraints ≠ Oid.keyUsage := by
      decide +kernel
    simp [Issued.seen, extensions_firstIssued, SignedExtension.seen, others]
  exact ⟨_, issuer_eq_ok_iff.mpr ⟨_, _, read, once, ofIssuer_seen_subject (d.uuid 0), rfl⟩⟩

/-- The roots that can be made, with signatures of the usual length. -/
def IsNew (r : Root) : Prop :=
  ∃ sign d, d.Genuine ∧ (∀ m, (sign (d.key 0) m).length ≤ 72) ∧ r = generate sign d

theorem isNew_generate (genuine : d.Genuine) : (generate KeyPair.sign d).IsNew := by
  obtain ⟨n, -, -, key⟩ := genuine.key 0
  refine ⟨_, d, genuine, ?_, rfl⟩
  rw [key]
  exact KeyPair.length_sign_le rfl

theorem isNew_seeded (seed : Bytes) {now : Int}
    (dated : ∀ time ∈ [(Draws.seeded seed now).notBefore, (Draws.seeded seed now).notAfter],
      0 ≤ Time.year time ∧ Time.year time ≤ 9999) :
    (generate KeyPair.sign (.seeded seed now)).IsNew :=
  isNew_generate (Draws.genuine_seeded seed dated)

theorem ofPem_pem_of_isNew {root : Root} (new : root.IsNew) :
    ofPem (Bytes.ofString root.pem) = .ok root := by
  obtain ⟨sign, d, genuine, short, rfl⟩ := new
  obtain ⟨issuer, issues⟩ := exists_issuer_generate genuine short
  obtain ⟨n, positive, small, key⟩ := genuine.key 0
  refine ofPem_pem ?_ issues
  change KeyPair.read? (d.key 0).pkcs8 = some (d.key 0)
  rw [key]
  exact KeyPair.read?_ofP256 positive small

end Root

end ChainConformance
