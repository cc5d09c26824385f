import ChainConformance.Proofs.Asn1.Form
import ChainConformance.Proofs.X509.DistinguishedName
import ChainConformance.Proofs.X509.Issued
import ChainConformance.Proofs.X509.Signed

/-!
# How long certificates are

Rough bounds, since an element takes at most twice the bytes of its contents and two more. Proved
here, from the parts to the whole:

* `SignedExtension.length_encode_le`, `DistinguishedName.length_encode_subject_le`: how long
  extensions and names are;
* `Issued.IsBounded.length_extensionsBytes_le`, `Issued.IsBounded.length_der_le`: how long the
  extensions and the whole of a certificate are whose parts are bounded.
-/

namespace ChainConformance.X509

open Der

theorem length_sequence_le (parts : List Bytes) :
    (Der.sequence parts).length ≤ 2 * parts.flatten.length + 2 := length_encode_le 0x30 _

theorem length_flatten_map_le {α : Type} {f : α → Bytes} {size : Nat} {xs : List α}
    (each : ∀ x ∈ xs, (f x).length ≤ size) : (xs.map f).flatten.length ≤ xs.length * size := by
  induction xs with
  | nil => exact Nat.zero_le _
  | cons x xs ih =>
    obtain ⟨first, others⟩ := List.forall_mem_cons.mp each
    have rest := ih others
    rw [List.map_cons, List.flatten_cons, List.length_append, List.length_cons, Nat.succ_mul]
    omega

/-! ## Names and times -/

theorem NamePart.length_set_le (p : NamePart) :
    (Der.set [p.toAttribute.encode]).length ≤ 8 * (p.oid.length + p.contents.length) + 22 := by
  have whole : (Der.set [p.toAttribute.encode]).length ≤ _ := Der.length_encode_le 0x31 _
  have inside : p.toAttribute.encode.length ≤ _ := length_sequence_le _
  have named := Der.length_encode_le 0x06 p.toAttribute.oid
  have value := Der.length_encode_le p.toAttribute.value.tag p.toAttribute.value.contents
  simp only [List.flatten_cons, List.flatten_nil, List.append_nil, List.length_append,
    Strict.Element.encode] at whole inside
  have same : p.toAttribute.oid.length = p.oid.length ∧
      p.toAttribute.value.contents.length = p.contents.length := ⟨rfl, rfl⟩
  omega

theorem length_flatten_sets_le (parts : List NamePart) :
    (parts.map fun p => Der.set [p.toAttribute.encode]).flatten.length ≤
      (parts.map fun p => 8 * (p.oid.length + p.contents.length) + 22).sum := by
  induction parts with
  | nil => exact Nat.le_refl 0
  | cons p parts ih =>
    have first := p.length_set_le
    rw [List.map_cons, List.flatten_cons, List.length_append, List.map_cons, List.sum_cons]
    omega

theorem DistinguishedName.length_encode_le (n : DistinguishedName) :
    n.encode.length ≤
      2 * (n.parts.map fun p => 8 * (p.oid.length + p.contents.length) + 22).sum + 2 := by
  have written : n.encode = Der.sequence (n.parts.map fun p => Der.set [p.toAttribute.encode]) := by
    rw [encode, encodeName, toSets, List.map_map]
    rfl
  have whole := length_sequence_le (n.parts.map fun p => Der.set [p.toAttribute.encode])
  have parts := length_flatten_sets_le n.parts
  rw [written]
  omega

/-- A name that is made up takes some bytes for each character of the common name and of the
identifier. -/
theorem DistinguishedName.length_encode_subject_le (commonName uuid : String) :
    (subject (some commonName) uuid).encode.length ≤
      64 * (commonName.length + uuid.length) + 600 := by
  have whole := (subject (some commonName) uuid).length_encode_le
  have types : Oid.commonName.length = 3 ∧ Oid.organization.length = 3 ∧
      Oid.serialNumber.length = 3 := by decide +kernel
  have text (s : String) : (Bytes.ofString s).length ≤ 4 * s.length := by
    have := Bytes.length_ofString_le s.toList
    rwa [String.ofList_toList, String.length_toList] at this
  have first := text commonName
  have middle : (Bytes.ofString organization).length = 19 := by decide +kernel
  have last := text uuid
  rw [parts_subject] at whole
  simp only [Option.toList_some, List.map_cons, List.map_nil, List.cons_append, List.nil_append,
    List.sum_cons, List.sum_nil, types, middle] at whole
  omega

theorem length_encode_time_le (seconds : Int) : (Time.encode seconds).encode.length ≤ 32 := by
  have whole : (Time.encode seconds).encode.length ≤ _ := Der.length_encode_le _ _
  have contents : (Time.encode seconds).contents.length ≤ 15 := by
    simp only [Time.encode]
    split <;> simp [Time.writeTwo]
  omega

/-! ## Records -/

theorem SignedExtension.length_encode_le (e : SignedExtension) :
    e.encode.length ≤ 4 * (e.oid.length + e.value.length) + 16 := by
  have whole := length_sequence_le
    [Der.encode 0x06 e.oid, if e.critical then boolean true else [], octets e.value]
  have named := Der.length_encode_le 0x06 e.oid
  have value := Der.length_encode_le 0x04 e.value
  have flag : (if e.critical = true then boolean true else []).length ≤ 3 := by
    split <;> decide
  rw [encode]
  simp only [List.flatten_cons, List.flatten_nil, List.append_nil, List.length_append, octets]
    at whole ⊢
  omega

theorem SignedPart.length_encode_le (p : SignedPart) : p.encode.length ≤
    2 * ((versionBytes p.version).length + (Der.encode 0x02 p.serial).length +
      p.algorithm.encode.length + (encodeName p.issuer).length +
      (Der.sequence [p.notBefore.encode, p.notAfter.encode]).length +
      (encodeName p.subject).length +
      (Der.sequence [p.keyAlgorithm.encode, Der.encode 0x03 p.key]).length +
      (idBytes 1 p.issuerId).length + (idBytes 2 p.subjectId).length +
      (extensionsBytes p.extensions).length) + 2 := by
  rw [SignedPart.encode_eq]
  refine Nat.le_trans (Der.length_encode_le 0x30 _) ?_
  simp only [List.length_append]
  omega

theorem Signed.length_encode_le (c : Signed) : c.encode.length ≤
    2 * (c.part.encode.length + c.algorithm.encode.length +
      (Der.encode 0x03 c.signature).length) + 2 := by
  rw [Signed.encode_eq]
  refine Nat.le_trans (Der.length_encode_le 0x30 _) ?_
  simp only [List.length_append]
  omega

/-! ## Certificates -/

namespace Issued

/-- A certificate that is signed once and has no further extensions, and none of whose parts is
larger than `size`. -/
structure IsBounded (size : Nat) (sign : KeyPair → Bytes → Bytes) (c : Issued) : Prop where
  once : c.resigned = none
  plain : c.template.others = []
  serial : c.template.serial.length ≤ size
  issuer : c.issuer.name.encode.length ≤ size
  subject : c.template.subject.encode.length ≤ size
  issuerKey : c.issuer.keyId.length ≤ size
  algorithm : c.subjectKey.algorithm.encode.length ≤ size
  key : c.subjectKey.publicBits.length ≤ size
  hosts : (c.template.dnsNames.map fun n => Der.tagged 2 (Bytes.ofString n)).flatten.length ≤ size
  purposes : c.template.purposes.length ≤ size
  constraints : ∀ k ∈ c.template.constraints, k.encode.length ≤ size
  signature : (sign c.issuer.key c.part.encode).length ≤ size

variable {c : Issued} {size : Nat} {sign : KeyPair → Bytes → Bytes}

theorem length_extensions_le (plain : c.template.others = []) : c.extensions.length ≤ 7 := by
  have issuerKey : (c.template.issuerKeyExtension c.issuer).length ≤ 1 := by
    rw [Template.issuerKeyExtension]
    split <;> simp
  have hosts : c.template.sanExtension.length ≤ 1 := by
    rw [Template.sanExtension]
    split <;> simp
  have purposes : c.template.purposeExtension.length ≤ 1 := by
    rw [Template.purposeExtension]
    split <;> simp
  have constraints : c.template.constraintExtension.length ≤ 1 := by
    rw [Template.constraintExtension]
    cases c.template.constraints <;> simp
  have role : (c.template.roleExtensions c.subjectKey).length ≤ 2 := by
    simp only [Template.roleExtensions]
    split <;> simp
  simp only [extensions, Template.extensions, plain, List.length_append, List.length_singleton,
    List.length_nil]
  omega

theorem IsBounded.length_value_le (bounded : c.IsBounded size sign) {e : SignedExtension}
    (member : e ∈ c.extensions) : e.oid.length = 3 ∧ e.value.length ≤ 20 * size + 60 := by
  have carried : c.Carries e.oid e.value := ⟨e.critical, member⟩
  obtain ⟨key, hosts, usage, purpose, constraint, keyId, role⟩ := extension_oids
  rcases (carries_iff bounded.plain).mp carried with ⟨oid, -, value⟩ | ⟨oid, -, value⟩ |
    ⟨oid, value⟩ | ⟨oid, -, value⟩ | ⟨oid, k, present, value⟩ | ⟨oid, -, value⟩ | ⟨oid, value⟩
  · refine ⟨by rw [oid, key]; rfl, ?_⟩
    have whole := length_sequence_le [Der.tagged 0 c.issuer.keyId]
    have inside : (Der.tagged 0 c.issuer.keyId).length ≤ _ := Der.length_encode_le _ _
    have id := bounded.issuerKey
    rw [List.flatten_singleton] at whole
    rw [value]
    omega
  · refine ⟨by rw [oid, hosts]; rfl, ?_⟩
    have whole := length_sequence_le
      (c.template.dnsNames.map fun n => Der.tagged 2 (Bytes.ofString n))
    have inside := bounded.hosts
    rw [value]
    omega
  · refine ⟨by rw [oid, usage]; rfl, ?_⟩
    have bits : (Der.encode 0x03 c.template.keyUsage.bits).length = 4 := by
      cases c.template.keyUsage <;> rfl
    rw [value, bits]
    omega
  · refine ⟨by rw [oid, purpose]; rfl, ?_⟩
    have whole := length_sequence_le (c.template.purposes.map fun p => Der.encode 0x06 p.oid)
    have each : ∀ p ∈ c.template.purposes, (Der.encode 0x06 p.oid).length ≤ 10 := by
      rintro (_ | _) - <;> decide +kernel
    have inside := length_flatten_map_le each
    have count := bounded.purposes
    rw [value]
    omega
  · refine ⟨by rw [oid, constraint]; rfl, ?_⟩
    have inside := bounded.constraints k present
    rw [value]
    omega
  · refine ⟨by rw [oid, keyId]; rfl, ?_⟩
    have whole : (Der.octets c.subjectKey.identifier).length ≤ _ := Der.length_encode_le _ _
    have digest : c.subjectKey.identifier.length ≤ 20 := List.length_take_le _ _
    rw [value]
    omega
  · refine ⟨by rw [oid, role]; rfl, ?_⟩
    have short : e.value.length ≤ 5 := by
      rcases value with ⟨-, value⟩ | ⟨-, value⟩
      · rw [value]
        decide
      · rw [value]
        decide
    omega

theorem IsBounded.length_extensionsBytes_le (bounded : c.IsBounded size sign) :
    (extensionsBytes (some c.extensions)).length ≤ 2500 * size + 10000 := by
  have each : ∀ e ∈ c.extensions, e.encode.length ≤ 80 * size + 268 := by
    intro e member
    obtain ⟨oid, value⟩ := bounded.length_value_le member
    have whole := e.length_encode_le
    omega
  have parts := length_flatten_map_le each
  have count := Nat.mul_le_mul_right (80 * size + 268) (length_extensions_le bounded.plain)
  have list := length_sequence_le (c.extensions.map SignedExtension.encode)
  have wrapped : (extensionsBytes (some c.extensions)).length ≤ _ := Der.length_encode_le 0xA3 _
  omega

theorem length_signsWith_le (k : KeyPair) : k.signsWith.encode.length ≤ 20 := by
  rw [KeyPair.signsWith]
  split <;> decide +kernel

theorem IsBounded.length_part_le (bounded : c.IsBounded size sign) :
    c.part.encode.length ≤ 6000 * size + 30000 := by
  have whole := c.part.length_encode_le
  have serial := Der.length_encode_le 0x02 c.part.serial
  have number : c.part.serial.length ≤ size := bounded.serial
  have signs : c.part.algorithm.encode.length ≤ 20 := length_signsWith_le _
  have issuer : (encodeName c.part.issuer).length ≤ size := bounded.issuer
  have begins : c.part.notBefore.encode.length ≤ 32 := length_encode_time_le _
  have ends : c.part.notAfter.encode.length ≤ 32 := length_encode_time_le _
  have validity := length_sequence_le [c.part.notBefore.encode, c.part.notAfter.encode]
  have subject : (encodeName c.part.subject).length ≤ size := bounded.subject
  have bits := Der.length_encode_le 0x03 c.part.key
  have key : c.part.key.length ≤ size + 1 := Nat.succ_le_succ bounded.key
  have algorithm : c.part.keyAlgorithm.encode.length ≤ size := bounded.algorithm
  have keyInfo := length_sequence_le [c.part.keyAlgorithm.encode, encode 0x03 c.part.key]
  have extensions : (extensionsBytes c.part.extensions).length ≤ _ :=
    bounded.length_extensionsBytes_le
  have others : (versionBytes c.part.version).length = 5 ∧ (idBytes 1 c.part.issuerId).length = 0 ∧
      (idBytes 2 c.part.subjectId).length = 0 := ⟨rfl, rfl, rfl⟩
  simp only [List.flatten_cons, List.flatten_nil, List.append_nil, List.length_append]
    at validity keyInfo
  omega

theorem IsBounded.length_der_le (bounded : c.IsBounded size sign) :
    (c.der sign).length ≤ 13000 * size + 70000 := by
  have whole : (c.der sign).length ≤ _ := (c.signed sign).length_encode_le
  rw [signed_of_once bounded.once] at whole
  dsimp only at whole
  have part := bounded.length_part_le
  have signs := length_signsWith_le c.issuer.key
  have bits := Der.length_encode_le 0x03 (0 :: sign c.issuer.key c.part.encode)
  have signature := bounded.signature
  rw [List.length_cons] at bits
  omega

end Issued

end ChainConformance.X509
