import ChainConformance.Proofs.Asn1.Writer
import ChainConformance.Text.Pieces
import ChainConformance.X509.Issued

/-!
# What a certificate says

Statements that a client reads off an issued certificate: who may issue with it, whom it names, and
what speaks against it. They are about the extensions, validity and algorithm that the certificate
bears, not about how it came to be. For a certificate whose template has no further extensions:

* `isAuthority_iff`, `barsServers_iff`, `excludesName_iff`: what the template has to be for each;
* `namesHost_of_mem`: it names the hosts of its template;
* `algorithm_signed`: the algorithm that its signature names.
-/

namespace ChainConformance.X509

/-- The name is the domain or lies below it; the case of ASCII letters does not matter. -/
def InDomain (name domain : String) : Prop :=
  ∃ front : List Char, (Text.lower name).toList = front ++ (Text.lower domain).toList ∧
    (front = [] ∨ front.getLast? = some '.')

/-- The constraints permit only other domains than those of the name, or exclude one of them. -/
def Constraints.Exclude (k : Constraints) (name : String) : Prop :=
  ((∃ domain, Subtree.domain domain ∈ k.permitted) ∧
    ∀ domain, Subtree.domain domain ∈ k.permitted → ¬ InDomain name domain) ∨
  ∃ domain, Subtree.domain domain ∈ k.excluded ∧ InDomain name domain

namespace Issued

/-- The extensions of the certificate. -/
def extensions (c : Issued) : List SignedExtension := c.template.extensions c.issuer c.subjectKey

/-- The certificate has an extension with this identifier and value. -/
def Carries (c : Issued) (oid value : Bytes) : Prop :=
  ∃ critical, (⟨oid, critical, value⟩ : SignedExtension) ∈ c.extensions

/-- The basic constraints make the subject an authority, whose key may sign certificates. -/
def IsAuthority (c : Issued) : Prop :=
  c.Carries Oid.basicConstraints (Der.sequence [Der.boolean true]) ∧
    c.Carries Oid.keyUsage (Der.encode 0x03 KeyUsage.certificateSigning.bits)

/-- The host is among the alternative names. -/
def NamesHost (c : Issued) (host : String) : Prop :=
  ∃ hosts : List String, host ∈ hosts ∧ c.Carries Oid.subjectAltName
    (Der.sequence (hosts.map fun name => Der.tagged 2 (Bytes.ofString name)))

/-- There is a list of extended key usages, in which TLS servers are missing. -/
def BarsServers (c : Issued) : Prop :=
  ∃ purposes : List Bytes, Oid.serverAuth ∉ purposes ∧
    c.Carries Oid.extendedKeyUsage (Der.sequence (purposes.map (Der.encode 0x06)))

/-- There are name constraints that exclude the host. -/
def ExcludesName (c : Issued) (host : String) : Prop :=
  ∃ k : Constraints, k.Exclude host ∧ c.Carries Oid.nameConstraints k.encode

/-- The algorithm that the signature names, as long as signing succeeds. -/
def algorithm (c : Issued) : Algorithm :=
  if c.resigned.isSome then .ecdsaWithSha1 else c.issuer.key.signsWith

/-- Nothing in the certificate speaks against its use for the host at the time. -/
structure Usable (c : Issued) (now : Int) (host : String) : Prop where
  valid : ¬ c.template.notAfter < now
  servers : ¬ c.BarsServers
  current : c.algorithm ≠ .ecdsaWithSha1
  admits : ¬ c.ExcludesName host

/-- The second certificate is issued under the name and by the key that the first one certifies. -/
def Vouches (c next : Issued) : Prop :=
  next.issuer.key = c.subjectKey ∧ next.part.issuer = c.part.subject

/-! ## Extensions of a template -/

/-- The identifiers of the extensions that templates make, in their order. -/
theorem extension_oids :
    Oid.authorityKeyId = [85, 29, 35] ∧ Oid.subjectAltName = [85, 29, 17] ∧
      Oid.keyUsage = [85, 29, 15] ∧ Oid.extendedKeyUsage = [85, 29, 37] ∧
      Oid.nameConstraints = [85, 29, 30] ∧ Oid.subjectKeyId = [85, 29, 14] ∧
      Oid.basicConstraints = [85, 29, 19] := by
  decide +kernel

section
variable {c : Issued} (plain : c.template.others = [])
include plain

/-- What a certificate carries whose template has no further extensions. -/
theorem carries_iff {oid value : Bytes} : c.Carries oid value ↔
    (oid = Oid.authorityKeyId ∧ c.template.namesIssuerKey = true ∧
      value = Der.sequence [Der.tagged 0 c.issuer.keyId]) ∨
    (oid = Oid.subjectAltName ∧ c.template.dnsNames ≠ [] ∧ value =
      Der.sequence (c.template.dnsNames.map fun n => Der.tagged 2 (Bytes.ofString n))) ∨
    (oid = Oid.keyUsage ∧ value = Der.encode 0x03 c.template.keyUsage.bits) ∨
    (oid = Oid.extendedKeyUsage ∧ c.template.purposes ≠ [] ∧
      value = Der.sequence (c.template.purposes.map fun p => Der.encode 0x06 p.oid)) ∨
    (oid = Oid.nameConstraints ∧ ∃ k, c.template.constraints = some k ∧ value = k.encode) ∨
    (oid = Oid.subjectKeyId ∧ c.template.role ≠ .unstated ∧
      value = Der.octets c.subjectKey.identifier) ∨
    (oid = Oid.basicConstraints ∧
      ((c.template.role = .authority ∧ value = Der.sequence [Der.boolean true]) ∨
        (c.template.role = .endEntity ∧ value = Der.sequence []))) := by
  have members : ∀ critical, (⟨oid, critical, value⟩ : SignedExtension) ∈ c.extensions ↔
      ⟨oid, critical, value⟩ ∈ c.template.issuerKeyExtension c.issuer ∨
      ⟨oid, critical, value⟩ ∈ c.template.sanExtension ∨
      ⟨oid, critical, value⟩ = c.template.usageExtension ∨
      ⟨oid, critical, value⟩ ∈ c.template.purposeExtension ∨
      ⟨oid, critical, value⟩ ∈ c.template.constraintExtension ∨
      ⟨oid, critical, value⟩ ∈ c.template.roleExtensions c.subjectKey := by
    intro critical
    simp [extensions, Template.extensions, plain]
  simp only [Carries, members, exists_or]
  refine or_congr ?_ (or_congr ?_ (or_congr ?_ (or_congr ?_ (or_congr ?_ ?_))))
  · simp [Template.issuerKeyExtension, and_left_comm]
  · simp [Template.sanExtension, and_left_comm]
  · simp [Template.usageExtension]
  · simp [Template.purposeExtension, and_left_comm]
  · simp [Template.constraintExtension, and_left_comm, eq_comm]
  · cases role : c.template.role <;> simp [Template.roleExtensions, role]

theorem isAuthority_iff : c.IsAuthority ↔
    c.template.role = .authority ∧ c.template.keyUsage = .certificateSigning := by
  have flag : Der.sequence [Der.boolean true] ≠ Der.sequence [] := by decide
  have usage : Der.encode 0x03 KeyUsage.certificateSigning.bits =
      Der.encode 0x03 c.template.keyUsage.bits ↔ c.template.keyUsage = .certificateSigning := by
    cases c.template.keyUsage <;> decide
  simp [IsAuthority, carries_iff plain, extension_oids, flag, usage]

theorem namesHost_of_mem {host : String} (member : host ∈ c.template.dnsNames) :
    c.NamesHost host := by
  refine ⟨c.template.dnsNames, member, (carries_iff plain).mpr (Or.inr (Or.inl ⟨rfl, ?_, rfl⟩))⟩
  exact List.ne_nil_of_mem member

theorem not_namesHost_of_nil (none : c.template.dnsNames = []) (host : String) :
    ¬ c.NamesHost host := by
  rintro ⟨hosts, -, carried⟩
  simp [carries_iff plain, extension_oids, none] at carried

theorem not_barsServers_of_nil (none : c.template.purposes = []) : ¬ c.BarsServers := by
  rintro ⟨purposes, -, carried⟩
  simp [carries_iff plain, extension_oids, none] at carried

theorem barsServers_singleton_iff {p : Purpose} (one : c.template.purposes = [p]) :
    c.BarsServers ↔ p ≠ .serverAuth := by
  have short : p.oid.length < 120 := by cases p <;> decide +kernel
  have carried : ∀ purposes : List Bytes,
      c.Carries Oid.extendedKeyUsage (Der.sequence (purposes.map (Der.encode 0x06))) ↔
        purposes = [p.oid] := by
    intro purposes
    have read : Der.sequence (purposes.map (Der.encode 0x06)) =
        Der.sequence [Der.encode 0x06 p.oid] ↔ purposes = [p.oid] :=
      ⟨Der.sequence_eq_singleton short, fun e => e ▸ rfl⟩
    simp [carries_iff plain, extension_oids, one, read]
  have listed : Oid.serverAuth ∉ [p.oid] ↔ p ≠ .serverAuth := by cases p <;> decide +kernel
  simp only [BarsServers, carried, exists_eq_right, listed]

theorem not_excludesName_of_none (none : c.template.constraints = none) (host : String) :
    ¬ c.ExcludesName host := by
  rintro ⟨k, -, carried⟩
  simp [carries_iff plain, extension_oids, none] at carried

theorem excludesName_of_some {k : Constraints} {host : String}
    (some : c.template.constraints = some k) (excludes : k.Exclude host) : c.ExcludesName host := by
  refine ⟨k, excludes, (carries_iff plain).mpr ?_⟩
  exact Or.inr (Or.inr (Or.inr (Or.inr (Or.inl ⟨rfl, k, some, rfl⟩))))

end

/-! ## The algorithm -/

theorem signsWith_ne_sha1 (k : KeyPair) : k.signsWith ≠ .ecdsaWithSha1 := by
  rw [KeyPair.signsWith]
  split <;> decide +kernel

theorem algorithm_eq_sha1_iff {c : Issued} :
    c.algorithm = .ecdsaWithSha1 ↔ c.resigned.isSome := by
  rw [algorithm]
  split
  · next again => simp [again]
  · next once => simp [once, signsWith_ne_sha1]

/-- The signed certificate names the algorithm, outside of what is signed and in it, if it can be
signed again where it has to be. -/
theorem algorithm_signed (sign : KeyPair → Bytes → Bytes) {c : Issued}
    (succeeds : ∀ plain number, c.resigned = some number →
      (Signed.resign? ⟨c.part, c.issuer.key.signsWith, plain⟩ number).isSome) :
    (c.signed sign).algorithm = c.algorithm ∧
      (c.signed sign).part = { c.part with algorithm := c.algorithm } := by
  rw [signed, algorithm]
  cases again : c.resigned with
  | none => exact ⟨rfl, rfl⟩
  | some number =>
    obtain ⟨resigned, made⟩ := Option.isSome_iff_exists.mp
      (succeeds (0 :: sign c.issuer.key c.part.encode) number again)
    simp only [made, Option.getD_some]
    rw [Signed.resign?, Option.map_eq_some_iff] at made
    obtain ⟨signature, -, rfl⟩ := made
    exact ⟨rfl, rfl⟩

theorem signed_of_once {sign : KeyPair → Bytes → Bytes} {c : Issued} (once : c.resigned = none) :
    c.signed sign = ⟨c.part, c.issuer.key.signsWith, 0 :: sign c.issuer.key c.part.encode⟩ := by
  rw [signed, once]

theorem exists_number_of_resign {sign : KeyPair → Bytes → Bytes} {c c' : Issued}
    (h : c.resign sign = .ok c') :
    ∃ number, c.issuer.key.secret = .p256 number ∧ c' = { c with resigned := some number } := by
  rw [resign] at h
  split at h
  · cases h
  split at h
  · split at h
    · next number secret =>
      cases h
      exact ⟨number, secret, rfl⟩
    · cases h
  · cases h

end Issued

end ChainConformance.X509
