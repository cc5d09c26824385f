import ChainConformance.Proofs.Asn1.Time
import ChainConformance.Proofs.X509.DistinguishedName
import ChainConformance.Proofs.X509.Issued
import ChainConformance.X509.Seeded

/-!
# The contents of a certificate without what is drawn

Two certificates for the same test differ in their keys, serial numbers and the serial numbers of
their names, which are drawn at random. `Issued.content` is what is signed with all that blanked, so
that certificates with different contents differ in what they say. Proved here:

* `content_eq_signed`: the contents are those of the signed certificate;
* `carries_of_content_eq`, `algorithm_eq_of_content_eq`: what equal contents have in common;
* `content_eq_of_alike`: what certificates with equal contents may differ in.
-/

namespace ChainConformance

namespace X509

/-! ## Blanks -/

/-- The attribute with a blank in the place of a serial number. -/
def NameAttribute.settled (a : NameAttribute) : NameAttribute :=
  if a.oid = Oid.serialNumber then { a with value := ⟨0, []⟩ } else a

/-- The extension with a blank in the place of the identifier of a key. -/
def SignedExtension.settled (e : SignedExtension) : SignedExtension :=
  if e.oid = Oid.subjectKeyId ∨ e.oid = Oid.authorityKeyId then { e with value := [] } else e

/-- The signed part without what is drawn. -/
def SignedPart.settled (p : SignedPart) : SignedPart :=
  { p with
    serial := []
    issuer := p.issuer.map (·.map NameAttribute.settled)
    subject := p.subject.map (·.map NameAttribute.settled)
    key := []
    extensions := p.extensions.map (·.map SignedExtension.settled) }

namespace Issued

/-- What the certificate says apart from what is drawn, as long as signing succeeds. -/
def content (c : Issued) : SignedPart := SignedPart.settled { c.part with algorithm := c.algorithm }

/-- The contents stand in the signed certificate, if it can be signed again where it has to be. -/
theorem content_eq_signed (sign : KeyPair → Bytes → Bytes) {c : Issued}
    (succeeds : ∀ plain number, c.resigned = some number →
      (Signed.resign? ⟨c.part, c.issuer.key.signsWith, plain⟩ number).isSome) :
    c.content = (c.signed sign).part.settled := by
  rw [content, (algorithm_signed sign succeeds).2]

section
variable {c c' : Issued} (same : c.content = c'.content)
include same

theorem algorithm_eq_of_content_eq : c.algorithm = c'.algorithm :=
  congrArg SignedPart.algorithm same

/-- Apart from identifiers of keys, the same extensions are carried. -/
theorem carries_of_content_eq {oid value : Bytes}
    (kept : oid ≠ Oid.subjectKeyId ∧ oid ≠ Oid.authorityKeyId) (carried : c.Carries oid value) :
    c'.Carries oid value := by
  obtain ⟨critical, member⟩ := carried
  have settled : (⟨oid, critical, value⟩ : SignedExtension).settled = ⟨oid, critical, value⟩ :=
    if_neg (not_or.mpr kept)
  have equal : c.extensions.map SignedExtension.settled =
      c'.extensions.map SignedExtension.settled :=
    Option.some.inj (congrArg SignedPart.extensions same)
  have listed := List.mem_map_of_mem (f := SignedExtension.settled) member
  rw [equal, settled] at listed
  obtain ⟨e, present, blanked⟩ := List.mem_map.mp listed
  refine ⟨critical, ?_⟩
  rw [SignedExtension.settled] at blanked
  split at blanked
  · next drawn =>
    have named : e.oid = oid := congrArg SignedExtension.oid blanked
    rw [named] at drawn
    exact absurd drawn (not_or.mpr kept)
  · exact blanked ▸ present

end

/-- Blanks hide the keys in the extensions of a template. -/
theorem settled_extensions (t : Template) (issuer issuer' : Issuer) (key key' : KeyPair) :
    (t.extensions issuer key).map SignedExtension.settled =
      (t.extensions issuer' key').map SignedExtension.settled := by
  have identified : (t.issuerKeyExtension issuer).map SignedExtension.settled =
      (t.issuerKeyExtension issuer').map SignedExtension.settled := by
    cases named : t.namesIssuerKey <;>
      simp [Template.issuerKeyExtension, named, SignedExtension.settled]
  have role : (t.roleExtensions key).map SignedExtension.settled =
      (t.roleExtensions key').map SignedExtension.settled := by
    cases named : t.role <;> simp [Template.roleExtensions, named, SignedExtension.settled]
  simp only [Template.extensions, List.map_append, identified, role]

/-- Certificates whose templates differ in the serial number and that of the subject have the same
contents, if their keys are alike. -/
theorem content_eq_of_alike {c c' : Issued} (once : c.resigned = none) (once' : c'.resigned = none)
    (issuer : c.issuer.name.toSets.map (·.map NameAttribute.settled) =
      c'.issuer.name.toSets.map (·.map NameAttribute.settled))
    (signs : c.issuer.key.signsWith = c'.issuer.key.signsWith)
    (certifies : c.subjectKey.algorithm = c'.subjectKey.algorithm)
    (subject : c.template.subject.toSets.map (·.map NameAttribute.settled) =
      c'.template.subject.toSets.map (·.map NameAttribute.settled))
    (template : c.template =
      { c'.template with serial := c.template.serial, subject := c.template.subject }) :
    c.content = c'.content := by
  have begins : c.template.notBefore = c'.template.notBefore := by rw [template]
  have expires : c.template.notAfter = c'.template.notAfter := by rw [template]
  have extensions : (c.template.extensions c.issuer c.subjectKey).map SignedExtension.settled =
      (c'.template.extensions c'.issuer c'.subjectKey).map SignedExtension.settled := by
    rw [template]
    exact settled_extensions c'.template _ _ _ _
  simp only [content, SignedPart.settled, part, algorithm, once, once', issuer, signs, certifies,
    subject, begins, expires, extensions, Option.map_some]

end Issued

/-! ## Draws -/

/-- Every key is one of P-256. -/
def Draws.AreP256 (d : Draws) : Prop :=
  ∀ i, (d.key i).algorithm = .curve Oid.p256 ∧ (d.key i).signsWith = .ecdsaWithSha256

/-- The keys that the program draws are of P-256. -/
theorem Draws.areP256_seeded (seed : Bytes) (now : Int) : (Draws.seeded seed now).AreP256 :=
  fun _ => ⟨rfl, rfl⟩

/-- The serial number of a name is blank in the contents. -/
theorem settled_subject (commonName : String) (uuid uuid' : String) :
    (DistinguishedName.subject (some commonName) uuid).toSets.map (·.map NameAttribute.settled) =
      (DistinguishedName.subject (some commonName) uuid').toSets.map
        (·.map NameAttribute.settled) := by
  simp [DistinguishedName.toSets, DistinguishedName.parts_subject, NamePart.toAttribute,
    NameAttribute.settled]

end X509

end ChainConformance
