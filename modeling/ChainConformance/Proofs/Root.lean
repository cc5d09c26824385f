import ChainConformance.Proofs.X509.Bundle
import ChainConformance.Proofs.X509.DistinguishedName
import ChainConformance.Root

/-!
# What a root needs

* `issuer_eq_ok_iff`, `subject_eq_ok_iff`: when a root is an issuer, and when certificates can be
  issued to it;
* `ofPem_eq_ok_iff`: what a bundle has to hold;
* `ofPem_pem`: a usable root is read back from the bundle that it is written to;
* `subject_of_issuer`: a root that is both issues under the name that it is issued to, which says
  what the attributes of its certificate say.
-/

namespace ChainConformance.Root

open X509

variable {root : Root} {issuer : Issuer} {name : DistinguishedName}

theorem issuer_eq_ok_iff : root.issuer = .ok issuer ↔
    ∃ c n, Certificate.read? root.certificate = some c ∧
      (c.extensions.filter (·.oid = Oid.keyUsage)).length < 2 ∧
      DistinguishedName.ofIssuer c.subject = .ok n ∧
      issuer = ⟨n, (statedKeyId? c).getD root.key.identifier, root.key⟩ := by
  rw [Root.issuer, issuerOf]
  cases Certificate.read? root.certificate with
  | none => simp
  | some c =>
    by_cases twice : 2 ≤ (c.extensions.filter (·.oid = Oid.keyUsage)).length
    · simp only [if_pos twice]
      constructor
      · intro h
        cases h
      · rintro ⟨c, n, ⟨⟩, once, -⟩
        exact absurd twice (Nat.not_le.mpr once)
    · simp only [if_neg twice]
      constructor
      · intro h
        obtain ⟨n, named, e⟩ := bind_eq_ok_iff.mp h
        exact ⟨c, n, rfl, Nat.not_le.mp twice, named, (pure_eq_ok_iff.mp e).symm⟩
      · rintro ⟨c, n, ⟨⟩, -, named, rfl⟩
        exact bind_eq_ok_iff.mpr ⟨n, named, rfl⟩

theorem subject_eq_ok_iff : root.subject = .ok name ↔
    ∃ c, Certificate.read? root.certificate = some c ∧
      DistinguishedName.ofSubject c.subject = .ok name := by
  rw [Root.subject]
  cases Certificate.read? root.certificate <;> simp

/-- A bundle holds a root if its first certificate is one that its first private key can issue
with. -/
theorem ofPem_eq_ok_iff {input : Bytes} : ofPem input = .ok root ↔
    ∃ blocks pkcs8 issuer, pemBlocks input = .ok blocks ∧
      firstBlock? "CERTIFICATE" blocks = some root.certificate ∧
      firstBlock? "PRIVATE KEY" blocks = some pkcs8 ∧ KeyPair.read? pkcs8 = some root.key ∧
      root.issuer = .ok issuer := by
  rw [ofPem, bind_eq_ok_iff]
  constructor
  · rintro ⟨blocks, read, h⟩
    cases first : firstBlock? "CERTIFICATE" blocks with
    | none => simp [first] at h
    | some certificate =>
      cases first' : firstBlock? "PRIVATE KEY" blocks with
      | none => simp [first, first'] at h
      | some pkcs8 =>
        cases usable : KeyPair.read? pkcs8 with
        | none => simp [first, first', usable] at h
        | some key =>
          simp only [first, first', usable] at h
          obtain ⟨issuer, issues, e⟩ := bind_eq_ok_iff.mp h
          cases pure_eq_ok_iff.mp e
          exact ⟨blocks, pkcs8, issuer, read, first, first', usable, issues⟩
  · rintro ⟨blocks, pkcs8, issuer, read, first, first', usable, issues⟩
    refine ⟨blocks, read, ?_⟩
    simp only [first, first', usable]
    exact bind_eq_ok_iff.mpr ⟨issuer, issues, rfl⟩

/-- The blocks that a root is written in. -/
theorem pemBlocks_pem (r : Root) : pemBlocks (Bytes.ofString r.pem) =
    .ok [⟨"CERTIFICATE", r.certificate⟩, ⟨"PRIVATE KEY", r.key.pkcs8⟩] := by
  let b : Bundle :=
    ⟨[([], ⟨"CERTIFICATE", r.certificate⟩), ([], ⟨"PRIVATE KEY", r.key.pkcs8⟩)], []⟩
  have wellFormed : b.WellFormed := by
    refine ⟨?_, fun line member => absurd member List.not_mem_nil⟩
    simp only [b, Bundle.blocks, List.map_cons, List.map_nil, List.forall_mem_cons]
    exact ⟨by decide, by decide, fun block member => absurd member List.not_mem_nil⟩
  have text : r.pem = b.text := by
    simp [b, pem, certificatePem, Bundle.text, Bundle.partsText, completeLines]
  refine Bundle.pemBlocks_text (Or.inl rfl) wellFormed ?_
  rw [text, Bundle.toList_text]
  rfl

theorem ofPem_pem (usable : KeyPair.read? root.key.pkcs8 = some root.key)
    (issues : root.issuer = .ok issuer) : ofPem (Bytes.ofString root.pem) = .ok root :=
  ofPem_eq_ok_iff.mpr ⟨_, _, issuer, pemBlocks_pem root, rfl, rfl, usable, issues⟩

/-- A root that is an issuer and that certificates can be issued to has the same name in both
parts, which says what the attributes of its certificate say. -/
theorem subject_of_issuer (named : root.subject = .ok name) (issues : root.issuer = .ok issuer) :
    issuer.name = name ∧ ∃ c, Certificate.read? root.certificate = some c ∧
      c.subject = c.subject.flatten.map ([·]) ∧
      ∃ parts, List.Forall₂ DistinguishedName.Restates c.subject.flatten parts ∧
        name.parts = collected parts := by
  obtain ⟨c, read, taken⟩ := subject_eq_ok_iff.mp named
  obtain ⟨c', n, read', -, taken', rfl⟩ := issuer_eq_ok_iff.mp issues
  cases read.symm.trans read'
  obtain ⟨same, single, parts⟩ := DistinguishedName.ofIssuer_of_ofSubject taken taken'
  exact ⟨same, c, read, single, parts⟩

end ChainConformance.Root
