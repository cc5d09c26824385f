import ChainConformance.Proofs.X509.Issued

/-!
# What signing adds

A signed certificate says what its issuer fixed, names one algorithm in both places, and bears a
signature by the issuer's key. Proved here:

* `signed_part`: signing changes nothing but the algorithm;
* `carries_signed`: the extensions of a signed certificate;
* `signedBy_signed`: whose signature it bears, also if it is signed again.
-/

namespace ChainConformance.X509

/-- The signed part has an extension with this identifier and value. -/
def SignedPart.Carries (p : SignedPart) (oid value : Bytes) : Prop :=
  ∃ extensions, p.extensions = some extensions ∧
    ∃ critical, (⟨oid, critical, value⟩ : SignedExtension) ∈ extensions

/-- The signed part without the extensions that have one of these identifiers. -/
def SignedPart.without (oids : List Bytes) (p : SignedPart) : SignedPart :=
  { p with extensions := p.extensions.map (·.filter (·.oid ∉ oids)) }

/-- The extensions with this identifier. -/
def SignedPart.extensionsOf (oid : Bytes) (p : SignedPart) : List SignedExtension :=
  (p.extensions.getD []).filter (·.oid = oid)

/-- The signature is one by the key over the signed part, made as the key usually signs or, with the
private number of a P-256 key, over a SHA-1 digest. -/
def Signed.SignedBy (sign : KeyPair → Bytes → Bytes) (key : KeyPair) (x : Signed) : Prop :=
  (x.algorithm = key.signsWith ∧ x.signature = 0 :: sign key x.part.encode) ∨
    ∃ number signature, key.secret = .p256 number ∧ x.algorithm = .ecdsaWithSha1 ∧
      Ecdsa.sign .p256 number (Sha1.digest x.part.encode) = some signature ∧
      x.signature = 0 :: Ecdsa.encode signature

namespace Issued

variable (sign : KeyPair → Bytes → Bytes)

/-- A certificate is signed as its issuer's key signs, or with SHA-1 if it is signed again. -/
theorem signed_cases (c : Issued) :
    c.signed sign = ⟨c.part, c.issuer.key.signsWith, 0 :: sign c.issuer.key c.part.encode⟩ ∨
      ∃ number signature, c.resigned = some number ∧
        Ecdsa.sign .p256 number (Sha1.digest c.part.withSha1.encode) = some signature ∧
        c.signed sign = ⟨c.part.withSha1, .ecdsaWithSha1, 0 :: Ecdsa.encode signature⟩ := by
  rw [signed]
  cases again : c.resigned with
  | none => exact .inl rfl
  | some number =>
    simp only [Signed.resign?]
    cases made : Ecdsa.sign .p256 number (Sha1.digest c.part.withSha1.encode) with
    | none => exact .inl rfl
    | some signature => exact .inr ⟨number, signature, rfl, made, rfl⟩

theorem signed_part (c : Issued) :
    (c.signed sign).part = { c.part with algorithm := (c.signed sign).algorithm } := by
  rcases signed_cases sign c with plain | ⟨_, _, -, -, again⟩
  · rw [plain]
    rfl
  · rw [again]
    rfl

theorem carries_signed {c : Issued} {oid value : Bytes} :
    (c.signed sign).part.Carries oid value ↔ c.Carries oid value := by
  have extensions : (c.signed sign).part.extensions = some c.extensions := by
    rw [signed_part]
    rfl
  simp [SignedPart.Carries, Carries, extensions]

/-- A certificate that is to be signed again, and can be, names SHA-1 and agrees in the rest. -/
theorem signed_of_resigned {c : Issued} {number : Nat} (again : c.resigned = some number)
    (signs : (Ecdsa.sign .p256 number (Sha1.digest c.part.withSha1.encode)).isSome) :
    (c.signed sign).part = c.part.withSha1 ∧ (c.signed sign).algorithm = .ecdsaWithSha1 := by
  obtain ⟨signature, made⟩ := Option.isSome_iff_exists.mp signs
  have resigned : c.signed sign =
      ⟨c.part.withSha1, .ecdsaWithSha1, 0 :: Ecdsa.encode signature⟩ := by
    rw [signed, again]
    simp only [Signed.resign?, made]
    rfl
  rw [resigned]
  exact ⟨rfl, rfl⟩

theorem signedBy_signed {c : Issued}
    (secret : ∀ number, c.resigned = some number → c.issuer.key.secret = .p256 number) :
    (c.signed sign).SignedBy sign c.issuer.key := by
  rcases signed_cases sign c with plain | ⟨number, signature, again, made, whole⟩
  · rw [plain]
    exact .inl ⟨rfl, rfl⟩
  · rw [whole]
    exact .inr ⟨number, signature, secret number again, rfl, made, rfl⟩

end Issued

end ChainConformance.X509
