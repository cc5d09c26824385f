import ChainConformance.Proofs.Asn1.Deciding
import ChainConformance.Proofs.Crypto.KeyPair
import ChainConformance.Proofs.X509.Certificate
import ChainConformance.Proofs.X509.Content
import ChainConformance.Proofs.X509.Resigning

/-!
# Decoding what is issued

The strict reader gives an issued certificate back, or it refuses it. Proved here, from the parts to
the whole:

* `decides_readName?`, `isStrictTime_encode_iff`, `decides_readValidity?`: which names and which
  times it accepts;
* `Issued.decides_part`, `Issued.read?_der_eq_some_iff`: which certificates it accepts;
* `readSigningKey?_ofP256`: the bytes of a drawn key are those of a key to sign again with;
* `resign_der`, `resign_der_ofP256`: an issued certificate is signed again if and only if its bytes
  are.
-/

namespace ChainConformance.X509

open Strict

/-! ## Names -/

theorem NameAttribute.decides_read? {a : NameAttribute} (small : a.encode.length < lengthLimit) :
    Decides NameAttribute.read? a.encode a (isOid a.oid = true ∧ isTag a.value.tag = true) := by
  have inner := Nat.lt_trans (Der.length_lt_encode _ _) small
  refine decides_inside? rfl inner ?_
  simp only [List.flatten_cons, List.flatten_nil, List.append_nil, List.length_append,
    Element.encode] at inner ⊢
  have first := Der.length_lt_encode 0x06 a.oid
  have second := Der.length_lt_encode a.value.tag a.value.contents
  have named : Decides oid? (Der.encode 0x06 a.oid) a.oid (isOid a.oid = true) :=
    decides_checked? rfl (by omega)
  have value := decides_element? (e := a.value) (by omega)
  exact decidesWhole_pair named value.whole NameAttribute.mk

theorem decides_readSet? {a : NameAttribute}
    (small : (Der.set [a.encode]).length < lengthLimit) :
    Decides readSet? (Der.set [a.encode]) [a]
      (isOid a.oid = true ∧ isTag a.value.tag = true) := by
  have inner := Nat.lt_trans (Der.length_lt_encode _ _) small
  refine decides_inside? rfl inner fun y => ?_
  rw [List.flatten_singleton] at inner ⊢
  have alone : DecidesWhole (many? NameAttribute.read?) ([a].flatMap NameAttribute.encode) [a]
      (∀ b ∈ [a], isOid b.oid = true ∧ isTag b.value.tag = true) :=
    decidesWhole_many? (List.forall_mem_singleton.mpr
      ⟨List.cons_ne_nil _ _, NameAttribute.decides_read? inner⟩)
  rw [List.flatMap_singleton] at alone
  simp only [Option.pure_def, Option.bind_eq_bind, Option.bind_eq_some_iff, Option.some.injEq,
    Prod.mk.injEq, Prod.exists]
  constructor
  · rintro ⟨_, _, read, _, ordered, rfl, rfl⟩
    obtain ⟨fine, rfl⟩ := (alone _).mp read
    cases ordered
    exact ⟨fine a (List.mem_singleton_self a), rfl⟩
  · rintro ⟨fine, rfl⟩
    exact ⟨[a], [], (alone [a]).mpr ⟨List.forall_mem_singleton.mpr fine, rfl⟩, [a], rfl, rfl, rfl⟩

/-- The attribute types have identifiers of ordinary size, and the string types are known. -/
def DistinguishedName.IsDecodable (n : DistinguishedName) : Prop :=
  ∀ p ∈ n.parts, isOid p.oid = true ∧ p.kind ≠ .universal

theorem isTag_kind_iff {kind : StringKind} :
    isTag (UInt8.ofNat kind.tag) = true ↔ kind ≠ .universal := by
  cases kind <;> decide

theorem DistinguishedName.isDecodable_iff {n : DistinguishedName} : n.IsDecodable ↔
    ∀ set ∈ n.toSets, ∀ a ∈ set, isOid a.oid = true ∧ isTag a.value.tag = true := by
  simp [IsDecodable, toSets, NamePart.toAttribute, isTag_kind_iff]

theorem kind_ne_universal_of_subjectPart {a : Attribute} {p : NamePart}
    (h : DistinguishedName.subjectPart a = .ok p) : p.kind ≠ .universal := by
  rw [DistinguishedName.subjectPart] at h
  cases oid : DistinguishedName.normalOid? a.oid with
  | none => simp [oid] at h
  | some o =>
    cases text : Name.plainText? a with
    | none => simp [oid, text] at h
    | some t =>
      simp only [oid, text] at h
      obtain ⟨_, -, e⟩ := bind_eq_ok_iff.mp h
      cases e
      split
      · rintro ⟨⟩
      · split <;> rintro ⟨⟩

/-- No name that is taken over as a subject has a string type that is not known. -/
theorem DistinguishedName.isDecodable_of_ofSubject {subject : Name} {n : DistinguishedName}
    (taken : ofSubject subject = .ok n) : n.IsDecodable ↔ n.isOrdinary = true := by
  obtain ⟨parts, read, left⟩ := ofSubject_eq_ok_iff.mp taken
  rw [isOrdinary, List.all_eq_true, IsDecodable]
  refine forall₂_congr fun p member => and_iff_left ?_
  rw [left] at member
  obtain ⟨before, after, rfl, -⟩ := mem_collected.mp member
  obtain ⟨a, -, part⟩ := exists_of_mem_right read (List.mem_append_right _ List.mem_cons_self)
  exact kind_ne_universal_of_subjectPart part

theorem DistinguishedName.isDecodable_subject (commonName : Option String) (uuid : String) :
    (subject commonName uuid).IsDecodable := by
  have ordinary := isOrdinary_subject commonName uuid
  rw [isOrdinary, List.all_eq_true] at ordinary
  have kinds : ∀ p ∈ (subject commonName uuid).parts, p.kind = .utf8 := by
    rw [parts_subject]
    cases commonName <;> simp
  refine fun p member => ⟨ordinary p member, ?_⟩
  rw [kinds p member]
  rintro ⟨⟩

theorem decides_readName? {n : DistinguishedName} (small : n.encode.length < lengthLimit) :
    Decides readName? n.encode n.toSets n.IsDecodable := by
  have inner := Nat.lt_trans (Der.length_lt_encode _ _) small
  refine decides_inside? rfl inner ?_
  rw [← List.flatMap_def] at inner ⊢
  rw [DistinguishedName.isDecodable_iff]
  refine decidesWhole_many? fun set member => ⟨List.cons_ne_nil _ _, ?_⟩
  have shorter := Nat.lt_of_le_of_lt (le_length_flatMap member _) inner
  obtain ⟨p, -, rfl⟩ := List.mem_map.mp member
  refine (decides_readSet? shorter).congr ?_
  rw [List.forall_mem_singleton]

/-! ## Times -/

/-- How long a written time is, and how it ends. -/
theorem Time.encode_form (seconds : Int) :
    ((Time.encode seconds).tag = 0x17 ∧ (Time.encode seconds).contents.length = 13 ∨
      (Time.encode seconds).tag = 0x18 ∧ (Time.encode seconds).contents.length = 15) ∧
    (Time.encode seconds).contents.getLast? = some 90 := by
  simp only [Time.encode]
  split <;> simp [Time.writeTwo]

theorem isStrictTime_encode_iff {seconds : Int}
    (dated : 0 ≤ Time.year seconds ∧ Time.year seconds ≤ 9999) :
    isStrictTime (Time.encode seconds) = true ↔ 0 ≤ seconds := by
  obtain ⟨form, last⟩ := Time.encode_form seconds
  rcases Time.read_encode dated.1 dated.2 with ⟨tag, read⟩ | ⟨tag, read⟩
  · rcases form with ⟨-, size⟩ | ⟨other, -⟩
    · simp [isStrictTime, tag, size, last, read]
    · cases tag.symm.trans other
  · rcases form with ⟨other, -⟩ | ⟨-, size⟩
    · cases tag.symm.trans other
    · simp [isStrictTime, tag, size, last, read]

theorem decides_readTime? {seconds : Int}
    (dated : 0 ≤ Time.year seconds ∧ Time.year seconds ≤ 9999) :
    Decides readTime? (Time.encode seconds).encode (Time.encode seconds) (0 ≤ seconds) := by
  obtain ⟨form, -⟩ := Time.encode_form seconds
  have known : isTag (Time.encode seconds).tag = true := by
    rcases form with ⟨tag, -⟩ | ⟨tag, -⟩
    · rw [tag]
      rfl
    · rw [tag]
      rfl
  have limit : 15 < lengthLimit := by decide
  have element := decides_element? (e := Time.encode seconds) (by omega)
  refine Decides.congr (decides_guard (p := (isStrictTime · = true)) element) ?_
  rw [isStrictTime_encode_iff dated, and_iff_right known]

theorem decides_readValidity? {begins ends : Int}
    (dated : 0 ≤ Time.year begins ∧ Time.year begins ≤ 9999)
    (dated' : 0 ≤ Time.year ends ∧ Time.year ends ≤ 9999)
    (small : (Der.sequence [(Time.encode begins).encode, (Time.encode ends).encode]).length <
      lengthLimit) :
    Decides readValidity? (Der.sequence [(Time.encode begins).encode, (Time.encode ends).encode])
      (Time.encode begins, Time.encode ends) (0 ≤ begins ∧ 0 ≤ ends) := by
  have inner := Nat.lt_trans (Der.length_lt_encode _ _) small
  refine decides_inside? rfl inner ?_
  simp only [List.flatten_cons, List.flatten_nil, List.append_nil]
  exact decidesWhole_pair (decides_readTime? dated) (decides_readTime? dated').whole Prod.mk

/-! ## Algorithms and extensions -/

theorem gives_signsWith (k : KeyPair) : Gives Algorithm.read? k.signsWith := by
  rw [KeyPair.signsWith]
  split
  · exact ⟨Algorithm.ed25519.encode, [], by decide +kernel⟩
  · exact ⟨Algorithm.ecdsaWithSha256.encode, [], by decide +kernel⟩
  · exact ⟨Algorithm.ecdsaWithSha384.encode, [], by decide +kernel⟩
  · exact ⟨Algorithm.rsaWithSha256.encode, [], by decide +kernel⟩

theorem decides_readKey? {a : Algorithm} {key : Bytes} (given : Gives Algorithm.read? a)
    (small : (Der.sequence [a.encode, Der.encode 0x03 key]).length < lengthLimit) :
    Decides readKey? (Der.sequence [a.encode, Der.encode 0x03 key]) (a, key)
      (isBitString key = true) := by
  have inner := Nat.lt_trans (Der.length_lt_encode _ _) small
  simp only [List.flatten_cons, List.flatten_nil, List.append_nil, List.length_append] at inner
  have last := Der.length_lt_encode 0x03 key
  have named := Algorithm.rereads_read? a given (by omega)
  have bits : Decides bitString? (Der.encode 0x03 key) key (isBitString key = true) :=
    decides_checked? rfl (by omega)
  refine decides_inside? rfl (by simpa using inner) fun y => ?_
  simp only [List.flatten_cons, List.flatten_nil, List.append_nil, named, Option.pure_def,
    Option.bind_eq_bind, Option.bind_some]
  rw [← List.append_nil (Der.encode 0x03 key), bits.bind_eq_some_iff]
  simp only [Option.some.injEq, Prod.mk.injEq, and_true, @eq_comm _ y]

theorem SignedExtension.gives_read? {e : SignedExtension} (named : isOid e.oid = true)
    (small : e.encode.length < lengthLimit) : Gives SignedExtension.read? e := by
  have inner := Nat.lt_trans (Der.length_lt_encode _ _) small
  simp only [List.flatten_cons, List.flatten_nil, List.append_nil, List.length_append, Der.octets]
    at inner
  have first := Der.length_lt_encode 0x06 e.oid
  have last := Der.length_lt_encode 0x04 e.value
  refine ⟨_, [], read?_encode ⟨_, [], checked?_eq_some_iff.mpr ⟨named, rfl, ?_, rfl⟩⟩
    ⟨_, [], contents?_eq_some_iff.mpr ⟨rfl, ?_, rfl⟩⟩ small []⟩
  · omega
  · omega

/-! ## Keys to sign again with -/

section
variable {n x y : Nat} (positive : 0 < n) (small : n < Curve.p256.order)
  (point : Curve.p256.multiply n Curve.p256.base = .affine x y)
include positive small point

theorem readEcKey?_p256Contents :
    readEcKey? (KeyPair.p256Contents (Bytes.ofNat 32 n) (KeyPair.p256Public n)) = some n := by
  have limit : 1000 < lengthLimit := by decide
  have width := Bytes.length_ofNat 32 n
  obtain ⟨outer, whole, -⟩ := KeyPair.length_p256_le n
  have inner := Der.length_lt_encode 0xA1 (Der.encode 0x03 (0 :: KeyPair.p256Public n))
  have contents := Der.length_lt_encode 0x03 (0 :: KeyPair.p256Public n)
  have version (rest : Bytes) : integer? (Der.encode 0x02 [1] ++ rest) = some ([1], rest) :=
    checked?_eq_some_iff.mpr ⟨rfl, rfl, by decide, rfl⟩
  have octets (rest : Bytes) : contents? 0x04 (Der.octets (Bytes.ofNat 32 n) ++ rest) =
      some (Bytes.ofNat 32 n, rest) :=
    contents?_eq_some_iff.mpr ⟨rfl, by omega, rfl⟩
  have unnamed (steps : Nat) : optional? 0 (steps + 1)
      (Der.encode 0xA1 (Der.encode 0x03 (0 :: KeyPair.p256Public n)) ++ []) = _ :=
    optional?_of_beyond (beyond_encode rfl (by decide) _ [])
  have stated (steps : Nat) : optional? 1 (steps + 1)
      (Der.encode 0xA1 (Der.encode 0x03 (0 :: KeyPair.p256Public n)) ++ []) = _ :=
    optional?_encode 0xA1 rfl (by decide) rfl (by omega) []
  have bits : bitString? (Der.encode 0x03 (0 :: KeyPair.p256Public n)) =
      some (0 :: KeyPair.p256Public n, []) :=
    checked?_eq_some_iff.mpr ⟨rfl, rfl, by omega, (List.append_nil _).symm⟩
  have number : Bytes.toNat (Bytes.ofNat 32 n) = n := by
    rw [Bytes.toNat_ofNat]
    exact Nat.mod_eq_of_lt (Nat.lt_trans small (by decide))
  rw [List.append_nil] at stated unnamed
  rw [KeyPair.p256Contents_eq] at whole ⊢
  have taken := Nat.lt_of_lt_of_le (Der.length_lt_encode _ _) whole
  refine whole?_eq_some ?_ (by omega)
  rw [← List.append_nil (Der.encode 0x30 _)]
  refine inside?_encode rfl (by omega) ?_ []
  have range : 24 ≤ (Bytes.ofNat 32 n).length ∧ (Bytes.ofNat 32 n).length ≤ 32 := by omega
  have same : KeyPair.p256Public n = (Curve.Point.affine x y).toBytes Curve.p256 := by
    rw [KeyPair.p256Public, point]
  simp only [guard, Option.pure_def, Option.bind_eq_bind, version, octets, unnamed, stated, bits,
    Option.bind_some, if_pos range, number, if_pos (And.intro positive small), point]
  simp [same]

/-- A key that is made of a number is one to sign again with. -/
theorem readSigningKey?_ofP256 : readSigningKey? (KeyPair.ofP256 n).pkcs8 = some n := by
  have limit : 4000 < lengthLimit := by decide
  have size := (KeyPair.length_p256_le n).2.2
  have key := readEcKey?_p256Contents positive small point
  change readSigningKey? (KeyPair.p256Envelope (Bytes.ofNat 32 n) (KeyPair.p256Public n)) = some n
  rw [KeyPair.p256Envelope_eq] at size ⊢
  have inner := Nat.lt_of_lt_of_le (Der.length_lt_encode _ _) size
  refine whole?_eq_some ?_ (by omega)
  rw [← List.append_nil (Der.encode 0x30 _)]
  refine inside?_encode rfl (by omega) ?_ []
  rw [List.length_append, List.length_append] at inner
  have wrapped : _ < (Der.octets (KeyPair.p256Contents (Bytes.ofNat 32 n)
    (KeyPair.p256Public n))).length := Der.length_lt_encode 0x04 _
  have version (rest : Bytes) : integer? (Der.encode 0x02 [0] ++ rest) = some ([0], rest) :=
    checked?_eq_some_iff.mpr ⟨rfl, rfl, by decide, rfl⟩
  have given : Gives Algorithm.read? (.curve Oid.p256) :=
    ⟨(Algorithm.curve Oid.p256).encode, [], by decide +kernel⟩
  have algorithm := Algorithm.rereads_read? _ given (by omega)
  have octets : contents? 0x04 (Der.octets (KeyPair.p256Contents (Bytes.ofNat 32 n)
      (KeyPair.p256Public n))) =
        some (KeyPair.p256Contents (Bytes.ofNat 32 n) (KeyPair.p256Public n), []) :=
    contents?_eq_some_iff.mpr ⟨rfl, by omega, (List.append_nil _).symm⟩
  have curve : (⟨Oid.ecPublicKey, some ⟨0x06, Oid.p256⟩⟩ : Algorithm) = .curve Oid.p256 := rfl
  simp [version, algorithm, octets, key, curve, optional?, contextTag?, many?, manyFrom?]

end

/-! ## Certificates -/

/-- What is drawn as it is for a chain: keys of P-256, serial numbers of at most twenty octets, and
a time around which a validity can be written down. -/
structure Draws.IsRegular (d : Draws) : Prop where
  keys : d.AreP256
  serial : ∀ i, (d.serial i).length ≤ 20
  dated : ∀ time ∈ [d.notBefore, d.notAfter], 0 ≤ Time.year time ∧ Time.year time ≤ 9999

theorem Draws.isRegular_seeded (seed : Bytes) {now : Int}
    (dated : ∀ time ∈ [(seeded seed now).notBefore, (seeded seed now).notAfter],
      0 ≤ Time.year time ∧ Time.year time ≤ 9999) : (seeded seed now).IsRegular where
  keys := areP256_seeded seed now
  serial _ := Nat.le_trans (List.length_take_le _ _) (by decide)
  dated := dated

namespace Issued

/-- A certificate as it comes up in a chain: signed once, with a serial number of ordinary size, a
validity that can be written down, a key whose algorithm can be read, and no further extensions. -/
structure IsRegular (c : Issued) : Prop where
  once : c.resigned = none
  serial : isInteger c.template.serial = true ∧ c.template.serial.length ≤ 21
  dated : c.template.IsDated
  key : Gives Algorithm.read? c.subjectKey.algorithm
  plain : c.template.others = []

/-- What is left for the strict reader to refuse, apart from the size. -/
structure IsDecodable (c : Issued) : Prop where
  issuer : c.issuer.name.IsDecodable
  validity : 0 ≤ c.template.notBefore ∧ 0 ≤ c.template.notAfter
  subject : c.template.subject.IsDecodable

variable {c : Issued}

theorem isOid_of_mem_extensions (plain : c.template.others = []) {e : SignedExtension}
    (member : e ∈ c.extensions) : isOid e.oid = true := by
  have types : ∀ oid ∈ [Oid.authorityKeyId, Oid.subjectAltName, Oid.keyUsage, Oid.extendedKeyUsage,
      Oid.nameConstraints, Oid.subjectKeyId, Oid.basicConstraints], isOid oid = true := by
    decide +kernel
  have carried : c.Carries e.oid e.value := ⟨e.critical, member⟩
  refine types e.oid ?_
  rcases (carries_iff plain).mp carried with ⟨oid, -⟩ | ⟨oid, -⟩ | ⟨oid, -⟩ | ⟨oid, -⟩ | ⟨oid, -⟩ |
    ⟨oid, -⟩ | ⟨oid, -⟩
  all_goals
    rw [oid]
    simp

theorem readExtensions?_extensions (plain : c.template.others = [])
    (small : (extensionsBytes (some c.extensions)).length < lengthLimit) :
    readExtensions? (extensionsBytes (some c.extensions)) = some (some c.extensions, []) := by
  refine readExtensions?_extensionsBytes (fun e member => ?_) small
  refine SignedExtension.gives_read? (isOid_of_mem_extensions plain member) ?_
  have inner := Nat.lt_trans (Der.length_lt_encode _ _) small
  have innermost := Nat.lt_trans (Der.length_lt_encode _ _) inner
  have listed := List.sublist_flatten_of_mem
    (List.mem_map_of_mem (f := SignedExtension.encode) member)
  exact Nat.lt_of_le_of_lt listed.length_le innermost

/-- What is signed is given back, or refused for a name or a time. -/
theorem decides_part (regular : c.IsRegular) (small : c.part.encode.length < lengthLimit) :
    Decides SignedPart.read? c.part.encode c.part c.IsDecodable := by
  rw [SignedPart.encode_eq] at small ⊢
  have inner := Nat.lt_trans (Der.length_lt_encode _ _) small
  refine decides_inside? rfl inner fun y => ?_
  simp only [List.length_append] at inner
  have serialSize := Der.length_lt_encode 0x02 c.part.serial
  have version {after : Bytes} :
      readVersion? (versionBytes c.part.version ++ (Der.encode 0x02 c.part.serial ++ after)) = _ :=
    readVersion?_again (show Gives readVersion? 2 from ⟨versionBytes 2, [], by decide⟩)
      (beyond_encode rfl (by decide) _ after)
  have serial : Decides readSerial? (Der.encode 0x02 c.part.serial) c.part.serial _ :=
    decides_guard (p := fun contents : Bytes => contents.length ≤ 21)
      (decides_checked? rfl (by omega))
  have algorithm := Algorithm.rereads_read? c.part.algorithm (gives_signsWith _) (by omega)
  have issuer : Decides readName? (encodeName c.part.issuer) c.part.issuer _ :=
    decides_readName? (show (encodeName c.part.issuer).length < _ by omega)
  have validity : Decides readValidity?
      (Der.sequence [c.part.notBefore.encode, c.part.notAfter.encode])
      (c.part.notBefore, c.part.notAfter) _ :=
    decides_readValidity? (regular.dated _ (by simp)) (regular.dated _ (by simp))
      (show (Der.sequence [c.part.notBefore.encode, c.part.notAfter.encode]).length < _ by omega)
  have subject : Decides readName? (encodeName c.part.subject) c.part.subject _ :=
    decides_readName? (show (encodeName c.part.subject).length < _ by omega)
  have key : Decides readKey?
      (Der.sequence [c.part.keyAlgorithm.encode, Der.encode 0x03 c.part.key])
      (c.part.keyAlgorithm, c.part.key) _ := decides_readKey? regular.key (by omega)
  have ids : idBytes 1 c.part.issuerId = [] ∧ idBytes 2 c.part.subjectId = [] := ⟨rfl, rfl⟩
  have noId (number : Nat) (less : number ≤ 2) :
      readId? number (extensionsBytes c.part.extensions) =
        some (none, extensionsBytes c.part.extensions) := by
    rw [readId?, optional?_of_beyond ((beyond_extensionsBytes c.part.extensions).mono less)]
    rfl
  have last : readExtensions? (extensionsBytes c.part.extensions) = some (c.part.extensions, []) :=
    readExtensions?_extensions regular.plain
      (show (extensionsBytes c.part.extensions).length < _ by omega)
  simp only [ids, List.nil_append, Option.pure_def, Option.bind_eq_bind, version, Option.bind_some,
    serial.bind_eq_some_iff, algorithm _, issuer.bind_eq_some_iff, validity.bind_eq_some_iff,
    subject.bind_eq_some_iff, key.bind_eq_some_iff, noId 1 (by decide), noId 2 (by decide), last,
    Option.some.injEq, Prod.mk.injEq, and_true]
  constructor
  · rintro ⟨-, issuer, validity, subject, -, rfl⟩
    exact ⟨⟨issuer, validity, subject⟩, rfl⟩
  · rintro ⟨⟨issuer, validity, subject⟩, rfl⟩
    exact ⟨regular.serial, issuer, validity, subject, rfl, rfl⟩

/-- An issued certificate is decoded as what was signed if it is not too long and nothing in it is
refused, and not at all otherwise. -/
theorem read?_der_eq_some_iff (regular : c.IsRegular) {sign : KeyPair → Bytes → Bytes}
    {x : Signed} : Signed.read? (c.der sign) = some x ↔
      c.IsDecodable ∧ (c.der sign).length < lengthLimit ∧ x = c.signed sign := by
  rw [der, signed_of_once regular.once]
  refine whole?_eq_some_iff fun small => ?_
  rw [Signed.encode_eq] at small ⊢
  have inner := Nat.lt_trans (Der.length_lt_encode _ _) small
  refine decides_inside? rfl inner fun y => ?_
  simp only [List.length_append] at inner
  have signature := Der.length_lt_encode 0x03 (0 :: sign c.issuer.key c.part.encode)
  have part := decides_part regular (by omega)
  have algorithm := Algorithm.rereads_read? _ (gives_signsWith c.issuer.key) (by omega)
  have filled : Gives bitString? (0 :: sign c.issuer.key c.part.encode) :=
    gives_bitString? rfl (by omega)
  have bits := rereads_bitString?.alone filled (by omega)
  simp only [Option.pure_def, Option.bind_eq_bind, part.bind_eq_some_iff, algorithm _, bits,
    Option.bind_some, Option.some.injEq, Prod.mk.injEq, and_true, @eq_comm _ y]

/-- To name SHA-1 in the place of the usual algorithm of P-256 keys makes nothing longer. -/
theorem length_withSha1_le (usual : c.issuer.key.signsWith = .ecdsaWithSha256) :
    c.part.withSha1.encode.length ≤ c.part.encode.length := by
  have sizes : Algorithm.ecdsaWithSha1.encode.length ≤
      Algorithm.ecdsaWithSha256.encode.length := by
    decide +kernel
  have named : c.part.algorithm = .ecdsaWithSha256 := usual
  rw [SignedPart.encode_eq, SignedPart.encode_eq, named]
  refine Der.length_encode_mono ?_
  simp only [SignedPart.withSha1, List.length_append]
  omega

section
variable {sign : KeyPair → Bytes → Bytes}

/-- A certificate of a P-256 key is not to be signed again exactly if it cannot be decoded. -/
theorem resign_eq_error_iff (regular : c.IsRegular)
    (secret : ∃ number, c.issuer.key.secret = .p256 number) {err : Error} :
    c.resign sign = .error err ↔
      ¬ (c.IsDecodable ∧ (c.der sign).length < lengthLimit) ∧
        err = .certificate .undecodable := by
  obtain ⟨number, secret⟩ := secret
  have decoded {x : Signed} : Signed.read? (c.der sign) = some x ↔ _ :=
    read?_der_eq_some_iff regular
  rw [resign]
  cases read : Signed.read? (c.der sign) with
  | none =>
    have refused : ¬ (c.IsDecodable ∧ (c.der sign).length < lengthLimit) := by
      rintro ⟨fine, small⟩
      cases read.symm.trans (decoded.mpr ⟨fine, small, rfl⟩)
    simp [refused, eq_comm]
  | some x =>
    obtain ⟨fine, small, rfl⟩ := decoded.mp read
    have usual : c.issuer.key.signsWith = .ecdsaWithSha256 := by rw [KeyPair.signsWith, secret]
    have part : (c.signed sign).part = c.part := by rw [signed_of_once regular.once]
    have inside : c.part.encode.length < lengthLimit := by
      have whole := small
      rw [der, Signed.encode_eq, part] at whole
      have inner := Nat.lt_trans (Der.length_lt_encode _ _) whole
      rw [List.length_append] at inner
      omega
    have fits := Nat.lt_of_le_of_lt (length_withSha1_le usual) inside
    simp only [part, if_pos fits, secret]
    simp [fine, small]

/-- Signing a certificate again makes of it the one that is to be signed again. -/
theorem resign?_signed (once : c.resigned = none) {number : Nat}
    (signs : (Ecdsa.sign .p256 number (Sha1.digest c.part.withSha1.encode)).isSome) :
    (c.signed sign).resign? number =
      some (({ c with resigned := some number } : Issued).signed sign) := by
  have whole : ({ c with resigned := some number } : Issued).signed sign =
      ((c.signed sign).resign? number).getD (c.signed sign) := by
    rw [signed_of_once once]
    rfl
  obtain ⟨signature, made⟩ := Option.isSome_iff_exists.mp signs
  have again : (c.signed sign).resign? number =
      some ((c.signed sign).withSha1 (Ecdsa.encode signature)) :=
    Signed.resign?_eq_some_iff.mpr ⟨signature, by rw [signed_of_once once]; exact made, rfl⟩
  rw [whole, again]
  rfl

/-- A certificate that is signed again takes hardly more bytes than what is signed in it. -/
theorem length_der_resigned_le (once : c.resigned = none) {number : Nat}
    (secret : c.issuer.key.secret = .p256 number)
    (signs : (Ecdsa.sign .p256 number (Sha1.digest c.part.withSha1.encode)).isSome)
    (short : c.part.encode.length + 159 < lengthLimit) :
    (({ c with resigned := some number } : Issued).der sign).length ≤
      c.part.encode.length + 165 := by
  have again : (c.signed sign).resign? number = some _ := resign?_signed once signs
  obtain ⟨signature, signed, result⟩ := Signed.resign?_eq_some_iff.mp again
  have part : ((c.signed sign).withSha1 (Ecdsa.encode signature)).part = c.part.withSha1 := by
    rw [Signed.withSha1, signed_of_once once]
  rw [der, ← result, Signed.encode_eq, part]
  simp only [Signed.withSha1]
  have usual : c.issuer.key.signsWith = .ecdsaWithSha256 := by rw [KeyPair.signsWith, secret]
  have shorter := length_withSha1_le usual
  have algorithm : Algorithm.ecdsaWithSha1.encode.length = 11 := by decide +kernel
  have size := KeyPair.length_encode_signature_le signed
  have bits := Der.length_encode_le 0x03 (0 :: Ecdsa.encode signature)
  rw [List.length_cons] at bits
  have contents : (c.part.withSha1.encode ++ (Algorithm.ecdsaWithSha1.encode ++
      Der.encode 0x03 (0 :: Ecdsa.encode signature))).length ≤ c.part.encode.length + 159 := by
    rw [List.length_append, List.length_append]
    omega
  rw [Der.length_encode_eq _ (by omega)]
  have header := Der.elementSize_bounds (c.part.withSha1.encode ++
    (Algorithm.ecdsaWithSha1.encode ++ Der.encode 0x03 (0 :: Ecdsa.encode signature))).length
  omega

end

end Issued

/-- A certificate as it comes up in a chain is to be signed again if and only if its bytes can be,
to the bytes of what it is to become. The issuer's bytes hold its private number, and neither does
the signature fail nor does the certificate grow too long by it. -/
theorem resign_der {c : Issued} (regular : c.IsRegular) {sign : KeyPair → Bytes → Bytes}
    (key : ∀ number, readSigningKey? c.issuer.key.pkcs8 = some number ↔
      c.issuer.key.secret = .p256 number)
    (signs : ∀ number, c.issuer.key.secret = .p256 number →
      (Ecdsa.sign .p256 number (Sha1.digest c.part.withSha1.encode)).isSome)
    (fits : ∀ c', c.resign sign = .ok c' → (c'.der sign).length < lengthLimit) :
    resign (c.der sign) c.issuer.key.pkcs8 = (c.resign sign).map (·.der sign) := by
  have refused {α : Type} {e : Error} :
      (none : Option α).getDM (.error e : Except Error α) = .error e := rfl
  have given {α : Type} {a : α} {e : Error} :
      (some a).getDM (.error e : Except Error α) = .ok a := rfl
  cases read : Signed.read? (c.der sign) with
  | none =>
    simp only [resign, Issued.resign, read, throw_eq_error, refused, error_bind, Except.map]
  | some x =>
    obtain ⟨-, -, rfl⟩ := (Issued.read?_der_eq_some_iff regular).mp read
    by_cases small : (c.signed sign).part.withSha1.encode.length < lengthLimit
    · cases known : readSigningKey? c.issuer.key.pkcs8 with
      | none =>
        have other : c.resign sign = .error .resigningKey := by
          simp only [Issued.resign, read, if_pos small]
          cases secret : c.issuer.key.secret with
          | p256 number => cases known.symm.trans ((key number).mpr secret)
          | _ => rfl
        simp only [resign, read, throw_eq_error, given, ok_bind, if_pos small, known, other,
          refused, error_bind, Except.map]
      | some number =>
        have secret := (key number).mp known
        have again : c.resign sign = .ok { c with resigned := some number } := by
          simp only [Issued.resign, read, if_pos small, secret]
        rw [again]
        exact resign_eq_ok_iff.mpr ⟨_, read, small, number, known, _,
          Issued.resign?_signed regular.once (signs number secret), fits _ again, rfl⟩
    · simp only [resign, Issued.resign, read, throw_eq_error, given, ok_bind, if_neg small,
        error_bind, Except.map]

/-- So it is for every key that can be drawn, if it has a signature and the certificate does not
come close to the limit for lengths. -/
theorem resign_der_ofP256 {c : Issued} (regular : c.IsRegular) {sign : KeyPair → Bytes → Bytes}
    {n x y : Nat} (key : c.issuer.key = .ofP256 n) (positive : 0 < n)
    (small : n < Curve.p256.order)
    (point : Curve.p256.multiply n Curve.p256.base = .affine x y)
    (signs : (Ecdsa.sign .p256 n (Sha1.digest c.part.withSha1.encode)).isSome)
    (short : c.part.encode.length + 200 < lengthLimit) :
    resign (c.der sign) c.issuer.key.pkcs8 = (c.resign sign).map (·.der sign) := by
  have secret : c.issuer.key.secret = .p256 n := by rw [key]; rfl
  refine resign_der regular (fun number => ?_) (fun number known => ?_) fun c' made => ?_
  · rw [key, readSigningKey?_ofP256 positive small point]
    simp [KeyPair.ofP256]
  · rw [secret] at known
    cases known
    exact signs
  · obtain ⟨number, known, rfl⟩ := Issued.exists_number_of_resign made
    rw [secret] at known
    cases known
    have size : (Issued.der sign _).length ≤ c.part.encode.length + 165 :=
      Issued.length_der_resigned_le regular.once secret signs (by omega)
    omega

end ChainConformance.X509
