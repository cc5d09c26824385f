import ChainConformance.Proofs.Asn1.Reader
import ChainConformance.Proofs.Asn1.Time
import ChainConformance.Proofs.X509.DistinguishedName
import ChainConformance.Proofs.X509.Signed
import ChainConformance.X509.Certificate
import ChainConformance.X509.Issued

/-!
# Issued certificates as they are read

The reader that takes certificates apart for their description, and for the roots that issue more of
them, finds in an issued certificate what its template says. Proved here, from the parts to the
whole:

* `reads_algorithm`, `reads_time`, `reads_name`, `reads_oneExtension`: each kind of part;
* `Issued.read?_der`: the certificate.
-/

namespace ChainConformance

open Der

/-- The tag of the parameters, if there are any, is a single octet. -/
def Algorithm.Plain (a : Algorithm) : Prop := ∀ e ∈ a.parameters, e.tag.toNat % 32 ≠ 31

theorem KeyPair.plain_signsWith (k : KeyPair) : k.signsWith.Plain := by
  rw [signsWith]
  split
  · nofun
  · nofun
  · nofun
  · rintro e ⟨⟩
    decide

namespace X509

open Certificate

/-! ## Algorithms and keys -/

theorem reads_algorithm {a : Algorithm} (plain : a.Plain)
    (small : a.encode.length < UInt64.size) : Reads algorithm a.encode a.oid := by
  have inner : a.contents.length < UInt64.size := Nat.lt_trans (length_lt_encode _ _) small
  refine reads_inside 0x30 rfl (by decide) inner ⟨[], ?_⟩
  rw [Algorithm.contents, List.length_append] at inner
  have first := length_lt_encode 0x06 a.oid
  have named : Reads (primitive 6) (encode 0x06 a.oid) a.oid :=
    reads_primitive 0x06 rfl (by decide) (by omega) rfl
  rw [Algorithm.contents, named, ok_bind]
  cases found : a.parameters with
  | none => rfl
  | some e =>
    rw [found] at inner
    simp only [Option.map_some, Option.getD_some, Strict.Element.encode] at inner ⊢
    have second := length_lt_encode e.tag e.contents
    have value : Reads element (encode e.tag e.contents) (.of e.tag e.contents) :=
      reads_element e.tag (plain e found) (by omega)
    rw [value.alone]
    rfl

theorem reads_publicKeyInfo {a : Algorithm} {key : Bytes} (plain : a.Plain)
    (bits : isBitString key = true)
    (small : (Der.sequence [a.encode, encode 0x03 key]).length < UInt64.size) :
    Reads publicKeyInfo (Der.sequence [a.encode, encode 0x03 key]) () := by
  have inner := Nat.lt_trans (length_lt_encode _ _) small
  refine reads_inside 0x30 rfl (by decide) inner ⟨[], ?_⟩
  simp only [List.flatten_cons, List.flatten_nil, List.append_nil, List.length_append] at inner ⊢
  have second := length_lt_encode 0x03 key
  have named := reads_algorithm plain (by omega)
  have read := reads_bitString bits (by omega)
  rw [named, ok_bind, read.alone]
  rfl

/-! ## Version, serial number and times -/

theorem reads_versionNumber : Reads versionNumber (versionBytes 2) 2 := by
  intro rest
  have wrapped : Reads (optional 0) (versionBytes 2) (some (.of 0xA0 (encode 0x02 [2]))) :=
    optional_encode 0xA0 rfl (by decide) (by decide) rfl
  rw [versionNumber, wrapped, ok_bind]
  rfl

theorem reads_time {e : Strict.Element} {seconds : Int} (read : Time.ReadsAs e seconds)
    (small : e.encode.length < UInt64.size) : Reads time e.encode seconds := by
  intro rest
  have shorter := Nat.lt_trans (length_lt_encode _ _) small
  have plain : e.tag.toNat % 32 ≠ 31 := by
    rcases read with ⟨tag, -⟩ | ⟨tag, -⟩
    all_goals
      rw [tag]
      decide
  have element : Reads element e.encode (.of e.tag e.contents) := reads_element e.tag plain shorter
  have contents : (Element.of e.tag e.contents).contents = e.contents := rfl
  rw [time, element, ok_bind]
  rcases read with ⟨tag, read⟩ | ⟨tag, read⟩
  · have isUtc : (Element.of e.tag e.contents).tag = 23 := by
      rw [tag]
      rfl
    simp only [isUtc, if_true, contents, read]
    rfl
  · have isGeneralized : (Element.of e.tag e.contents).tag = 24 := by
      rw [tag]
      rfl
    simp only [isGeneralized, if_true, contents, read]
    rfl

theorem reads_validity {first last : Strict.Element} {begins ends : Int}
    (read : Time.ReadsAs first begins) (read' : Time.ReadsAs last ends)
    (small : (Der.sequence [first.encode, last.encode]).length < UInt64.size) :
    Reads validity (Der.sequence [first.encode, last.encode]) (begins, ends) := by
  have inner := Nat.lt_trans (length_lt_encode _ _) small
  refine reads_inside 0x30 rfl (by decide) inner ⟨[], ?_⟩
  simp only [List.flatten_cons, List.flatten_nil, List.append_nil, List.length_append] at inner ⊢
  rw [reads_time read (by omega), ok_bind, (reads_time read' (by omega)).alone]
  rfl

/-! ## Names -/

/-- An attribute as it is read. -/
def NameAttribute.seen (a : NameAttribute) : Attribute :=
  ⟨a.oid, a.value.tag.toNat % 32, a.value.contents⟩

theorem reads_readAttribute {a : NameAttribute} (plain : a.value.tag.toNat % 32 ≠ 31)
    (small : a.encode.length < UInt64.size) : Reads Name.readAttribute a.encode a.seen := by
  have inner := Nat.lt_trans (length_lt_encode _ _) small
  refine reads_inside 0x30 rfl (by decide) inner ⟨[], ?_⟩
  simp only [List.flatten_cons, List.flatten_nil, List.append_nil, List.length_append,
    Strict.Element.encode] at inner ⊢
  have first := length_lt_encode 0x06 a.oid
  have second := length_lt_encode a.value.tag a.value.contents
  have named : Reads (primitive 6) (encode 0x06 a.oid) a.oid :=
    reads_primitive 0x06 rfl (by decide) (by omega) rfl
  have value : Reads element (encode a.value.tag a.value.contents)
      (.of a.value.tag a.value.contents) := reads_element a.value.tag plain (by omega)
  rw [named, ok_bind, value.alone]
  rfl

theorem le_length_flatMap {α : Type} {xs : List α} {x : α} (member : x ∈ xs) (write : α → Bytes) :
    (write x).length ≤ (xs.flatMap write).length :=
  (List.sublist_flatten_of_mem (List.mem_map_of_mem member)).length_le

theorem reads_readSet {set : List NameAttribute} (some : set ≠ [])
    (plain : ∀ a ∈ set, a.value.tag.toNat % 32 ≠ 31)
    (small : (Der.set (set.map NameAttribute.encode)).length < UInt64.size) :
    Reads Name.readSet (Der.set (set.map NameAttribute.encode))
      (set.map NameAttribute.seen) := by
  have inner := Nat.lt_trans (length_lt_encode _ _) small
  refine reads_inside 0x31 rfl (by decide) inner ⟨[], ?_⟩
  rw [← List.flatMap_def] at inner ⊢
  have each : ∀ a ∈ set, a.encode ≠ [] ∧ Reads Name.readAttribute a.encode a.seen :=
    fun a member => ⟨List.cons_ne_nil _ _, reads_readAttribute (plain a member)
      (Nat.lt_of_le_of_lt (le_length_flatMap member _) inner)⟩
  have read := many_flatMap each ⟨_, inside_nil _ _⟩ (Nat.le_refl _)
  rw [read]
  cases set with
  | nil => exact absurd rfl some
  | cons a rest => rfl

theorem reads_name {name : List (List NameAttribute)} (some : ∀ set ∈ name, set ≠ [])
    (plain : ∀ set ∈ name, ∀ a ∈ set, a.value.tag.toNat % 32 ≠ 31)
    (small : (encodeName name).length < UInt64.size) :
    Reads Name.read (encodeName name) (name.map (·.map NameAttribute.seen)) := by
  have inner := Nat.lt_trans (length_lt_encode _ _) small
  refine reads_inside 0x30 rfl (by decide) inner ⟨[], ?_⟩
  rw [← List.flatMap_def] at inner ⊢
  have each : ∀ set ∈ name, Der.set (set.map NameAttribute.encode) ≠ [] ∧
      Reads Name.readSet (Der.set (set.map NameAttribute.encode)) (set.map NameAttribute.seen) :=
    fun set member => ⟨List.cons_ne_nil _ _, reads_readSet (some set member) (plain set member)
      (Nat.lt_of_le_of_lt (le_length_flatMap member fun set => Der.set _) inner)⟩
  rw [many_flatMap each ⟨_, inside_nil _ _⟩ (Nat.le_refl _)]

theorem reads_withSource {α : Type} {f : Bytes → Except Fault (α × Bytes)} {s : Bytes} {x : α}
    (read : Reads f s x) : Reads (withSource f) s (x, s) := by
  intro rest
  have source : (s ++ rest).take ((s ++ rest).length - rest.length) = s := by
    rw [List.length_append, Nat.add_sub_cancel, List.take_left]
  rw [withSource, read, ok_bind]
  simp only [source]
  rfl

/-! ## Extensions -/

/-- An extension as it is read. -/
def SignedExtension.seen (e : SignedExtension) : Extension := ⟨e.oid, e.critical, e.value⟩

theorem reads_oneExtension {e : SignedExtension} (small : e.encode.length < UInt64.size) :
    Reads oneExtension e.encode e.seen := by
  have inner := Nat.lt_trans (length_lt_encode _ _) small
  refine reads_inside 0x30 rfl (by decide) inner ⟨[], ?_⟩
  simp only [List.flatten_cons, List.flatten_nil, List.append_nil, List.length_append, octets]
    at inner ⊢
  have first := length_lt_encode 0x06 e.oid
  have last := length_lt_encode 0x04 e.value
  have named : Reads (primitive 6) (encode 0x06 e.oid) e.oid :=
    reads_primitive 0x06 rfl (by decide) (by omega) rfl
  have value : Reads (primitive 4) (encode 0x04 e.value) e.value :=
    reads_primitive 0x04 rfl (by decide) (by omega) rfl
  have next : Reads element (encode 0x04 e.value) (.of 0x04 e.value) :=
    reads_element 0x04 (by decide) (by omega)
  have flag : criticalFlag ((if e.critical = true then boolean true else []) ++
      encode 0x04 e.value) = (e.critical, encode 0x04 e.value) := by
    cases e.critical with
    | false =>
      rw [if_neg (by decide), List.nil_append, criticalFlag, next.alone]
      rfl
    | true =>
      have read : Reads element (boolean true) (.of 0x01 [0xFF]) :=
        reads_element 0x01 (by decide) (by decide)
      rw [if_pos rfl, criticalFlag, read]
      rfl
  rw [named, ok_bind, flag]
  simp only [value.alone]
  rfl

theorem extensionList_eq {extensions : List SignedExtension}
    (small : (extensionsBytes (some extensions)).length < UInt64.size) :
    extensionList (extensionsBytes (some extensions)) =
      .ok (extensions.map SignedExtension.seen) := by
  have wrapped := Nat.lt_trans (length_lt_encode _ _) small
  have inner := Nat.lt_trans (length_lt_encode _ _) wrapped
  have outer := header_encode 0xA3 (by decide) wrapped []
  rw [List.append_nil, List.append_nil] at outer
  change header (extensionsBytes (some extensions)) = _ at outer
  have sequence : withTag 16 (Der.sequence (extensions.map SignedExtension.encode)) = .ok (_, []) :=
    (reads_withTag 0x30 rfl (by decide) inner).alone
  rw [← List.flatMap_def] at inner
  have each : ∀ e ∈ extensions, e.encode ≠ [] ∧ Reads oneExtension e.encode e.seen :=
    fun e member => ⟨List.cons_ne_nil _ _, reads_oneExtension
      (Nat.lt_of_le_of_lt (le_length_flatMap member _) inner)⟩
  have all := all_flatMap each ⟨_, inside_nil _ _⟩
  rw [List.flatMap_def] at all
  rw [extensionList, if_neg (by simp [extensionsBytes, explicit, encode]), outer, ok_bind]
  simp only [sequence, ok_bind]
  exact all

/-- The identifiers of issuer and subject are missing where the extensions begin. -/
theorem uniqueId_extensionsBytes {extensions : List SignedExtension}
    (small : (extensionsBytes (some extensions)).length < UInt64.size) {number : Nat}
    (other : number ≠ 3) : uniqueId number (extensionsBytes (some extensions)) =
      .ok ((), extensionsBytes (some extensions)) := by
  have inner := Nat.lt_trans (length_lt_encode _ _) small
  have missing := optional_of_other 0xA3 (by decide) inner (fun h => other h.2.symm) []
  rw [List.append_nil] at missing
  change optional number (extensionsBytes (some extensions)) = _ at missing
  rw [uniqueId, missing]
  rfl

/-! ## Certificates -/

theorem isBitString_zero (bits : Bytes) : isBitString (0 :: bits) = true := by
  cases bits <;> simp [isBitString, Nat.mod_one]

/-- A name as it is read. -/
def DistinguishedName.seen (n : DistinguishedName) : Name :=
  n.toSets.map (·.map NameAttribute.seen)

theorem DistinguishedName.reads_encode {n : DistinguishedName}
    (small : n.encode.length < UInt64.size) : Reads Name.read n.encode n.seen := by
  refine reads_name ?_ ?_ small
  · refine List.forall_mem_map.mpr fun p _ => ?_
    exact List.cons_ne_nil _ _
  · refine List.forall_mem_map.mpr fun p _ => List.forall_mem_singleton.mpr ?_
    change (UInt8.ofNat p.kind.tag).toNat % 32 ≠ 31
    cases p.kind <;> decide

/-- An issuer takes a name that was issued for what it is, if its attribute types are in their
shortest form and its strings fit their types. -/
theorem DistinguishedName.ofIssuer_seen {n : DistinguishedName}
    (plain : ∀ p ∈ n.parts, normalOid? p.oid = some p.oid)
    (fits : ∀ p ∈ n.parts, p.kind.check p.contents = .ok ()) : ofIssuer n.seen = .ok n := by
  refine ofIssuer_eq_ok_iff.mpr ⟨n.parts, ?_, (collected_eq_self_iff.mpr n.distinct).symm⟩
  rw [seen, toSets, List.map_map, List.forall₂_map_left_iff, List.forall₂_same]
  intro p member
  refine ⟨p.toAttribute.seen, rfl, ?_⟩
  have kind : StringKind.ofTag? ((UInt8.ofNat p.kind.tag).toNat % 32) = some p.kind := by
    cases p.kind <;> decide
  simp only [issuerPart, NamePart.toAttribute, NameAttribute.seen, plain p member, kind,
    fits p member]
  rfl

/-- What is read as an issued certificate. -/
def Issued.seen (c : Issued) : Certificate where
  version := 2
  serial := c.template.serial
  signedWith := c.issuer.key.signsWith.oid
  issuer := c.issuer.name.seen
  issuerDer := c.issuer.name.encode
  notBefore := c.template.notBefore
  notAfter := c.template.notAfter
  subject := c.template.subject.seen
  subjectDer := c.template.subject.encode
  publicKey := c.subjectKey.publicKey
  extensions := (c.template.extensions c.issuer c.subjectKey).map SignedExtension.seen
  signatureAlgorithm := c.issuer.key.signsWith.oid

/-- Both ends of the time in which a certificate is valid are in years of four digits. -/
def Template.IsDated (t : Template) : Prop :=
  ∀ time ∈ [t.notBefore, t.notAfter], 0 ≤ Time.year time ∧ Time.year time ≤ 9999

theorem Issued.reads_part {c : Issued} (plain : c.subjectKey.algorithm.Plain)
    (dated : c.template.IsDated) (small : c.part.encode.length < UInt64.size) :
    Reads signedPart c.part.encode { c.seen with signatureAlgorithm := [] } := by
  obtain ⟨begins, ends⟩ : Time.ReadsAs _ _ ∧ Time.ReadsAs _ _ :=
    ⟨Time.read_encode (dated c.template.notBefore (by simp)).1 (dated _ (by simp)).2,
      Time.read_encode (dated c.template.notAfter (by simp)).1 (dated _ (by simp)).2⟩
  rw [SignedPart.encode_eq] at small ⊢
  have inner := Nat.lt_trans (length_lt_encode _ _) small
  refine reads_inside 0x30 rfl (by decide) inner ⟨[], ?_⟩
  simp only [List.length_append] at inner
  have number := length_lt_encode 0x02 c.part.serial
  have serial : Reads (withTag 2) (encode 0x02 c.part.serial) (.of 0x02 c.part.serial) :=
    reads_withTag 0x02 rfl (by decide) (by omega)
  have algorithm : Reads algorithm c.part.algorithm.encode c.part.algorithm.oid :=
    reads_algorithm c.issuer.key.plain_signsWith (by omega)
  have issuer : Reads (withSource Name.read) (encodeName c.part.issuer) _ :=
    reads_withSource
      (c.issuer.name.reads_encode (show (encodeName c.part.issuer).length < _ by omega))
  have validity : Reads validity
      (Der.sequence [c.part.notBefore.encode, c.part.notAfter.encode]) _ :=
    reads_validity begins ends (by omega)
  have subject : Reads (withSource Name.read) (encodeName c.part.subject) _ :=
    reads_withSource
      (c.template.subject.reads_encode (show (encodeName c.part.subject).length < _ by omega))
  have key : Reads (withSource publicKeyInfo)
      (Der.sequence [c.part.keyAlgorithm.encode, encode 0x03 c.part.key]) _ :=
    reads_withSource (reads_publicKeyInfo plain (isBitString_zero _) (by omega))
  have small : (extensionsBytes c.part.extensions).length < UInt64.size := by omega
  have extensions : extensionList (extensionsBytes c.part.extensions) = .ok _ :=
    extensionList_eq small
  have noIds : ∀ number, number ≠ 3 → uniqueId number (extensionsBytes c.part.extensions) =
      .ok ((), extensionsBytes c.part.extensions) := fun _ => uniqueId_extensionsBytes small
  have ids : idBytes 1 c.part.issuerId = [] ∧ idBytes 2 c.part.subjectId = [] := ⟨rfl, rfl⟩
  have version : Reads versionNumber (versionBytes c.part.version) 2 := reads_versionNumber
  simp only [ids, List.nil_append, version _, serial _, algorithm _, issuer _, validity _,
    subject _, key _, noIds 1 (by decide), noIds 2 (by decide), extensions, ok_bind]
  rfl

/-- Whatever it is signed with, an issued certificate is read as what its template says. -/
theorem Issued.read?_der {c : Issued} (once : c.resigned = none)
    (plain : c.subjectKey.algorithm.Plain) (dated : c.template.IsDated)
    {sign : KeyPair → Bytes → Bytes} (small : (c.der sign).length < UInt64.size) :
    Certificate.read? (c.der sign) = some c.seen := by
  have written : c.der sign = encode 0x30 (c.part.encode ++ (c.issuer.key.signsWith.encode ++
      encode 0x03 (0 :: sign c.issuer.key c.part.encode))) := by
    rw [der, signed]
    simp only [once]
    rw [Signed.encode_eq]
  rw [written] at small ⊢
  have inner := Nat.lt_trans (length_lt_encode _ _) small
  have parsed : Reads parse (encode 0x30 _) c.seen :=
    reads_inside 0x30 rfl (by decide) inner ⟨[], ?_⟩
  · rw [Certificate.read?, parsed.alone]
    rfl
  · simp only [List.length_append] at inner
    have last := length_lt_encode 0x03 (0 :: sign c.issuer.key c.part.encode)
    have part := reads_part plain dated (c := c) (by omega)
    have algorithm := reads_algorithm c.issuer.key.plain_signsWith (by omega)
    have signature :=
      reads_bitString (isBitString_zero (sign c.issuer.key c.part.encode)) (by omega)
    simp only [part _, algorithm _, signature.alone, ok_bind]
    rfl

end X509

end ChainConformance
