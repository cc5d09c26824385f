import ChainConformance.Proofs.Asn1.Rereading
import ChainConformance.X509.Signed

/-!
# Certificates that are read again

What is read strictly as part of a certificate is read again from what is written for it. Proved
here, from the parts to the whole:

* `Algorithm.rereads_read?`, `rereads_readName?`, `rereads_readValidity?`, `rereads_readKey?`,
  `SignedExtension.rereads_read?`: each kind of part;
* `readVersion?_again`, `readId?_again`, `readExtensions?_again`: the parts that may be missing;
* `SignedPart.Readable.read?_encode`, `Signed.Readable.read?_encode`: the signed part and the
  certificate, also with another algorithm named in them (`SignedPart.Readable.named`).
-/

namespace ChainConformance

open Strict

/-! ## Algorithms -/

theorem Algorithm.rereads_read? : Rereads Algorithm.read? Algorithm.encode := by
  refine rereads_inside rfl fun a s h small => ?_
  simp only [Option.pure_def, Option.bind_eq_bind, Option.bind_eq_some_iff, Prod.exists] at h
  obtain ⟨oid, rest, named, h⟩ := h
  split at h
  · cases h
    simp only [contents, Option.map_none, Option.getD_none, List.append_nil] at small ⊢
    simp [rereads_oid?.alone ⟨_, _, named⟩ small]
  · simp only [Option.bind_eq_some_iff, Option.some.injEq, Prod.mk.injEq, Prod.exists] at h
    obtain ⟨parameters, _, read, rfl, rfl⟩ := h
    simp only [contents, Option.map_some, Option.getD_some, List.length_append] at small ⊢
    have first := rereads_oid? oid ⟨_, _, named⟩ (by omega)
    have second := rereads_element?.alone ⟨_, _, read⟩ (by omega)
    have some : parameters.encode ≠ [] := List.cons_ne_nil _ _
    simp [first, second, some]

namespace X509

/-! ## Names -/

theorem NameAttribute.rereads_read? : Rereads NameAttribute.read? NameAttribute.encode :=
  rereads_inside rfl
    (rereadsWhole_pair rereads_oid? rereads_element? NameAttribute.mk fun _ _ => by simp)

/-- Attributes of a set in rising order of their encodings. -/
def Rising (set : List NameAttribute) : Prop := set.Pairwise fun a b => a.encode < b.encode

theorem orderSet?_of_rising {set : List NameAttribute} (h : Rising set) :
    orderSet? set = some set := by
  induction h with
  | nil => rfl
  | @cons a rest before rising ih =>
    rw [orderSet?, ih, Option.bind_some]
    cases rest with
    | nil => rfl
    | cons b rest =>
      have less := before b List.mem_cons_self
      have other : a ≠ b := by
        rintro rfl
        exact List.lt_irrefl _ less
      rw [insertAttribute?, if_neg other, if_pos less]

theorem mem_of_insertAttribute? {a : NameAttribute} {set set' : List NameAttribute}
    (h : insertAttribute? a set = some set') : ∀ b ∈ set', b = a ∨ b ∈ set := by
  induction set generalizing set' with
  | nil =>
    cases h
    simp
  | cons c rest ih =>
    rw [insertAttribute?] at h
    split at h
    · cases h
    · split at h
      · cases h
        simp
      · obtain ⟨others, inserted, rfl⟩ := Option.map_eq_some_iff.mp h
        intro b member
        rcases List.mem_cons.mp member with rfl | later
        · exact .inr List.mem_cons_self
        · exact (ih inserted b later).imp_right (List.mem_cons_of_mem c)

theorem NameAttribute.short_of_gives {a : NameAttribute} (h : Gives NameAttribute.read? a) :
    a.oid.length < 128 := by
  obtain ⟨s, rest, read⟩ := h
  obtain ⟨contents, inside⟩ := exists_of_inside? read
  simp only [Option.pure_def, Option.bind_eq_bind, Option.bind_eq_some_iff, Option.some.injEq,
    Prod.mk.injEq, Prod.exists] at inside
  obtain ⟨oid, after, named, value, _, -, rfl, -⟩ := inside
  obtain ⟨fine, -⟩ := checked?_eq_some_iff.mp named
  simp only [isOid, Bool.and_eq_true, decide_eq_true_eq] at fine
  exact Nat.lt_of_le_of_lt fine.1.1.2 (by decide)

theorem NameAttribute.encode_injective {a b : NameAttribute} (first : a.oid.length < 128)
    (second : b.oid.length < 128) (h : a.encode = b.encode) : a = b := by
  have contents := (Der.encode_injective h).2
  simp only [List.flatten_cons, List.flatten_nil, List.append_nil] at contents
  obtain ⟨-, oids, values⟩ := Der.encode_append_injective first second contents
  obtain ⟨tags, inside⟩ := Der.encode_injective values
  obtain ⟨oid, tag, value⟩ := a
  obtain ⟨oid', tag', value'⟩ := b
  cases oids
  cases tags
  cases inside
  rfl

theorem rising_of_insertAttribute? {a : NameAttribute} {set set' : List NameAttribute}
    (rising : Rising set) (distinct : ∀ b ∈ set, a.encode = b.encode → a = b)
    (h : insertAttribute? a set = some set') : Rising set' := by
  induction rising generalizing set' with
  | nil =>
    cases h
    exact List.pairwise_singleton _ a
  | @cons c rest before rising ih =>
    rw [insertAttribute?] at h
    split at h
    · cases h
    · next other =>
      split at h
      · next less =>
        cases h
        refine .cons (List.forall_mem_cons.mpr ⟨less, fun b member => ?_⟩) (.cons before rising)
        exact List.lt_trans less (before b member)
      · next more =>
        obtain ⟨others, inserted, rfl⟩ := Option.map_eq_some_iff.mp h
        have greater : c.encode < a.encode := by
          by_contra same
          exact other (distinct c List.mem_cons_self (List.le_antisymm same more))
        refine .cons (fun b member => ?_)
          (ih (fun b member => distinct b (List.mem_cons_of_mem c member)) inserted)
        rcases mem_of_insertAttribute? inserted b member with rfl | earlier
        · exact greater
        · exact before b earlier

/-- Ordering keeps to the attributes that it is given. -/
theorem mem_of_orderSet? {attributes set : List NameAttribute}
    (h : orderSet? attributes = some set) : ∀ a ∈ set, a ∈ attributes := by
  induction attributes generalizing set with
  | nil =>
    cases h
    exact List.forall_mem_nil _
  | cons a rest ih =>
    obtain ⟨others, ordered, inserted⟩ := Option.bind_eq_some_iff.mp h
    intro b member
    rcases mem_of_insertAttribute? inserted b member with rfl | later
    · exact List.mem_cons_self
    · exact List.mem_cons_of_mem a (ih ordered b later)

theorem rising_of_orderSet? {attributes set : List NameAttribute}
    (short : ∀ a ∈ attributes, a.oid.length < 128) (h : orderSet? attributes = some set) :
    Rising set := by
  induction attributes generalizing set with
  | nil =>
    cases h
    exact .nil
  | cons a rest ih =>
    obtain ⟨first, later⟩ := List.forall_mem_cons.mp short
    obtain ⟨others, ordered, inserted⟩ := Option.bind_eq_some_iff.mp h
    refine rising_of_insertAttribute? (ih later ordered) (fun b member => ?_) inserted
    exact NameAttribute.encode_injective first (later b (mem_of_orderSet? ordered b member))

theorem rereads_readSet? : Rereads readSet? fun set => Der.set (set.map NameAttribute.encode) := by
  refine rereads_inside rfl fun set s h small => ?_
  simp only [Option.pure_def, Option.bind_eq_bind, Option.bind_eq_some_iff, Option.some.injEq,
    Prod.mk.injEq, Prod.exists] at h
  obtain ⟨attributes, rest, read, _, ordered, rfl, rfl⟩ := h
  have given := gives_of_mem_many? read
  have rising := rising_of_orderSet? (fun a member => NameAttribute.short_of_gives (given a member))
    ordered
  have again := many?_flatten NameAttribute.rereads_read? (fun _ => List.cons_ne_nil _ _)
    (fun a member => given a (mem_of_orderSet? ordered a member)) small
  simp [again, orderSet?_of_rising rising]

theorem rereads_readName? : Rereads readName? encodeName :=
  rereads_inside rfl fun _ _ h small =>
    many?_flatten rereads_readSet? (fun _ => List.cons_ne_nil _ _) (gives_of_mem_many? h) small

/-! ## Times and keys -/

theorem rereads_readTime? : Rereads readTime? Element.encode :=
  rereads_guard (p := (isStrictTime · = true)) rereads_element?

theorem rereads_readValidity? : Rereads readValidity? fun v =>
    Der.sequence [v.1.encode, v.2.encode] :=
  rereads_inside rfl
    (rereadsWhole_pair rereads_readTime? rereads_readTime? Prod.mk fun _ _ => by simp)

theorem rereads_readKey? : Rereads readKey? fun k =>
    Der.sequence [k.1.encode, Der.encode 0x03 k.2] :=
  rereads_inside rfl
    (rereadsWhole_pair Algorithm.rereads_read? rereads_bitString? Prod.mk fun _ _ => by simp)

/-! ## Version, serial number and identifiers -/

theorem rereads_readSerial? : Rereads readSerial? (Der.encode 0x02) :=
  rereads_guard (p := fun contents : Bytes => contents.length ≤ 21) rereads_integer?

/-- The version as it is written; the first one is left out. -/
def versionBytes (version : UInt8) : Bytes :=
  if version = 0 then [] else Der.explicit 0 (Der.encode 0x02 [version])

theorem version_lt_of_gives {version : UInt8} (given : Gives readVersion? version) :
    version < 3 := by
  obtain ⟨s, after, h⟩ := given
  simp only [readVersion?, Option.pure_def, Option.bind_eq_bind, Option.bind_eq_some_iff,
    Prod.exists] at h
  obtain ⟨e, left, -, h⟩ := h
  cases e with
  | none =>
    cases h
    decide
  | some e =>
    simp only [Option.bind_eq_some_iff, Prod.exists] at h
    obtain ⟨-, -, contents, _, -, -, -, h⟩ := h
    split at h
    · simp only [Option.bind_eq_some_iff, Option.guard_eq_some', Option.some.injEq,
        Prod.mk.injEq] at h
      obtain ⟨-, less, rfl, -⟩ := h
      exact less
    · cases h

theorem readVersion?_again {version : UInt8} (given : Gives readVersion? version) {rest : Bytes}
    (beyond : Beyond 0 rest) :
    readVersion? (versionBytes version ++ rest) = some (version, rest) := by
  have known := version_lt_of_gives given
  rw [versionBytes]
  split
  · next first =>
    rw [List.nil_append, first, readVersion?, optional?_of_beyond beyond]
    rfl
  · next later =>
    have inside : integer? (Der.encode 0x02 [version]) = some ([version], []) :=
      checked?_eq_some_iff.mpr ⟨rfl, rfl, (by decide : 1 < lengthLimit), (List.append_nil _).symm⟩
    have small : (Der.encode 0x02 [version]).length < lengthLimit := (by decide : 3 < lengthLimit)
    have wrapped {steps : Nat} : optional? 0 (steps + 1)
        (Der.explicit 0 (Der.encode 0x02 [version]) ++ rest) =
          some (some ⟨0xA0, Der.encode 0x02 [version]⟩, rest) :=
      optional?_encode 0xA0 rfl (by decide) rfl small rest
    simp [readVersion?, wrapped, inside, known]

/-- An identifier as it is written, if there is one. -/
def idBytes (number : UInt8) (id : Option Bytes) : Bytes := (id.map (Der.tagged number)).getD []

theorem isBitString_of_gives {number : Nat} {contents : Bytes}
    (given : Gives (readId? number) (some contents)) : isBitString contents = true := by
  obtain ⟨s, after, h⟩ := given
  simp only [readId?, Option.pure_def, Option.bind_eq_bind, Option.bind_eq_some_iff,
    Prod.exists] at h
  obtain ⟨e, left, -, h⟩ := h
  cases e with
  | none => cases h
  | some e =>
    simp only [Option.bind_eq_some_iff, Option.guard_eq_some', Option.some.injEq,
      Prod.mk.injEq] at h
    obtain ⟨-, ⟨-, bits⟩, rfl, -⟩ := h
    exact bits

theorem readId?_again {number : Nat} (tag : UInt8) {id : Option Bytes}
    (given : Gives (readId? number) id)
    (tagged : isTag (0x80 + tag) = true ∧ (0x80 ≤ 0x80 + tag ∧ 0x80 + tag < 0xA0) ∧
      (0x80 + tag).toNat % 32 = number)
    (small : (idBytes tag id).length < lengthLimit) {rest : Bytes} (beyond : Beyond number rest) :
    readId? number (idBytes tag id ++ rest) = some (id, rest) := by
  obtain ⟨known, ⟨context, primitive⟩, same⟩ := tagged
  cases id with
  | none =>
    rw [idBytes, readId?]
    simp [optional?_of_beyond beyond]
  | some contents =>
    have bits := isBitString_of_gives given
    simp only [idBytes, Option.map_some, Option.getD_some, Der.tagged] at small ⊢
    have shorter := Nat.lt_trans (Der.length_lt_encode (0x80 + tag) contents) small
    have read {steps : Nat} : optional? number (steps + 1) (_ ++ rest) = _ :=
      optional?_encode (0x80 + tag) known ⟨context, UInt8.lt_trans primitive (by decide)⟩ same
        shorter rest
    simp [readId?, read, bits, primitive]

/-! ## Extensions -/

/-- Whatever is said of the flag, the identifier and the value are read. -/
theorem SignedExtension.parts_of_gives {x : SignedExtension}
    (h : Gives SignedExtension.read? x) : Gives oid? x.oid ∧ Gives (contents? 0x04) x.value := by
  obtain ⟨s, rest, h⟩ := h
  obtain ⟨contents, h⟩ := exists_of_inside? h
  simp only [Option.pure_def, Option.bind_eq_bind, Option.bind_eq_some_iff, Prod.exists] at h
  obtain ⟨oid, _, named, e, _, -, h⟩ := h
  have value {flag : Bool} {s : Bytes}
      (h : ((contents? 0x04 s).bind fun v => some (SignedExtension.mk oid flag v.1, v.2)) =
        some (x, [])) : Gives oid? x.oid ∧ Gives (contents? 0x04) x.value := by
    simp only [Option.bind_eq_some_iff, Option.some.injEq, Prod.mk.injEq, Prod.exists] at h
    obtain ⟨value, _, read, rfl, -⟩ := h
    exact ⟨⟨_, _, named⟩, ⟨_, _, read⟩⟩
  split at h
  · split at h
    · exact value h
    · split at h
      · exact value h
      · cases h
  · exact value h

theorem SignedExtension.read?_encode {x : SignedExtension} (named : Gives oid? x.oid)
    (valued : Gives (contents? 0x04) x.value) (small : x.encode.length < lengthLimit)
    (rest : Bytes) : SignedExtension.read? (x.encode ++ rest) = some (x, rest) := by
  have shorter := Nat.lt_trans (Der.length_lt_encode _ _) small
  refine inside?_encode rfl shorter ?_ rest
  simp only [List.flatten_cons, List.flatten_nil, List.append_nil, List.length_append, Der.octets]
    at shorter ⊢
  have first := rereads_oid? x.oid named (by omega)
  have last := (rereads_contents? 0x04).alone valued (by omega)
  obtain ⟨oid, critical, value⟩ := x
  cases critical with
  | true =>
    have flag {rest : Bytes} : element? (Der.boolean true ++ rest) = some (⟨0x01, [0xFF]⟩, rest) :=
      element?_eq_some_iff.mpr ⟨rfl, by decide, rfl⟩
    simp [first, flag, last]
  | false =>
    obtain ⟨known, small, -⟩ := contents?_eq_some_iff.mp last
    have next : element? (Der.encode 0x04 value) = some (⟨0x04, value⟩, []) :=
      element?_eq_some_iff.mpr ⟨rfl, small, (List.append_nil _).symm⟩
    simp [first, next, last]

theorem SignedExtension.rereads_read? : Rereads SignedExtension.read? SignedExtension.encode :=
  fun _ given => read?_encode (parts_of_gives given).1 (parts_of_gives given).2

/-- The extensions as they are written, if there are any. -/
def extensionsBytes (extensions : Option (List SignedExtension)) : Bytes :=
  (extensions.map fun es => Der.explicit 3 (Der.sequence (es.map SignedExtension.encode))).getD []

theorem beyond_extensionsBytes (extensions : Option (List SignedExtension)) :
    Beyond 2 (extensionsBytes extensions) := by
  cases extensions with
  | none => exact beyond_nil 2
  | some es =>
    rw [← List.append_nil (extensionsBytes _)]
    exact beyond_encode rfl (by decide) _ []

theorem gives_of_readExtensions? {extensions : List SignedExtension}
    (given : Gives readExtensions? (some extensions)) :
    ∀ x ∈ extensions, Gives SignedExtension.read? x := by
  obtain ⟨s, after, h⟩ := given
  simp only [readExtensions?, Option.pure_def, Option.bind_eq_bind, Option.bind_eq_some_iff,
    Prod.exists] at h
  obtain ⟨e, left, -, h⟩ := h
  cases e with
  | none => cases h
  | some e =>
    simp only [Option.bind_eq_some_iff, Option.guard_eq_some', Option.some.injEq,
      Prod.mk.injEq, Prod.exists] at h
    obtain ⟨-, -, _, _, read, -, -, rfl, -⟩ := h
    obtain ⟨contents, inside⟩ := exists_of_inside? read
    exact gives_of_mem_many? inside

theorem readExtensions?_extensionsBytes {extensions : List SignedExtension}
    (given : ∀ x ∈ extensions, Gives SignedExtension.read? x)
    (small : (extensionsBytes (some extensions)).length < lengthLimit) :
    readExtensions? (extensionsBytes (some extensions)) = some (some extensions, []) := by
  simp only [extensionsBytes, Option.map_some, Option.getD_some, Der.explicit] at small ⊢
  have shorter := Nat.lt_trans (Der.length_lt_encode _ _) small
  have shortest := Nat.lt_trans (Der.length_lt_encode _ _) shorter
  have list := many?_flatten SignedExtension.rereads_read? (fun _ => List.cons_ne_nil _ _) given
    shortest
  have inside : inside? 0x30 _ (Der.encode 0x30 _ ++ []) = _ := inside?_encode rfl shortest list []
  have wrapped {steps : Nat} : optional? 3 (steps + 1) (_ ++ []) = _ :=
    optional?_encode 0xA3 rfl (by decide) rfl shorter []
  rw [List.append_nil] at inside wrapped
  change inside? 0x30 _ (Der.sequence _) = _ at inside
  simp [readExtensions?, wrapped, inside]

theorem readExtensions?_again {extensions : Option (List SignedExtension)}
    (given : Gives readExtensions? extensions)
    (small : (extensionsBytes extensions).length < lengthLimit) :
    readExtensions? (extensionsBytes extensions) = some (extensions, []) := by
  cases extensions with
  | none => rfl
  | some es => exact readExtensions?_extensionsBytes (gives_of_readExtensions? given) small

/-! ## The signed part -/

/-- Every field is one that is read off some bytes. -/
structure SignedPart.Readable (p : SignedPart) : Prop where
  version : Gives readVersion? p.version
  serial : Gives readSerial? p.serial
  algorithm : Gives Algorithm.read? p.algorithm
  issuer : Gives readName? p.issuer
  validity : Gives readValidity? (p.notBefore, p.notAfter)
  subject : Gives readName? p.subject
  key : Gives readKey? (p.keyAlgorithm, p.key)
  issuerId : Gives (readId? 1) p.issuerId
  subjectId : Gives (readId? 2) p.subjectId
  extensions : Gives readExtensions? p.extensions

theorem SignedPart.readable_of_gives {p : SignedPart} (h : Gives SignedPart.read? p) :
    p.Readable := by
  obtain ⟨s, rest, h⟩ := h
  obtain ⟨contents, h⟩ := exists_of_inside? h
  simp only [Option.pure_def, Option.bind_eq_bind, Option.bind_eq_some_iff, Option.some.injEq,
    Prod.mk.injEq, Prod.exists] at h
  obtain ⟨_, _, version, _, _, serial, _, _, algorithm, _, _, issuer, _, _, _, validity, _, _,
    subject, _, _, _, key, _, _, issuerId, _, _, subjectId, _, _, extensions, rfl, -⟩ := h
  exact ⟨⟨_, _, version⟩, ⟨_, _, serial⟩, ⟨_, _, algorithm⟩, ⟨_, _, issuer⟩, ⟨_, _, validity⟩,
    ⟨_, _, subject⟩, ⟨_, _, key⟩, ⟨_, _, issuerId⟩, ⟨_, _, subjectId⟩, ⟨_, _, extensions⟩⟩

/-- Another algorithm can be named as long as it can be read. -/
theorem SignedPart.Readable.named {p : SignedPart} (h : p.Readable) {a : Algorithm}
    (given : Gives Algorithm.read? a) : SignedPart.Readable { p with algorithm := a } :=
  { h with algorithm := given }

theorem SignedPart.encode_eq (p : SignedPart) : p.encode = Der.encode 0x30
    (versionBytes p.version ++ (Der.encode 0x02 p.serial ++ (p.algorithm.encode ++
      (encodeName p.issuer ++ (Der.sequence [p.notBefore.encode, p.notAfter.encode] ++
        (encodeName p.subject ++ (Der.sequence [p.keyAlgorithm.encode, Der.encode 0x03 p.key] ++
          (idBytes 1 p.issuerId ++ (idBytes 2 p.subjectId ++
            extensionsBytes p.extensions))))))))) := by
  simp only [encode, Der.sequence, List.flatten_cons, List.flatten_nil, List.append_nil,
    versionBytes, idBytes, extensionsBytes]

theorem SignedPart.Readable.read?_encode {p : SignedPart} (h : p.Readable)
    (small : p.encode.length < lengthLimit) (rest : Bytes) :
    SignedPart.read? (p.encode ++ rest) = some (p, rest) := by
  rw [SignedPart.encode_eq] at small ⊢
  have shorter := Nat.lt_trans (Der.length_lt_encode _ _) small
  refine inside?_encode rfl shorter ?_ rest
  simp only [List.length_append] at shorter
  have last := readExtensions?_again h.extensions (by omega)
  have subjectId := readId?_again 2 h.subjectId (by decide) (by omega)
    (beyond_extensionsBytes p.extensions)
  have beyond : Beyond 1 (idBytes 2 p.subjectId ++ extensionsBytes p.extensions) := by
    cases p.subjectId with
    | none => exact (beyond_extensionsBytes p.extensions).mono (by decide)
    | some id => exact beyond_encode rfl (by decide) id _
  have issuerId := readId?_again 1 h.issuerId (by decide) (by omega) beyond
  have key := rereads_readKey? (p.keyAlgorithm, p.key) h.key (by simp only; omega)
  have subject := rereads_readName? p.subject h.subject (by omega)
  have validity := rereads_readValidity? (p.notBefore, p.notAfter) h.validity (by simp only; omega)
  have issuer := rereads_readName? p.issuer h.issuer (by omega)
  have algorithm := Algorithm.rereads_read? p.algorithm h.algorithm (by omega)
  have serial := rereads_readSerial? p.serial h.serial (by omega)
  have version {after : Bytes} :
      readVersion? (versionBytes p.version ++ (Der.encode 0x02 p.serial ++ after)) = _ :=
    readVersion?_again h.version (beyond_encode rfl (by decide) p.serial after)
  simp [version, serial, algorithm, issuer, validity, subject, key, issuerId, subjectId, last]

/-! ## Certificates -/

/-- The fields of a certificate are ones that are read off some bytes. -/
structure Signed.Readable (c : Signed) : Prop where
  part : c.part.Readable
  algorithm : Gives Algorithm.read? c.algorithm
  signature : Gives bitString? c.signature

theorem Signed.readable_of_read? {c : Signed} {s : Bytes} (h : Signed.read? s = some c) :
    c.Readable := by
  simp only [Signed.read?, whole?, Option.pure_def, Option.bind_eq_bind, Option.bind_eq_some_iff,
    Option.guard_eq_some', Option.some.injEq, Prod.exists] at h
  obtain ⟨-, -, _, _, h, -, -, rfl⟩ := h
  obtain ⟨contents, h⟩ := exists_of_inside? h
  simp only [Option.bind_eq_some_iff, Option.some.injEq, Prod.mk.injEq, Prod.exists] at h
  obtain ⟨_, _, part, _, _, algorithm, _, _, signature, rfl, -⟩ := h
  exact ⟨SignedPart.readable_of_gives ⟨_, _, part⟩, ⟨_, _, algorithm⟩, ⟨_, _, signature⟩⟩

theorem Signed.encode_eq (c : Signed) : c.encode = Der.encode 0x30
    (c.part.encode ++ (c.algorithm.encode ++ Der.encode 0x03 c.signature)) := by
  simp only [encode, Der.sequence, List.flatten_cons, List.flatten_nil, List.append_nil]

/-- What is read as a certificate, or could be, is read from what is written for it. -/
theorem Signed.Readable.read?_encode {c : Signed} (h : c.Readable)
    (small : c.encode.length < lengthLimit) : Signed.read? c.encode = some c := by
  refine whole?_eq_some ?_ small
  rw [Signed.encode_eq] at small ⊢
  have shorter := Nat.lt_trans (Der.length_lt_encode _ _) small
  rw [← List.append_nil (Der.encode _ _)]
  refine inside?_encode rfl shorter ?_ []
  simp only [List.length_append] at shorter
  have part := h.part.read?_encode (by omega)
  have algorithm := Algorithm.rereads_read? c.algorithm h.algorithm (by omega)
  have signature := rereads_bitString?.alone h.signature (by omega)
  simp [part, algorithm, signature]

end X509

end ChainConformance
