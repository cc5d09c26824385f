import ChainConformance.Proofs.Asn1.Oid
import ChainConformance.Proofs.Outcome
import Mathlib.Data.List.Dedup
import Mathlib.Data.List.Induction

/-!
# Names taken out of certificates

A name is taken over attribute by attribute, and a further value of a type takes the place of the
one before it. Proved here:

* `map_oid_collected`, `mem_collected`: which parts are left, and in which order;
* `ofSubject_eq_ok_iff`, `ofIssuer_eq_ok_iff`: how the names come about;
* `issuerPart_of_subjectPart`, `ofIssuer_of_ofSubject`: where a subject and an issuer can be taken
  over, they are the same name;
* `toSets_eq_written_iff`: when a name comes out as it was written;
* `parts_subject`, `isOrdinary_subject`: names that are made up.
-/

namespace ChainConformance.X509

/-! ## Parts of the same type -/

/-- What is left of the parts if they are pushed one after the other. -/
def collected (parts : List NamePart) : List NamePart :=
  parts.foldl (fun left p => pushPart p left) []

theorem collected_concat (parts : List NamePart) (p : NamePart) :
    collected (parts ++ [p]) = pushPart p (collected parts) :=
  List.foldl_concat _ _ _ _

theorem pushPart_of_new {p : NamePart} {parts : List NamePart}
    (new : p.oid ∉ parts.map (·.oid)) : pushPart p parts = parts ++ [p] := by
  induction parts with
  | nil => rfl
  | cons other rest ih =>
    rw [List.map_cons, List.mem_cons, not_or] at new
    rw [pushPart, if_neg (Ne.symm new.1), ih new.2, List.cons_append]

theorem mem_pushPart {p q : NamePart} {parts : List NamePart}
    (distinct : (parts.map (·.oid)).Nodup) :
    q ∈ pushPart p parts ↔ q = p ∨ q ∈ parts ∧ q.oid ≠ p.oid := by
  induction parts with
  | nil => simp [pushPart]
  | cons other rest ih =>
    rw [List.map_cons, List.nodup_cons] at distinct
    by_cases same : other.oid = p.oid
    · rw [pushPart, if_pos same, List.mem_cons, List.mem_cons]
      have apart : q ∈ rest → q.oid ≠ p.oid := fun member e =>
        distinct.1 (List.mem_map.mpr ⟨q, member, e.trans same.symm⟩)
      have gone : q = other → q.oid = p.oid := fun e => e ▸ same
      tauto
    · rw [pushPart, if_neg same, List.mem_cons, List.mem_cons, ih distinct.2]
      have kept : q = other → q.oid ≠ p.oid := fun e => e ▸ same
      tauto

theorem nodup_collected (parts : List NamePart) : ((collected parts).map (·.oid)).Nodup := by
  induction parts using List.reverseRecOn with
  | nil => exact List.nodup_nil
  | append_singleton parts p ih =>
    rw [collected_concat]
    exact nodup_pushPart p ih

/-- The types stand in the order in which they come up first. -/
theorem map_oid_collected (parts : List NamePart) :
    (collected parts).map (·.oid) = (parts.map (·.oid)).reverse.dedup.reverse := by
  induction parts using List.reverseRecOn with
  | nil => rfl
  | append_singleton parts p ih =>
    have listed : p.oid ∈ (collected parts).map (·.oid) ↔ p.oid ∈ (parts.map (·.oid)).reverse := by
      rw [ih, List.mem_reverse, List.mem_dedup]
    rw [collected_concat, map_oid_pushPart, List.map_append, List.reverse_append]
    change _ = (p.oid :: (parts.map (·.oid)).reverse).dedup.reverse
    split
    · next old => rw [List.dedup_cons_of_mem (listed.mp old), ih]
    · next new => rw [List.dedup_cons_of_notMem (fun old => new (listed.mpr old)),
        List.reverse_cons, ih]

/-- Of each type the last value is left. -/
theorem mem_collected {parts : List NamePart} {p : NamePart} : p ∈ collected parts ↔
    ∃ before after, parts = before ++ p :: after ∧ ∀ q ∈ after, q.oid ≠ p.oid := by
  induction parts using List.reverseRecOn with
  | nil => simp [collected]
  | append_singleton parts last ih =>
    rw [collected_concat, mem_pushPart (nodup_collected parts), ih]
    constructor
    · rintro (rfl | ⟨⟨before, after, rfl, others⟩, other⟩)
      · exact ⟨parts, [], rfl, by simp⟩
      · refine ⟨before, after ++ [last], by simp, fun q member => ?_⟩
        rcases List.mem_append.mp member with inside | isLast
        · exact others q inside
        · exact List.mem_singleton.mp isLast ▸ other.symm
    · rintro ⟨before, after, e, others⟩
      -- the last part is the value itself, or one after it
      induction after using List.reverseRecOn with
      | nil => exact Or.inl (List.append_inj_right' e rfl |> List.cons.inj |>.1).symm
      | append_singleton after q _ =>
        rw [← List.cons_append, ← List.append_assoc] at e
        obtain ⟨rfl, same⟩ := List.append_inj' e rfl
        cases same
        refine Or.inr ⟨⟨before, after, rfl, fun q member => ?_⟩, ?_⟩
        · exact others q (List.mem_append_left _ member)
        · exact (others last (List.mem_append_right _ (List.mem_singleton_self last))).symm

/-- Nothing is lost exactly if no type comes up twice. -/
theorem collected_eq_self_iff {parts : List NamePart} :
    collected parts = parts ↔ (parts.map (·.oid)).Nodup := by
  constructor
  · intro h
    have distinct := nodup_collected parts
    rwa [h] at distinct
  · intro distinct
    induction parts using List.reverseRecOn with
    | nil => rfl
    | append_singleton parts p ih =>
      rw [List.map_append, List.nodup_append] at distinct
      have new : p.oid ∉ parts.map (·.oid) := fun old => distinct.2.2 _ old _ (by simp) rfl
      rw [collected_concat, ih distinct.1, pushPart_of_new new]

theorem collected_eq_self_of_length {parts : List NamePart}
    (h : (collected parts).length = parts.length) : collected parts = parts := by
  have length : (parts.map (·.oid)).reverse.dedup.length = (parts.map (·.oid)).reverse.length := by
    have types := congrArg List.length (map_oid_collected parts)
    rw [List.length_map, List.length_reverse] at types
    rw [← types, h, List.length_reverse, List.length_map]
  have whole := (List.dedup_sublist _).eq_of_length length
  rw [collected_eq_self_iff, ← List.nodup_reverse]
  exact List.dedup_eq_self.mp whole

/-! ## Reading -/

namespace DistinguishedName

theorem foldlM_push {α : Type} {part : α → Except Error NamePart} {xs : List α}
    {n m : DistinguishedName} : xs.foldlM (fun n x => n.push <$> part x) n = .ok m ↔
      ∃ parts, List.Forall₂ (fun x p => part x = .ok p) xs parts ∧
        m.parts = parts.foldl (fun left p => pushPart p left) n.parts := by
  induction xs generalizing n with
  | nil =>
    rw [List.foldlM_nil, pure_eq_ok_iff]
    constructor
    · rintro rfl
      exact ⟨[], .nil, rfl⟩
    · rintro ⟨parts, read, e⟩
      cases read
      cases n
      cases m
      cases e
      rfl
  | cons x xs ih =>
    rw [List.foldlM_cons, bind_eq_ok_iff]
    constructor
    · rintro ⟨next, pushed, rest⟩
      obtain ⟨p, first, rfl⟩ := map_eq_ok_iff.mp pushed
      obtain ⟨parts, others, e⟩ := ih.mp rest
      exact ⟨p :: parts, .cons first others, e⟩
    · rintro ⟨parts, read, e⟩
      cases read with
      | cons first others =>
        exact ⟨_, map_eq_ok_iff.mpr ⟨_, first, rfl⟩, ih.mpr ⟨_, others, e⟩⟩

theorem ofSubject_eq_ok_iff {subject : Name} {name : DistinguishedName} :
    ofSubject subject = .ok name ↔
      ∃ parts, List.Forall₂ (fun a p => subjectPart a = .ok p) subject.flatten parts ∧
        name.parts = collected parts :=
  foldlM_push

/-- The part that a set makes in an issuer's name. -/
def issuerSet : List Attribute → Except Error NamePart
  | [a] => issuerPart a
  | _ => .error .unreadableCertificate

theorem ofIssuer_eq_ok_iff {subject : Name} {name : DistinguishedName} :
    ofIssuer subject = .ok name ↔
      ∃ parts, List.Forall₂ (fun set p => ∃ a, set = [a] ∧ issuerPart a = .ok p) subject parts ∧
        name.parts = collected parts := by
  have sets (set : List Attribute) (p : NamePart) :
      issuerSet set = .ok p ↔ ∃ a, set = [a] ∧ issuerPart a = .ok p := by
    rcases set with _ | ⟨a, _ | ⟨b, rest⟩⟩ <;> simp [issuerSet]
  have steps : ofIssuer subject = subject.foldlM (fun n set => n.push <$> issuerSet set) empty := by
    rw [ofIssuer]
    congr 1
    funext n set
    rcases set with _ | ⟨a, _ | ⟨b, rest⟩⟩ <;> rfl
  simp only [steps, foldlM_push, sets]
  rfl

/-! ## What a part says -/

/-- The part has the type of the attribute, its tag and its contents. -/
structure Restates (a : Attribute) (p : NamePart) : Prop where
  oid : normalOid? a.oid = some p.oid
  tag : p.kind.tag = a.tag
  contents : p.contents = a.value

theorem restates_of_issuerPart {a : Attribute} {p : NamePart} (h : issuerPart a = .ok p) :
    Restates a p := by
  rw [issuerPart] at h
  cases oid : normalOid? a.oid with
  | none => simp [oid] at h
  | some o =>
    cases kind : StringKind.ofTag? a.tag with
    | none => simp [oid, kind] at h
    | some k =>
      simp only [oid, kind] at h
      obtain ⟨_, -, e⟩ := bind_eq_ok_iff.mp h
      cases e
      exact ⟨oid, by simpa using List.find?_some kind, rfl⟩

/-- A subject's part is the issuer's part if there are both: the numeric strings, which a subject
turns into UTF-8, are none that an issuer takes. -/
theorem issuerPart_of_subjectPart {a : Attribute} {p q : NamePart} (subject : subjectPart a = .ok p)
    (issuer : issuerPart a = .ok q) : q = p := by
  obtain ⟨oid, tag, contents⟩ := restates_of_issuerPart issuer
  rw [subjectPart, oid] at subject
  cases text : Name.plainText? a with
  | none => simp [text] at subject
  | some t =>
    simp only [text] at subject
    obtain ⟨_, -, e⟩ := bind_eq_ok_iff.mp subject
    rw [Name.plainText?, Option.ite_none_right_eq_some] at text
    have whole := Bytes.ofString_of_text? text.2
    obtain ⟨o, kind, c⟩ := q
    cases contents
    cases e
    have listed := text.1
    rw [whole]
    rw [← tag] at listed ⊢
    revert listed
    cases kind <;> simp [StringKind.tag]

/-- Sets of one member each, and what is made of the members. -/
theorem singletons_of_forall₂ {R : Attribute → NamePart → Prop} {sets : Name}
    {parts : List NamePart} (h : List.Forall₂ (fun set p => ∃ a, set = [a] ∧ R a p) sets parts) :
    sets = sets.flatten.map ([·]) ∧ List.Forall₂ R sets.flatten parts := by
  induction h with
  | nil => exact ⟨rfl, .nil⟩
  | cons first _ ih =>
    obtain ⟨a, rfl, related⟩ := first
    exact ⟨congrArg ([a] :: ·) ih.1, .cons related ih.2⟩

theorem parts_eq_of_read {attributes : List Attribute} {parts parts' : List NamePart}
    (subject : List.Forall₂ (fun a p => subjectPart a = .ok p) attributes parts)
    (issuer : List.Forall₂ (fun a p => issuerPart a = .ok p) attributes parts') :
    parts' = parts := by
  induction subject generalizing parts' with
  | nil =>
    cases issuer
    rfl
  | cons first _ ih =>
    cases issuer with
    | cons first' others => rw [issuerPart_of_subjectPart first first', ih others]

/-- A subject that can also be taken over as an issuer gives the same name in both parts, which
says what its attributes say; there is one in each set. -/
theorem ofIssuer_of_ofSubject {subject : Name} {n m : DistinguishedName}
    (taken : ofSubject subject = .ok n) (issues : ofIssuer subject = .ok m) :
    m = n ∧ subject = subject.flatten.map ([·]) ∧
      ∃ parts, List.Forall₂ Restates subject.flatten parts ∧ n.parts = collected parts := by
  obtain ⟨parts, read, e⟩ := ofSubject_eq_ok_iff.mp taken
  obtain ⟨parts', read', e'⟩ := ofIssuer_eq_ok_iff.mp issues
  obtain ⟨single, read'⟩ := singletons_of_forall₂ read'
  cases parts_eq_of_read read read'
  refine ⟨?_, single, parts, read'.imp fun _ _ => restates_of_issuerPart, e⟩
  cases n
  cases m
  congr 1
  exact e'.trans e.symm

end DistinguishedName

/-! ## Names as they are written -/

/-- The attribute as an element of its type, with the identifier that it was read with. -/
def Attribute.written (a : Attribute) : NameAttribute := ⟨a.oid, ⟨UInt8.ofNat a.tag, a.value⟩⟩

def Name.written (n : Name) : List (List NameAttribute) := n.map (·.map Attribute.written)

namespace DistinguishedName

theorem Restates.toAttribute_eq_iff {a : Attribute} {p : NamePart} (h : Restates a p) :
    p.toAttribute = a.written ↔ Oid.IsPlain a.oid := by
  rw [← Oid.normalOid?_eq_self_iff, h.oid, Option.some.injEq, NamePart.toAttribute,
    Attribute.written, h.tag, h.contents, NameAttribute.mk.injEq]
  exact and_iff_left rfl

theorem map_toAttribute_eq_iff {attributes : List Attribute} {parts : List NamePart}
    (restated : List.Forall₂ Restates attributes parts) :
    parts.map NamePart.toAttribute = attributes.map Attribute.written ↔
      ∀ a ∈ attributes, Oid.IsPlain a.oid := by
  induction restated with
  | nil => simp
  | cons first _ ih =>
    rw [List.map_cons, List.map_cons, List.cons.injEq, ih, first.toAttribute_eq_iff,
      List.forall_mem_cons]

/-- A name that says what attributes say is written as they are exactly if their types have plain
identifiers, no two of them the same. -/
theorem toSets_eq_written_iff {n : DistinguishedName} {attributes : List Attribute}
    {parts : List NamePart} (restated : List.Forall₂ Restates attributes parts)
    (left : n.parts = collected parts) :
    n.toSets = Name.written (attributes.map ([·])) ↔
      (∀ a ∈ attributes, Oid.IsPlain a.oid) ∧ (attributes.map (·.oid)).Nodup := by
  have sets : n.toSets = Name.written (attributes.map ([·])) ↔
      (collected parts).map NamePart.toAttribute = attributes.map Attribute.written := by
    have single : n.toSets = ((collected parts).map NamePart.toAttribute).map ([·]) := by
      rw [toSets, left, List.map_map]
      rfl
    have single' : Name.written (attributes.map ([·])) =
        (attributes.map Attribute.written).map ([·]) := by
      rw [Name.written, List.map_map, List.map_map]
      rfl
    rw [single, single']
    exact (List.map_injective_iff.mpr List.singleton_injective).eq_iff
  rw [sets]
  constructor
  · intro h
    have length := congrArg List.length h
    rw [List.length_map, List.length_map, restated.length_eq] at length
    have kept := collected_eq_self_of_length length
    rw [kept] at h
    have types := congrArg (List.map NameAttribute.oid) h
    rw [List.map_map, List.map_map] at types
    refine ⟨(map_toAttribute_eq_iff restated).mp h, ?_⟩
    exact types ▸ collected_eq_self_iff.mp kept
  · rintro ⟨plain, distinct⟩
    have h := (map_toAttribute_eq_iff restated).mpr plain
    have types := congrArg (List.map NameAttribute.oid) h
    rw [List.map_map, List.map_map] at types
    have kept : collected parts = parts := by
      rw [collected_eq_self_iff]
      exact types ▸ distinct
    rw [kept, h]

/-! ## Names that are made up -/

/-- The types of a name that is made up are distinct, so that no text replaces another. -/
theorem parts_subject (commonName : Option String) (uuid : String) :
    (subject commonName uuid).parts =
      (commonName.toList.map fun text => ⟨Oid.commonName, .utf8, Bytes.ofString text⟩) ++
        [⟨Oid.organization, .utf8, Bytes.ofString organization⟩,
          ⟨Oid.serialNumber, .utf8, Bytes.ofString uuid⟩] := by
  have distinct : Oid.commonName ≠ Oid.organization ∧ Oid.commonName ≠ Oid.serialNumber ∧
      Oid.organization ≠ Oid.serialNumber := by
    decide +kernel
  cases commonName <;> simp [subject, pushText, push, empty, pushPart, distinct]

theorem isOrdinary_subject (commonName : Option String) (uuid : String) :
    (subject commonName uuid).isOrdinary = true := by
  have ordinary : Strict.isOid Oid.commonName = true ∧ Strict.isOid Oid.organization = true ∧
      Strict.isOid Oid.serialNumber = true := by
    decide +kernel
  rw [isOrdinary, parts_subject]
  cases commonName <;> simp [ordinary]

end DistinguishedName

end ChainConformance.X509
