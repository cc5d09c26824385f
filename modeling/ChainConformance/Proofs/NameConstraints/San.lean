import ChainConformance.NameConstraints.San
import ChainConformance.Proofs.Asn1.Strict
import ChainConformance.Proofs.Outcome

/-!
# What the alternative names say

The value of the extension is one sequence, and read strictly it gives back the entries that it was
made of. Proved here, for entries whose tags fit into one octet:

* `encodeSan_of_small`, `encodeSan_of_large`: the extension is refused if and only if it would reach
  the length limit;
* `sanElements?_sanBytes`: its elements.
-/

namespace ChainConformance.NameConstraints

/-- The element that an entry becomes. -/
def ExtraName.element (e : ExtraName) : Strict.Element := ⟨0x80 + e.tag, e.value⟩

/-- The sequence of the entries, whatever their tags and sizes. -/
def sanBytes (entries : List ExtraName) : Bytes :=
  Der.sequence (entries.map fun e => Der.tagged e.tag e.value)

/-- The elements of an extension's value, which has to be a sequence and nothing else. -/
def sanElements? (extension : Bytes) : Option (List Strict.Element) := do
  let (elements, rest) ← Strict.inside? 0x30 (Strict.many? Strict.element?) extension
  guard rest.isEmpty
  return elements

/-! ## Writing -/

/-- An entry is shorter than the sequence that it is in. -/
theorem length_lt_sanBytes {entries : List ExtraName} {e : ExtraName} (member : e ∈ entries) :
    e.value.length < (sanBytes entries).length := by
  have listed := List.mem_map_of_mem (f := fun e => Der.tagged e.tag e.value) member
  have inside := (List.sublist_flatten_of_mem listed).length_le
  rw [Der.tagged, Der.length_encode] at inside
  rw [sanBytes, Der.sequence, Der.length_encode]
  omega

theorem ExtraName.encode_of_low {e : ExtraName} (low : e.tag ≤ 30) :
    e.encode = if Strict.lengthLimit ≤ e.value.length then .error (.sanLength .entry)
      else .ok (Der.tagged e.tag e.value) :=
  if_neg (UInt8.not_lt.mpr low)

section
variable {entries : List ExtraName} (low : ∀ e ∈ entries, e.tag ≤ 30)
include low

theorem mapM_encode (short : ∀ e ∈ entries, e.value.length < Strict.lengthLimit) :
    entries.mapM ExtraName.encode = .ok (entries.map fun e => Der.tagged e.tag e.value) := by
  rw [mapM_eq_ok_iff, List.forall₂_map_right_iff, List.forall₂_same]
  intro e member
  rw [ExtraName.encode_of_low (low e member), if_neg (Nat.not_le.mpr (short e member))]

theorem encodeSan_of_small (small : (sanBytes entries).length < Strict.lengthLimit) :
    encodeSan entries = .ok (sanBytes entries) := by
  have parts := mapM_encode low fun e member => Nat.lt_trans (length_lt_sanBytes member) small
  rw [encodeSan, bind_eq_ok_iff]
  refine ⟨_, parts, ?_⟩
  rw [← sanBytes, if_neg (Nat.not_le.mpr small)]
  rfl

theorem encodeSan_of_large (large : Strict.lengthLimit ≤ (sanBytes entries).length) :
    ∃ part, encodeSan entries = .error (.sanLength part) := by
  by_cases short : ∀ e ∈ entries, e.value.length < Strict.lengthLimit
  · -- no entry is at fault, so the extension is
    refine ⟨.extension, ?_⟩
    rw [encodeSan, bind_eq_error_iff]
    refine .inr ⟨_, mapM_encode low short, ?_⟩
    rw [← sanBytes, if_pos large]
    rfl
  · obtain ⟨e, member, long⟩ : ∃ e ∈ entries, Strict.lengthLimit ≤ e.value.length := by
      simpa using short
    cases parts : entries.mapM ExtraName.encode with
    | ok elements =>
      obtain ⟨b, -, made⟩ := exists_of_mem_left (mapM_eq_ok_iff.mp parts) member
      rw [ExtraName.encode_of_low (low e member), if_pos long] at made
      cases made
    | error fault =>
      obtain ⟨x, member', refused⟩ := mapM_eq_error parts
      rw [ExtraName.encode_of_low (low x member')] at refused
      split at refused
      · cases refused
        exact ⟨.entry, by rw [encodeSan, parts, error_bind]⟩
      · cases refused

/-! ## Reading -/

omit low in
/-- The tag octet of an entry with a low number. -/
theorem toNat_contextTag {number : UInt8} (low : number ≤ 30) :
    (0x80 + number).toNat = 128 + number.toNat := by
  have small : number.toNat ≤ 30 := UInt8.le_iff_toNat_le.mp low
  rw [UInt8.toNat_add]
  change (128 + number.toNat) % 256 = _
  omega

omit low in
theorem isTag_context {number : UInt8} (low : number ≤ 30) :
    Strict.isTag (0x80 + number) = true := by
  have small : number.toNat ≤ 30 := UInt8.le_iff_toNat_le.mp low
  have value := toNat_contextTag low
  have context : ¬ 0x80 + number < 0x40 := by
    rw [UInt8.lt_iff_toNat_lt, value]
    simp
    omega
  rw [Strict.isTag, if_neg context, value, decide_eq_true_eq]
  omega

theorem sanElements?_sanBytes (small : (sanBytes entries).length < Strict.lengthLimit) :
    sanElements? (sanBytes entries) = some (entries.map ExtraName.element) := by
  have written : (entries.map fun e => Der.tagged e.tag e.value).flatten =
      (entries.map ExtraName.element).flatMap Strict.Element.encode := by
    rw [List.flatMap_map, List.flatMap_def]
    rfl
  have undone : ∀ x ∈ entries.map ExtraName.element, x.encode ≠ [] ∧
      ∀ rest, Strict.element? (x.encode ++ rest) = some (x, rest) := by
    intro x listed
    obtain ⟨e, member, rfl⟩ := List.mem_map.mp listed
    refine ⟨List.cons_ne_nil _ _, Strict.element?_encode (isTag_context (low e member)) ?_⟩
    exact Nat.lt_trans (length_lt_sanBytes member) small
  have fits :
      (entries.map fun e => Der.tagged e.tag e.value).flatten.length < Strict.lengthLimit := by
    rw [sanBytes, Der.sequence, Der.length_encode] at small
    omega
  have whole := Strict.many?_flatMap undone
  rw [← written] at whole
  have known : Strict.isTag 0x30 = true := rfl
  have read := Strict.inside?_encode known fits whole []
  rw [List.append_nil] at read
  simp [sanElements?, sanBytes, Der.sequence, read]

end

end ChainConformance.NameConstraints
